import CodeAtlas.Text.Utf8

/-! Content digests: the XXH3 function with seed zero and its default secret, in the 64-bit and the
128-bit form. Texts of up to 16, 128 and 240 bytes each have a formula of their own; longer texts
go through eight accumulators in stripes of 64 bytes. -/

namespace CodeAtlas.Digest

/-- A digest of 128 bits. -/
structure Wide where
  high : UInt64
  low : UInt64
  deriving Repr, DecidableEq, Inhabited

/-! ## Constants -/

/-- The default secret. -/
def secret : ByteArray := ⟨#[
  0xb8, 0xfe, 0x6c, 0x39, 0x23, 0xa4, 0x4b, 0xbe, 0x7c, 0x01, 0x81, 0x2c, 0xf7, 0x21, 0xad, 0x1c,
  0xde, 0xd4, 0x6d, 0xe9, 0x83, 0x90, 0x97, 0xdb, 0x72, 0x40, 0xa4, 0xa4, 0xb7, 0xb3, 0x67, 0x1f,
  0xcb, 0x79, 0xe6, 0x4e, 0xcc, 0xc0, 0xe5, 0x78, 0x82, 0x5a, 0xd0, 0x7d, 0xcc, 0xff, 0x72, 0x21,
  0xb8, 0x08, 0x46, 0x74, 0xf7, 0x43, 0x24, 0x8e, 0xe0, 0x35, 0x90, 0xe6, 0x81, 0x3a, 0x26, 0x4c,
  0x3c, 0x28, 0x52, 0xbb, 0x91, 0xc3, 0x00, 0xcb, 0x88, 0xd0, 0x65, 0x8b, 0x1b, 0x53, 0x2e, 0xa3,
  0x71, 0x64, 0x48, 0x97, 0xa2, 0x0d, 0xf9, 0x4e, 0x38, 0x19, 0xef, 0x46, 0xa9, 0xde, 0xac, 0xd8,
  0xa8, 0xfa, 0x76, 0x3f, 0xe3, 0x9c, 0x34, 0x3f, 0xf9, 0xdc, 0xbb, 0xc7, 0xc7, 0x0b, 0x4f, 0x1d,
  0x8a, 0x51, 0xe0, 0x4b, 0xcd, 0xb4, 0x59, 0x31, 0xc8, 0x9f, 0x7e, 0xc9, 0xd9, 0x78, 0x73, 0x64,
  0xea, 0xc5, 0xac, 0x83, 0x34, 0xd3, 0xeb, 0xc3, 0xc5, 0x81, 0xa0, 0xff, 0xfa, 0x13, 0x63, 0xeb,
  0x17, 0x0d, 0xdd, 0x51, 0xb7, 0xf0, 0xda, 0x49, 0xd3, 0x16, 0x55, 0x26, 0x29, 0xd4, 0x68, 0x9e,
  0x2b, 0x16, 0xbe, 0x58, 0x7d, 0x47, 0xa1, 0xfc, 0x8f, 0xf8, 0xb8, 0xd1, 0x7a, 0xd0, 0x31, 0xce,
  0x45, 0xcb, 0x3a, 0x8f, 0x95, 0x16, 0x04, 0x28, 0xaf, 0xd7, 0xfb, 0xca, 0xbb, 0x4b, 0x40, 0x7e]⟩

def prime32A : UInt64 := 0x9E3779B1
def prime32B : UInt64 := 0x85EBCA77
def prime32C : UInt64 := 0xC2B2AE3D
def prime64A : UInt64 := 0x9E3779B185EBCA87
def prime64B : UInt64 := 0xC2B2AE3D27D4EB4F
def prime64C : UInt64 := 0x165667B19E3779F9
def prime64D : UInt64 := 0x85EBCA77C2B2AE63
def prime64E : UInt64 := 0x27D4EB2F165667C5
def mixerA : UInt64 := 0x165667919E3779F9
def mixerB : UInt64 := 0x9FB21C651E98DF25

/-! ## Words -/

/-- The byte at index `i`, or zero outside the data. -/
def byteAt (data : ByteArray) (i : Nat) : UInt64 :=
  if h : i < data.size then data[i].toUInt64 else 0

/-- The little-endian word of 32 bits at index `i`. -/
def word32 (data : ByteArray) (i : Nat) : UInt64 :=
  byteAt data i ||| (byteAt data (i + 1) <<< 8) ||| (byteAt data (i + 2) <<< 16) |||
    (byteAt data (i + 3) <<< 24)

/-- The little-endian word of 64 bits at index `i`. -/
def word64 (data : ByteArray) (i : Nat) : UInt64 :=
  word32 data i ||| (word32 data (i + 4) <<< 32)

def rotate (x : UInt64) (count : UInt64) : UInt64 :=
  (x <<< count) ||| (x >>> (64 - count))

def low32 (x : UInt64) : UInt64 :=
  x &&& 0xFFFFFFFF

def low8 (x : UInt64) : UInt64 :=
  x &&& 0xFF

/-- The four bytes of a 32-bit word in reverse. -/
def swap32 (x : UInt64) : UInt64 :=
  (low8 x <<< 24) ||| (low8 (x >>> 8) <<< 16) ||| (low8 (x >>> 16) <<< 8) ||| low8 (x >>> 24)

/-- The eight bytes of a word in reverse. -/
def swap64 (x : UInt64) : UInt64 :=
  (swap32 (low32 x) <<< 32) ||| swap32 (x >>> 32)

/-- The full product of two words. -/
def product (x y : UInt64) : Wide :=
  let p := x.toNat * y.toNat
  ⟨(p / UInt64.size).toUInt64, p.toUInt64⟩

/-- The two halves of the full product, added without carry. -/
def fold (x y : UInt64) : UInt64 :=
  let p := product x y
  p.high ^^^ p.low

/-- The final mixing of short texts. -/
def settleShort (h : UInt64) : UInt64 :=
  let h := (h ^^^ (h >>> 33)) * prime64B
  let h := (h ^^^ (h >>> 29)) * prime64C
  h ^^^ (h >>> 32)

/-- The final mixing of all other texts. -/
def settle (h : UInt64) : UInt64 :=
  let h := (h ^^^ (h >>> 37)) * mixerA
  h ^^^ (h >>> 32)

/-- Sixteen bytes of data folded with sixteen bytes of the secret. -/
def mix16 (data : ByteArray) (i key : Nat) : UInt64 :=
  fold (word64 data i ^^^ word64 secret key) (word64 data (i + 8) ^^^ word64 secret (key + 8))

/-- Two runs of sixteen bytes mixed into a wide accumulator. -/
def mix32 (acc : Wide) (data : ByteArray) (i j key : Nat) : Wide :=
  ⟨(acc.high + mix16 data j (key + 16)) ^^^ (word64 data i + word64 data (i + 8)),
   (acc.low + mix16 data i key) ^^^ (word64 data j + word64 data (j + 8))⟩

/-! ## Long texts -/

/-- The eight accumulators before the first stripe. -/
def startLanes : Array UInt64 :=
  #[prime32C, prime64A, prime64B, prime64C, prime64D, prime32B, prime64E, prime32A]

/-- Adds one stripe of 64 bytes to the accumulators. -/
def addStripe (data : ByteArray) (i key : Nat) (lanes : Array UInt64) : Array UInt64 :=
  (List.range 8).foldl (fun lanes n =>
    let value := word64 data (i + 8 * n)
    let keyed := value ^^^ word64 secret (key + 8 * n)
    let partner := if n % 2 = 0 then n + 1 else n - 1
    let lanes := lanes.modify partner fun lane => lane + value
    lanes.modify n fun lane => lane + low32 keyed * (keyed >>> 32)) lanes

/-- Stirs the accumulators at the end of a block. -/
def scramble (lanes : Array UInt64) : Array UInt64 :=
  (List.range 8).foldl (fun lanes n => lanes.modify n fun lane =>
    ((lane ^^^ (lane >>> 47)) ^^^ word64 secret (128 + 8 * n)) * prime32A) lanes

/-- Adds `count` stripes from index `i` on. -/
def addStripes (data : ByteArray) (i count : Nat) (lanes : Array UInt64) : Array UInt64 :=
  (List.range count).foldl (fun lanes n => addStripe data (i + 64 * n) (8 * n) lanes) lanes

/-- The accumulators after all stripes of a text of more than 240 bytes. -/
def lanes (data : ByteArray) : Array UInt64 :=
  let size := data.size
  let blocks := (size - 1) / 1024
  let full := (List.range blocks).foldl
    (fun lanes n => scramble (addStripes data (1024 * n) 16 lanes)) startLanes
  let rest := addStripes data (1024 * blocks) ((size - 1 - 1024 * blocks) / 64) full
  addStripe data (size - 64) 121 rest

/-- Merges the accumulators into one word. -/
def merge (lanes : Array UInt64) (key : Nat) (start : UInt64) : UInt64 :=
  settle ((List.range 4).foldl (fun h n =>
    h + fold (lanes.getD (2 * n) 0 ^^^ word64 secret (key + 16 * n))
      (lanes.getD (2 * n + 1) 0 ^^^ word64 secret (key + 16 * n + 8))) start)

/-! ## The 64-bit digest -/

/-- One to three bytes packed with their number into one word. -/
def packTiny (data : ByteArray) : UInt64 :=
  let size := data.size
  (byteAt data 0 <<< 16) ||| (byteAt data (size / 2) <<< 24) ||| byteAt data (size - 1) |||
    (size.toUInt64 <<< 8)

/-- The 64-bit digest of some data. -/
def narrowOf (data : ByteArray) : UInt64 :=
  let size := data.size
  let length := size.toUInt64
  if size = 0 then settleShort (word64 secret 56 ^^^ word64 secret 64)
  else if size ≤ 3 then settleShort (packTiny data ^^^ (word32 secret 0 ^^^ word32 secret 4))
  else if size ≤ 8 then
    let value := word32 data (size - 4) + (word32 data 0 <<< 32)
    let h := value ^^^ (word64 secret 8 ^^^ word64 secret 16)
    let h := (h ^^^ rotate h 49 ^^^ rotate h 24) * mixerB
    let h := (h ^^^ ((h >>> 35) + length)) * mixerB
    h ^^^ (h >>> 28)
  else if size ≤ 16 then
    let low := word64 data 0 ^^^ (word64 secret 24 ^^^ word64 secret 32)
    let high := word64 data (size - 8) ^^^ (word64 secret 40 ^^^ word64 secret 48)
    settle (length + swap64 low + high + fold low high)
  else if size ≤ 128 then
    let steps := (size - 1) / 32
    settle ((List.range (steps + 1)).foldl (fun acc n =>
      acc + mix16 data (16 * n) (32 * n) + mix16 data (size - 16 * (n + 1)) (32 * n + 16))
      (length * prime64A))
  else if size ≤ 240 then
    let head := (List.range 8).foldl (fun acc n => acc + mix16 data (16 * n) (16 * n))
      (length * prime64A)
    let body := (List.range (size / 16 - 8)).foldl
      (fun acc n => acc + mix16 data (128 + 16 * n) (16 * n + 3)) (settle head)
    settle (body + mix16 data (size - 16) 119)
  else merge (lanes data) 11 (length * prime64A)

/-! ## The 128-bit digest -/

/-- The end of the wide digest of 17 to 240 bytes. -/
def settleWide (acc : Wide) (length : UInt64) : Wide :=
  ⟨0 - settle (acc.low * prime64A + acc.high * prime64D + length * prime64B),
   settle (acc.low + acc.high)⟩

/-- The wide digest of one to three bytes. -/
def wideOfTiny (data : ByteArray) : Wide :=
  let low := packTiny data
  let swapped := swap32 low
  let high := low32 ((swapped <<< 13) ||| (swapped >>> 19))
  ⟨settleShort (high ^^^ (word32 secret 8 ^^^ word32 secret 12)),
   settleShort (low ^^^ (word32 secret 0 ^^^ word32 secret 4))⟩

/-- The wide digest of four to eight bytes. -/
def wideOfSmall (data : ByteArray) : Wide :=
  let size := data.size
  let value := word32 data 0 + (word32 data (size - 4) <<< 32)
  let keyed := value ^^^ (word64 secret 16 ^^^ word64 secret 24)
  let p := product keyed (prime64A + (size.toUInt64 <<< 2))
  let high := p.high + (p.low <<< 1)
  let low := p.low ^^^ (high >>> 3)
  let low := (low ^^^ (low >>> 35)) * mixerB
  ⟨settle high, low ^^^ (low >>> 28)⟩

/-- The wide digest of nine to sixteen bytes. -/
def wideOfMedium (data : ByteArray) : Wide :=
  let size := data.size
  let first := word64 data 0
  let last := word64 data (size - 8)
  let p := product (first ^^^ last ^^^ (word64 secret 32 ^^^ word64 secret 40)) prime64A
  let low := p.low + ((size - 1).toUInt64 <<< 54)
  let last := last ^^^ (word64 secret 48 ^^^ word64 secret 56)
  let high := p.high + last + low32 last * (prime32B - 1)
  let low := low ^^^ swap64 high
  let q := product low prime64B
  ⟨settle (q.high + high * prime64B), settle q.low⟩

/-- The 128-bit digest of some data. -/
def wideOf (data : ByteArray) : Wide :=
  let size := data.size
  let length := size.toUInt64
  let start : Wide := ⟨0, length * prime64A⟩
  if size = 0 then
    ⟨settleShort (word64 secret 80 ^^^ word64 secret 88),
     settleShort (word64 secret 64 ^^^ word64 secret 72)⟩
  else if size ≤ 3 then wideOfTiny data
  else if size ≤ 8 then wideOfSmall data
  else if size ≤ 16 then wideOfMedium data
  else if size ≤ 128 then
    let steps := (size - 1) / 32
    settleWide ((List.range (steps + 1)).reverse.foldl (fun acc n =>
      mix32 acc data (16 * n) (size - 16 * (n + 1)) (32 * n)) start) length
  else if size ≤ 240 then
    let head := (List.range 4).foldl
      (fun acc n => mix32 acc data (32 * n) (32 * n + 16) (32 * n)) start
    let body := (List.range (size / 32 - 4)).foldl
      (fun acc n => mix32 acc data (128 + 32 * n) (144 + 32 * n) (32 * n + 3))
      ⟨settle head.high, settle head.low⟩
    settleWide (mix32 body data (size - 16) (size - 32) 103) length
  else
    let lanes := lanes data
    ⟨merge lanes 117 (~~~(length * prime64B)), merge lanes 11 (length * prime64A)⟩

/-! ## Written form -/

/-- The 64-bit digest of some bytes. -/
def narrow (bytes : Bytes) : UInt64 :=
  narrowOf ⟨bytes.toArray⟩

/-- The 128-bit digest of some bytes. -/
def wide (bytes : Bytes) : Wide :=
  wideOf ⟨bytes.toArray⟩

/-- The sixteen hexadecimal digits of a word. -/
def hex16 (word : UInt64) : String :=
  let digits := Nat.toDigits 16 word.toNat
  String.ofList (List.replicate (16 - digits.length) '0' ++ digits)

/-- The thirty-two hexadecimal digits of a wide digest, high half first. -/
def Wide.hex (digest : Wide) : String :=
  hex16 digest.high ++ hex16 digest.low

end CodeAtlas.Digest
