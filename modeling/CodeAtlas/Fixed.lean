/-! Numbers with six decimals, the precision at which confidences and rates are reported. -/

namespace CodeAtlas

/-- A number of millionths with a sign. Zero keeps its sign, so that a negative number that rounds
to zero is still written as one. -/
structure Fixed where
  negative : Bool
  millionths : Nat
  deriving Repr, DecidableEq, Inhabited

namespace Fixed

def ofMillionths (n : Nat) : Fixed :=
  ⟨false, n⟩

def zero : Fixed := ofMillionths 0

def one : Fixed := ofMillionths 1000000

/-- `num / den` rounded to the nearest whole number; a half goes to the even neighbour. -/
def roundDiv (num den : Nat) : Nat :=
  let q := num / den
  let r := num % den
  if 2 * r > den || (2 * r == den && q % 2 == 1) then q + 1 else q

/-- The ratio of two counts; nothing out of nothing is zero. -/
def ratio (num den : Nat) : Fixed :=
  if den = 0 then zero else ofMillionths (roundDiv (num * 1000000) den)

/-! ## Binary numbers

Numbers pass through the binary numbers of 64 bits, which have mantissas of up to 53 bits and
exponents from -1074 on. -/

/-- The rounded value of `mantissa * 2 ^ exponent`. -/
def ofBinary (negative : Bool) (mantissa : Nat) (exponent : Int) : Fixed :=
  match exponent with
  | .ofNat e => ⟨negative, (mantissa <<< e) * 1000000⟩
  | .negSucc e => ⟨negative, roundDiv (mantissa * 1000000) (1 <<< (e + 1))⟩

/-- `n * 2 ^ k`, or `n` if `k` is negative. -/
def scaleUp (n : Nat) (k : Int) : Nat :=
  n <<< k.toNat

/-- The exponent of the highest binary digit of `num / den`; both are positive. -/
def topExponent (num den : Nat) : Int :=
  let k := Int.ofNat num.log2 - Int.ofNat den.log2
  if scaleUp den k ≤ scaleUp num (-k) then k else k - 1

/-- The mantissa and the exponent of the binary number that is nearest to `num / den`; a half goes to
the even neighbour. A number beyond the largest binary one has none. -/
def nearestBinary? (num den : Nat) : Option (Nat × Int) :=
  let exponent := max (topExponent num den - 52) (-1074)
  let mantissa := roundDiv (scaleUp num (-exponent)) (scaleUp den exponent)
  if exponent + Int.ofNat mantissa.log2 < 1024 then some (mantissa, exponent) else none

/-- The value of `digits * 10 ^ exponent`, taken through the nearest binary number. A number beyond
the largest of them has none. -/
def ofDecimal? (negative : Bool) (digits : Nat) (exponent : Int) : Option Fixed :=
  let places : Int := (Nat.toDigits 10 digits).length
  if digits = 0 || places + exponent < -400 then some ⟨negative, 0⟩
  else if places + exponent > 400 then none
  else
    (nearestBinary? (digits * Nat.pow 10 exponent.toNat) (Nat.pow 10 (-exponent).toNat)).map
      fun binary => ofBinary negative binary.1 binary.2

def sixDigits (n : Nat) : List Char :=
  let digits := Nat.toDigits 10 n
  List.replicate (6 - digits.length) '0' ++ digits

/-- The written form: an optional minus sign, the whole part, a point and six decimals. -/
def render (x : Fixed) : String :=
  String.ofList ((if x.negative then ['-'] else []) ++ Nat.toDigits 10 (x.millionths / 1000000) ++
    '.' :: sixDigits (x.millionths % 1000000))

end Fixed

end CodeAtlas
