import CodeAtlas.Fixed

/-! Finite binary numbers of 64 bits, as they are read from decimal digits and written to them. The
shortest digits are written, and digits are read at the cost of up to three roundings, so that a
number need not be read as it was written. -/

namespace CodeAtlas

/-- `mantissa * 2 ^ exponent` with a sign, where the mantissa has 53 bits unless the exponent is the
least one. Zero keeps its sign. -/
structure Binary where
  negative : Bool
  mantissa : Nat
  exponent : Int
  deriving Repr, DecidableEq, Inhabited

namespace Binary

def zero : Binary := ⟨false, 0, 0⟩

def one : Binary := ⟨false, 1 <<< 52, -52⟩

/-- The number nearest to `num / den`; a half goes to the even neighbour. A number beyond the largest
one has none. -/
def ofRatio? (num den : Nat) : Option Binary :=
  if num = 0 then some zero
  else
    (Fixed.nearestBinary? num den).map fun (mantissa, exponent) =>
      if mantissa = 0 then zero
      else if mantissa = 1 <<< 53 then ⟨false, 1 <<< 52, exponent + 1⟩
      else ⟨false, mantissa, exponent⟩

def withSign (negative : Bool) (x : Binary) : Binary :=
  { x with negative := negative }

/-- The number nearest to `num / den`, which is taken to be none of the largest. -/
def ofRatio (num den : Nat) : Binary :=
  (ofRatio? num den).getD zero

/-- The number nearest to a whole one. -/
def ofInt (n : Int) : Binary :=
  (ofRatio n.natAbs 1).withSign (n < 0)

/-- The size of a number is the quotient of two whole ones. -/
def num (x : Binary) : Nat := Fixed.scaleUp x.mantissa x.exponent

def den (x : Binary) : Nat := Fixed.scaleUp 1 (-x.exponent)

def mul? (x y : Binary) : Option Binary :=
  ofRatio? (x.num * y.num) (x.den * y.den)

def div? (x y : Binary) : Option Binary :=
  ofRatio? (x.num * y.den) (x.den * y.num)

/-- The number with six decimals, rounded. -/
def toFixed (x : Binary) : Fixed :=
  .ofBinary x.negative x.mantissa x.exponent

/-! ## Reading -/

/-- The largest power of ten that is a binary number. -/
def maxPower : Nat := 308

def power? (exponent : Nat) : Option Binary :=
  ofRatio? (Nat.pow 10 exponent) 1

/-- Divides by the largest power of ten a number of times, and then by another one. Nothing is left
to divide of zero. -/
def divideDown? : Nat → Nat → Binary → Option Binary
  | 0, exponent, x => do x.div? (← power? exponent)
  | times + 1, exponent, x =>
    if x.mantissa = 0 then some x
    else do divideDown? times exponent (← x.div? (← power? maxPower))

/-- The number that is read from digits and an exponent of ten: the digits are rounded, the power of
ten is, and so is their product or quotient. -/
def ofDigits? (digits : Nat) (exponent : Int) : Option Binary := do
  let x ← ofRatio? digits 1
  match exponent with
  | .ofNat up =>
    if x.mantissa = 0 then some x
    else if up ≤ maxPower then x.mul? (← power? up)
    else none
  | .negSucc down =>
    divideDown? (down / maxPower) (down % maxPower + 1) x

/-! ## Writing -/

/-- The exponent of ten of the first digit behind those of `num / den`: the number is below that
power of ten and not below a tenth of it. -/
def decimalTop (num den : Nat) : Int :=
  if den ≤ num then (Nat.toDigits 10 (num / den)).length
  else 1 - (Nat.toDigits 10 ((num + den - 1) / num - 1)).length

/-- The digits of that exponent that are read as the number when they are rounded once, the nearer
ones first. -/
def digitsAt? (x : Binary) (exponent : Int) : Option Nat :=
  let num := x.num * Nat.pow 10 (-exponent).toNat
  let den := x.den * Nat.pow 10 exponent.toNat
  let below := num / den
  let (nearer, other) :=
    if 2 * (num % den) > den || (2 * (num % den) == den && below % 2 == 1) then (below + 1, below)
    else (below, below + 1)
  [nearer, other].find? fun digits =>
    ofRatio? (digits * Nat.pow 10 exponent.toNat) (Nat.pow 10 (-exponent).toNat) ==
      some (x.withSign false)

/-- The fewest digits that stand for a number when they are rounded once, and their exponent. -/
def shortest (x : Binary) : Nat × Int :=
  let top := decimalTop x.num x.den
  let found := (List.range 17).findSome? fun count =>
    let exponent := top - (count + 1 : Nat)
    (x.digitsAt? exponent).map (·, exponent)
  found.getD (0, 0)

/-- The digits and the exponent of a number as it is written. A whole number of up to 16 digits is
written out, with a zero behind the point; any other number is written without zeros at the end. -/
def written (x : Binary) : Nat × Int :=
  let (digits, exponent) := x.shortest
  let length := (Nat.toDigits 10 digits).length
  if 0 ≤ exponent && length + exponent ≤ 16 then
    (digits * Nat.pow 10 (exponent.toNat + 1), -1)
  else (digits, exponent)

/-- The number that is read where a number was written, if it is not read as one beyond the
largest. -/
def reread? (x : Binary) : Option Binary :=
  if x.mantissa = 0 then some x
  else (ofDigits? x.written.1 x.written.2).map (withSign x.negative)

end Binary

end CodeAtlas
