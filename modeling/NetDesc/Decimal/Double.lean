/-!
Binary64 numbers, kept as their 64 bits, and the number nearest to a fraction or a decimal.
-/

namespace NetDesc.Decimal

def twoTo (n : Nat) : Nat :=
  Nat.pow 2 n

def tenTo (n : Nat) : Nat :=
  Nat.pow 10 n

/-- The bits, so that the sign of a zero and the payload of a NaN are kept. -/
structure Double where
  bits : UInt64
deriving DecidableEq, Repr, Inhabited

def roundHalfEven (num den : Nat) : Nat :=
  let q := num / den
  let r := num % den
  if 2 * r < den then q
  else if den < 2 * r then q + 1
  else q + q % 2

def infinityCode : Nat :=
  2047 * twoTo 52

/-- The code of the magnitude nearest to `num / den`. The codes count the magnitudes upwards from
zero, so a mantissa that is rounded up to `2 ^ 53` falls on the next one by itself. -/
def nearestCode (num den : Nat) : Nat :=
  let units := num * twoTo 1074
  let shift := (units / den).log2 - 52
  min infinityCode (shift * twoTo 52 + roundHalfEven units (den * twoTo shift))

namespace Double

def ofCode (negative : Bool) (code : Nat) : Double :=
  ⟨UInt64.ofNat (code + if negative then twoTo 63 else 0)⟩

def negative (x : Double) : Bool :=
  twoTo 63 ≤ x.bits.toNat

def code (x : Double) : Nat :=
  x.bits.toNat % twoTo 63

def isNaN (x : Double) : Bool :=
  infinityCode < x.code

def isFinite (x : Double) : Bool :=
  x.code < infinityCode

/-- The magnitude of a finite number, counted in the least positive number `2 ^ (-1074)`. -/
def units (x : Double) : Nat :=
  let e := x.code / twoTo 52
  let f := x.code % twoTo 52
  if e = 0 then f else (f + twoTo 52) * twoTo (e - 1)

def key (x : Double) : Int :=
  if x.negative then -(x.code : Int) else x.code

def sameNumber (x y : Double) : Bool :=
  !x.isNaN && !y.isNaN && x.key == y.key

def le (x y : Double) : Bool :=
  !x.isNaN && !y.isNaN && x.key ≤ y.key

def isWhole (x : Double) : Bool :=
  x.isFinite && x.units % twoTo 1074 == 0

def whole (x : Double) : Int :=
  let n : Int := (x.units / twoTo 1074 : Nat)
  if x.negative then -n else n

def zero : Double := ofCode false 0

def infinity (negative : Bool) : Double := ofCode negative infinityCode

def nan (negative : Bool) : Double := ofCode negative (infinityCode + twoTo 51)

def ofRatio (negative : Bool) (num den : Nat) : Double :=
  ofCode negative (nearestCode num den)

def digitCount (n : Nat) : Nat :=
  (Nat.toDigits 10 n).length

/-- The number nearest to `digits * 10 ^ exponent`. Exponents out of reach are decided by the count
of the digits alone. -/
def ofDecimal (negative : Bool) (digits : Nat) (exponent : Int) : Double :=
  let reach := (digitCount digits : Int) + exponent
  if digits = 0 ∨ reach < -330 then ofCode negative 0
  else if 320 < reach then infinity negative
  else if 0 ≤ exponent then ofRatio negative (digits * tenTo exponent.toNat) 1
  else ofRatio negative digits (tenTo (-exponent).toNat)

def ofInt (n : Int) : Double :=
  ofRatio (n < 0) n.natAbs 1

def ofUnits (n : Int) : Double :=
  ofRatio (n < 0) n.natAbs (twoTo 1074)

def signedUnits (x : Double) : Int :=
  if x.negative then -(x.units : Int) else x.units

def add (x y : Double) : Double :=
  if x.isNaN || y.isNaN then nan false
  else if x.isFinite && y.isFinite then ofUnits (x.signedUnits + y.signedUnits)
  else if x.isFinite then y
  else if y.isFinite || x.negative == y.negative then x
  else nan false

def mul (x y : Double) : Double :=
  let negative := x.negative != y.negative
  if x.isNaN || y.isNaN then nan false
  else if x.isFinite && y.isFinite then ofRatio negative (x.units * y.units) (twoTo 2148)
  else if x.code = 0 ∨ y.code = 0 then nan false
  else infinity negative

def neg (x : Double) : Double :=
  ofCode (!x.negative) x.code

instance : Neg Double := ⟨neg⟩

instance : OfScientific Double where
  ofScientific m less e := ofDecimal false m (if less then -e else e)

def ofInt? (n : Int) : Option Double :=
  let x := ofInt n
  if x.isFinite then some x else none

end Double

end NetDesc.Decimal
