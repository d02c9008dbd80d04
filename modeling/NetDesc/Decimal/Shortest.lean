import NetDesc.Decimal.Double

namespace NetDesc.Decimal

structure Scientific where
  digits : Nat
  exponent : Int
deriving DecidableEq, Repr

namespace Scientific

def num (s : Scientific) : Nat := s.digits * tenTo s.exponent.toNat

def den (s : Scientific) : Nat := tenTo (-s.exponent).toNat

def readsBack (code : Nat) (s : Scientific) : Bool :=
  nearestCode s.num s.den == code

/-- The distance to `units * 2 ^ (-1074)`, in parts of `s.den * 2 ^ 1074`. -/
def distance (units : Nat) (s : Scientific) : Nat :=
  (((s.num * twoTo 1074 : Nat) : Int) - ((units * s.den : Nat) : Int)).natAbs

def dropZeros : Nat → Scientific → Scientific
  | 0, s => s
  | fuel + 1, s =>
    if s.digits ≠ 0 ∧ s.digits % 10 = 0 then dropZeros fuel ⟨s.digits / 10, s.exponent + 1⟩ else s

end Scientific

/-- The count of digits before the point of a positive number; zero or less below one tenth. -/
def pointPlace (units : Nat) : Int :=
  (Double.digitCount (units * tenTo 400 / twoTo 1074) : Int) - 400

def nearer (units : Nat) (low high : Scientific) : Scientific :=
  if low.distance units < high.distance units then low
  else if high.distance units < low.distance units then high
  else if low.digits % 2 = 0 then low else high

def oneOf (code units : Nat) (low high : Scientific) : Option Scientific :=
  if low.readsBack code then
    if high.readsBack code then some (nearer units low high) else some low
  else if high.readsBack code then some high
  else none

def onGrid (code units : Nat) (place : Int) (n : Nat) : Option Scientific :=
  let exponent := place - n
  let scaled := units * tenTo (-exponent).toNat / (twoTo 1074 * tenTo exponent.toNat)
  oneOf code units ⟨scaled, exponent⟩ ⟨scaled + 1, exponent⟩

def fiveTo (n : Nat) : Nat :=
  Nat.pow 5 n

def exactly (units : Nat) : Scientific :=
  ⟨units * fiveTo 1074, -1074⟩

/-- Seventeen digits always suffice; the exact value stands behind them. -/
def shortest (code units : Nat) : Scientific :=
  let place := pointPlace units
  let found := (List.range 17).findSome? fun n => onGrid code units place (n + 1)
  (found.map fun s => s.dropZeros (Double.digitCount s.digits)).getD (exactly units)

def Double.shortest (x : Double) : Scientific :=
  Decimal.shortest x.code x.units

end NetDesc.Decimal
