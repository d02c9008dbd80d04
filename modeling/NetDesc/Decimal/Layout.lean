import NetDesc.Decimal.Shortest

namespace NetDesc.Decimal

/-- Numbers from `10 ^ least` on and below `10 ^ bound` are written with a point, all others with an
exponent of at least `exponentWidth` digits. -/
structure Layout where
  least : Int
  bound : Int
  exponentWidth : Nat
  nan : String
  infinity : String
deriving Repr

def Layout.plain : Layout :=
  ⟨-4, 16, 2, "nan", "inf"⟩

def Layout.json : Layout :=
  ⟨-4, 16, 1, "NaN", "Infinity"⟩

def zeros (n : Nat) : List Char :=
  List.replicate n '0'

def padded (width n : Nat) : List Char :=
  let ds := Nat.toDigits 10 n
  zeros (width - ds.length) ++ ds

def positional (ds : List Char) (place : Int) : List Char :=
  if place ≤ 0 then '0' :: '.' :: (zeros (-place).toNat ++ ds)
  else
    let n := place.toNat
    if ds.length ≤ n then ds ++ zeros (n - ds.length) ++ ['.', '0']
    else ds.take n ++ '.' :: ds.drop n

def exponential (width : Nat) (ds : List Char) (exponent : Int) : List Char :=
  let mantissa := match ds with
    | d :: e :: rest => d :: '.' :: e :: rest
    | ds => ds
  mantissa ++ 'e' :: (if exponent < 0 then '-' else '+') :: padded width exponent.natAbs

def Layout.unsigned (l : Layout) (x : Double) : List Char :=
  if x.units = 0 then ['0', '.', '0']
  else
    let s := x.shortest
    let ds := Nat.toDigits 10 s.digits
    let place := ds.length + s.exponent
    if l.least < place ∧ place ≤ l.bound then positional ds place
    else exponential l.exponentWidth ds (place - 1)

def Layout.render (l : Layout) (x : Double) : String :=
  if x.isNaN then l.nan
  else
    let body := if x.isFinite then l.unsigned x else l.infinity.toList
    String.ofList (if x.negative then '-' :: body else body)

/-- Whole numbers lose the point and the exponent, the sign of zero too. -/
def format (x : Double) : String :=
  if x.isWhole then toString x.whole else Layout.plain.render x

end NetDesc.Decimal
