import NetDesc.Decimal.Double
import NetDesc.Text.Char

namespace NetDesc.Decimal

open Text

def ofDigits (ds : List Nat) : Nat :=
  ds.foldl (fun n d => n * 10 + d) 0

def isAsciiDigit (c : Char) : Bool :=
  '0' ≤ c && c ≤ '9'

def takeDigits : List Char → List Nat × List Char
  | [] => ([], [])
  | c :: rest =>
    match digitValue? c with
    | some d => ((d :: (takeDigits rest).1), (takeDigits rest).2)
    | none => ([], c :: rest)

def takeSign : List Char → Bool × List Char
  | '-' :: rest => (true, rest)
  | '+' :: rest => (false, rest)
  | cs => (false, cs)

def underscoresJoinDigits (cs : List Char) : Bool :=
  let rec go (afterDigit : Bool) : List Char → Bool
    | [] => true
    | '_' :: c :: rest => afterDigit && isDigit c && go true rest
    | ['_'] => false
    | c :: rest => go (isDigit c) rest
  go false cs

def withoutUnderscores (cs : List Char) : List Char :=
  cs.filter (· != '_')

def digitLimit : Nat := 4300

def isTooLong (n : Nat) : Bool :=
  tenTo digitLimit ≤ n

def readInt? (s : String) : Option Int :=
  let (negative, cs) := takeSign (trim isSpace s.toList)
  if !underscoresJoinDigits cs then none
  else
    match takeDigits (withoutUnderscores cs) with
    | ([], _) => none
    | (ds, []) =>
      if digitLimit < ds.length then none
      else
        let n : Int := ofDigits ds
        some (if negative then -n else n)
    | _ => none

def baseLetters : List (Char × Nat) :=
  [('b', 2), ('o', 8), ('x', 16)]

def dropBase (base : Nat) (cs : List Char) : List Char :=
  match cs with
  | zero :: c :: rest =>
    if digitValue? zero = some 0 ∧ baseLetters.lookup c.toLower = some base then rest else cs
  | cs => cs

def digitIn? (base : Nat) (c : Char) : Option Nat :=
  ((digitValue? c).or (hexValue? c)).filter (· < base)

def readInBase? (base : Nat) (s : String) : Option Int :=
  let (negative, cs) := takeSign (trim isSpace s.toList)
  match (dropBase base cs).mapM (digitIn? base) with
  | some (d :: ds) =>
    let n : Int := ((d :: ds).foldl (fun n d => n * base + d) 0 : Nat)
    some (if negative then -n else n)
  | _ => none

def readExponent? : List Char → Option Int
  | [] => some 0
  | c :: rest =>
    if c = 'e' ∨ c = 'E' then
      let (negative, cs) := takeSign rest
      match takeDigits cs with
      | ([], _) => none
      | (ds, []) =>
        let n : Int := ofDigits ds
        some (if negative then -n else n)
      | _ => none
    else none

def readDecimal? (negative : Bool) (cs : List Char) : Option Double :=
  let (whole, rest) := takeDigits cs
  let (fraction, rest) := match rest with
    | '.' :: rest => takeDigits rest
    | rest => ([], rest)
  if whole.isEmpty && fraction.isEmpty then none
  else
    (readExponent? rest).map fun e =>
      Double.ofDecimal negative (ofDigits (whole ++ fraction)) (e - fraction.length)

def readUnsigned? (negative : Bool) (cs : List Char) : Option Double :=
  let word := String.ofList (cs.map Char.toLower)
  if word = "inf" ∨ word = "infinity" then some (Double.infinity negative)
  else if word = "nan" then some (Double.nan negative)
  else readDecimal? negative cs

def readDouble? (s : String) : Option Double :=
  let (negative, cs) := takeSign (trim isSpace s.toList)
  if underscoresJoinDigits cs then readUnsigned? negative (withoutUnderscores cs) else none

def isPlainInt (s : String) : Bool :=
  let ds := s.toList.dropWhile fun c => c == '+' || c == '-'
  !ds.isEmpty && ds.all isDigit

end NetDesc.Decimal
