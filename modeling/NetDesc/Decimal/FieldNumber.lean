import NetDesc.Decimal.Numeral

namespace NetDesc.Decimal

open Text

def underscoresInside (cs : List Char) : Bool :=
  let rec go (after : Bool) : List Char → Bool
    | [] => true
    | ['_'] => false
    | '_' :: rest => after && go false rest
    | _ :: rest => go true rest
  go false cs

def isAscii (cs : List Char) : Bool :=
  cs.all fun c => c.toNat < 0x80

def readAscii? (cs : List Char) : Option Double :=
  if isAscii cs then readUnsigned? (takeSign cs).1 (takeSign cs).2 else none

/-- A number with blanks around it, or one with underscores inside and no blanks. -/
def readFieldDouble? (s : String) : Option Double :=
  let cs := s.toList
  (readAscii? (trim isSpace cs)).or
    (if underscoresInside cs then readAscii? (withoutUnderscores cs) else none)

inductive FieldInt where
  | value (n : Int)
  | tooLong
  | malformed
deriving DecidableEq, Repr

def isLeadingDigit (c : Char) : Bool :=
  '1' ≤ c && c ≤ '9'

/-- What is left after the zeros and underscores at the start, of which `last` was the latest. A
minus may follow them; before a point and at the end the latest one stays. -/
def afterZeros (last : Char) : List Char → Option (List Char)
  | [] => some [last]
  | c :: rest =>
    if c = '0' ∨ c = '_' then afterZeros c rest
    else if isLeadingDigit c || c == '-' then some (c :: rest)
    else if c = '.' then some (last :: c :: rest)
    else none

def skipZeros : List Char → Option (List Char)
  | [] => none
  | c :: rest =>
    if isLeadingDigit c then some (c :: rest)
    else if c = '0' then afterZeros c rest
    else none

def withoutZeroFraction (cs : List Char) : List Char :=
  match cs.dropWhile (· != '.') with
  | _ :: c :: rest => if (c :: rest).all (· == '0') then cs.takeWhile (· != '.') else cs
  | _ => cs

def readDigits (negative : Bool) (cs : List Char) : FieldInt :=
  if cs = ['0'] then .value 0
  else if !cs.head?.any isLeadingDigit then .malformed
  else
    let run := cs.takeWhile isAsciiDigit
    if digitLimit < run.length then .tooLong
    else if run.length < cs.length then .malformed
    else
      let n : Int := ofDigits (takeDigits run).1
      .value (if negative then -n else n)

/-- One minus in all: before the zeros or after them. -/
def readMinus (negative : Bool) : List Char → FieldInt
  | '-' :: rest => if negative then .malformed else readDigits true rest
  | cs => readDigits negative cs

/-- A whole number in a record: a sign, zeros, digits joined by single underscores, then perhaps a
point and zeros. -/
def readFieldInt (s : String) : FieldInt :=
  let (negative, cs) := takeSign (trim isSpace s.toList)
  match skipZeros cs with
  | none => .malformed
  | some cs =>
    let cs := withoutZeroFraction cs
    readMinus negative (if underscoresInside cs then withoutUnderscores cs else cs)

end NetDesc.Decimal
