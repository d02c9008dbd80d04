import NetDesc.Yaml.Date

namespace NetDesc.Yaml

open Decimal Text

inductive Kind where
  | null
  | bool
  | int
  | float
  | date
  | merge
  | default
  | text
  | binary
  | list
  | object
  | pairs
  | set
  | unknown
deriving DecidableEq, Repr

namespace Kind

def isCollection : Kind → Bool
  | .list | .object | .pairs | .set => true
  | _ => false

def addressStart : String := "tag:yaml.org,2002:"

def names : List (String × Kind) :=
  [("null", .null), ("bool", .bool), ("int", .int), ("float", .float), ("timestamp", .date),
    ("merge", .merge), ("value", .default), ("str", .text), ("binary", .binary), ("seq", .list),
    ("map", .object), ("omap", .pairs), ("pairs", .pairs), ("set", .set)]

def ofTag (tag : String) : Kind :=
  ((names.find? fun n => addressStart ++ n.1 == tag).map Prod.snd).getD .unknown

def nullWords : List String :=
  ["~", "null", "Null", "NULL"]

def trueWords : List String :=
  ["yes", "Yes", "YES", "true", "True", "TRUE", "on", "On", "ON"]

def falseWords : List String :=
  ["no", "No", "NO", "false", "False", "FALSE", "off", "Off", "OFF"]

def infinityWords : List String :=
  [".inf", ".Inf", ".INF"]

def nanWords : List String :=
  [".nan", ".NaN", ".NAN"]

def markWords : List String :=
  ["!", "&", "*"]

def isDigitOrJoin (c : Char) : Bool :=
  isAsciiDigit c || c == '_'

def startsWithDigit (cs : List Char) : Bool :=
  cs.head?.any isAsciiDigit

def areDigits (base : Nat) (cs : List Char) : Bool :=
  cs.all fun c => c == '_' || (hexValue? c).any (· < base)

def areSixtieths : List Char → Bool
  | [] => true
  | ':' :: a :: ':' :: rest => isAsciiDigit a && areSixtieths (':' :: rest)
  | ':' :: a :: b :: rest => '0' ≤ a && a ≤ '5' && isAsciiDigit b && areSixtieths rest
  | [':', a] => isAsciiDigit a
  | _ => false

def isWhole : List Char → Bool
  | [] => false
  | '0' :: 'b' :: d :: ds => areDigits 2 (d :: ds)
  | '0' :: 'x' :: d :: ds => areDigits 16 (d :: ds)
  | '0' :: ds => areDigits 8 ds
  | c :: ds => isAsciiDigit c && areSixtieths (ds.dropWhile isDigitOrJoin)

def isExponent : List Char → Bool
  | [] => true
  | e :: s :: d :: ds =>
    (e == 'e' || e == 'E') && (s == '+' || s == '-') && (d :: ds).all isAsciiDigit
  | _ => false

/-- A number with a point, without its sign. Only without a sign the first digit may be missing
before the point, and only without colons there may be an exponent. -/
def isDecimal (signed : Bool) (cs : List Char) : Bool :=
  let front := cs.takeWhile (· != '.')
  match cs.dropWhile (· != '.') with
  | _ :: back =>
    if front.isEmpty then
      !signed && startsWithDigit back && isExponent (back.dropWhile isDigitOrJoin)
    else
      let parts := front.dropWhile isDigitOrJoin
      startsWithDigit front &&
        if parts.isEmpty then isExponent (back.dropWhile isDigitOrJoin)
        else areSixtieths parts && back.all isDigitOrJoin
  | [] => false

def ofNumber? (cs : List Char) : Option Kind :=
  let body := (takeSign cs).2
  let signed := body.length < cs.length
  let word := String.ofList body
  if isWhole body then some .int
  else if isDecimal signed body || infinityWords.contains word ||
    (!signed && nanWords.contains word) then some .float
  else none

def ofWord? (word : String) : Option Kind :=
  if nullWords.contains word then some .null
  else if trueWords.contains word || falseWords.contains word then some .bool
  else if word = "<<" then some .merge
  else if word = "=" then some .default
  else if markWords.contains word then some .unknown
  else none

def dropLineEnd (cs : List Char) : List Char :=
  if cs.getLast? = some '\n' then cs.dropLast else cs

def ofText (s : String) : Kind :=
  let cs := dropLineEnd s.toList
  if s.isEmpty then .null
  else
    match (ofWord? (String.ofList cs)).or (ofNumber? cs) with
    | some k => k
    | none => if Date.isPlain cs then .date else .text

def isOwnText (s : String) : Bool :=
  ofText s == .text

end Kind

end NetDesc.Yaml
