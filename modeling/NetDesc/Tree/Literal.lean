import NetDesc.Text.Case
import NetDesc.Tree.Basic

namespace NetDesc

open Text

namespace Literal

def breaksWord (c : Char) : Bool :=
  isBlank c || c == '{' || c == '}' || c == ':' || c == '"' || c == '\'' || c == '#'

def isBareWord (cs : List Char) : Bool :=
  !cs.isEmpty && cs.all fun c => !breaksWord c

/-- A pattern that may be followed by one line end. -/
def withLineEnd (p : List Char → Bool) (cs : List Char) : Bool :=
  p cs || (cs.getLast? == some '\n' && p cs.dropLast)

def isAsciiLetter (c : Char) : Bool :=
  ('a' ≤ c && c ≤ 'z') || ('A' ≤ c && c ≤ 'Z')

def isNameStart (c : Char) : Bool :=
  isAsciiLetter c || c == '_'

def isNameChar (c : Char) : Bool :=
  isNameStart c || ('0' ≤ c && c ≤ '9') || c == '.' || c == '-' || c == '[' || c == ']' || c == '/'

def isName : List Char → Bool
  | [] => false
  | c :: cs => isNameStart c && cs.all isNameChar

def skipSign : List Char → List Char
  | '+' :: cs => cs
  | '-' :: cs => cs
  | cs => cs

def isExponent : List Char → Bool
  | [] => true
  | c :: cs =>
    (c == 'e' || c == 'E') && !(skipSign cs).isEmpty && (skipSign cs).all isDigit

def isNumber (cs : List Char) : Bool :=
  let cs := skipSign cs
  let whole := cs.takeWhile isDigit
  match cs.dropWhile isDigit with
  | '.' :: rest =>
    !(whole.isEmpty && (rest.takeWhile isDigit).isEmpty) && isExponent (rest.dropWhile isDigit)
  | rest => !whole.isEmpty && isExponent rest

end Literal

open Literal

namespace ValueType

def classify (s : String) : ValueType :=
  if isWord "true" s || isWord "false" s then .bool
  else if withLineEnd isNumber s.toList then .numeric
  else .unknown

def infer (s : String) : ValueType :=
  match classify s with
  | .unknown => .string
  | t => t

end ValueType

namespace Literal

def escape (c : Char) : List Char :=
  if c = '\\' then ['\\', '\\']
  else if c = '"' then ['\\', '"']
  else if c = '\n' then ['\\', 'n']
  else if c = '\t' then ['\\', 't']
  else if c = '\r' then ['\\', 'r']
  else [c]

def quote (cs : List Char) : List Char :=
  '"' :: cs.flatMap escape ++ ['"']

def unescape (c : Char) : Char :=
  if c = 'n' then '\n'
  else if c = 't' then '\t'
  else if c = 'r' then '\r'
  else c

def unquote : List Char → List Char
  | [] => []
  | '\\' :: c :: rest => unescape c :: unquote rest
  | c :: rest => c :: unquote rest

end Literal

namespace Node

def scalar (name value : String) : Node :=
  leaf name value (.infer value)

end Node

end NetDesc
