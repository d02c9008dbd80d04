import NetDesc.Decimal.Numeral
import NetDesc.Json.Basic

namespace NetDesc.Json

open Decimal Text

def codeUnits (c : Char) : List Nat :=
  let n := c.toNat
  if n < 0x10000 then [n] else [0xd800 + (n - 0x10000) / 0x400, 0xdc00 + (n - 0x10000) % 0x400]

def escapeUnit (n : Nat) : List Char :=
  '\\' :: 'u' :: hexDigits 4 n

def escape (c : Char) : List Char :=
  if c = '"' then ['\\', '"']
  else if c = '\\' then ['\\', '\\']
  else if c = '/' then ['\\', '/']
  else if c = '\x08' then ['\\', 'b']
  else if c = '\x0c' then ['\\', 'f']
  else if c = '\n' then ['\\', 'n']
  else if c = '\r' then ['\\', 'r']
  else if c = '\t' then ['\\', 't']
  else if 0x20 ≤ c.toNat ∧ c.toNat < 0x80 then [c]
  else (codeUnits c).flatMap escapeUnit

def quoted (s : String) : List Char :=
  '"' :: s.toList.flatMap escape ++ ['"']

def writeScalar : Json → List Char
  | .null => "null".toList
  | .bool b => (if b then "true" else "false").toList
  | .int n => (toString n).toList
  | .float x => (Layout.json.render x).toList
  | .text s => quoted s
  | _ => []

mutual

def write : Json → List Char
  | .list xs => '[' :: writeList xs ++ [']']
  | .object fs => '{' :: writeFields fs ++ ['}']
  | j => j.writeScalar

def writeList : List Json → List Char
  | [] => []
  | [x] => write x
  | x :: xs => write x ++ ',' :: writeList xs

def writeFields : List (String × Json) → List Char
  | [] => []
  | [(k, x)] => quoted k ++ ':' :: write x
  | (k, x) :: fs => quoted k ++ ':' :: write x ++ ',' :: writeFields fs

end

def render (j : Json) : String :=
  String.ofList j.write

mutual

def isWritable : Json → Bool
  | .int n => n.natAbs < tenTo digitLimit
  | .list xs => isWritableList xs
  | .object fs => isWritableFields fs
  | _ => true

def isWritableList : List Json → Bool
  | [] => true
  | x :: xs => isWritable x && isWritableList xs

def isWritableFields : List (String × Json) → Bool
  | [] => true
  | (_, x) :: fs => isWritable x && isWritableFields fs

end

def newLine (depth : Nat) : List Char :=
  '\n' :: List.replicate (2 * depth) ' '

mutual

def writeLines (depth : Nat) : Json → List Char
  | .list [] => ['[', ']']
  | .list xs => '[' :: listLines (depth + 1) xs ++ newLine depth ++ [']']
  | .object [] => ['{', '}']
  | .object fs => '{' :: fieldLines (depth + 1) fs ++ newLine depth ++ ['}']
  | j => j.writeScalar

def listLines (depth : Nat) : List Json → List Char
  | [] => []
  | [x] => newLine depth ++ writeLines depth x
  | x :: xs => newLine depth ++ writeLines depth x ++ ',' :: listLines depth xs

def fieldLines (depth : Nat) : List (String × Json) → List Char
  | [] => []
  | [(k, x)] => newLine depth ++ quoted k ++ ':' :: ' ' :: writeLines depth x
  | (k, x) :: fs =>
    newLine depth ++ quoted k ++ ':' :: ' ' :: writeLines depth x ++ ',' :: fieldLines depth fs

end

def renderLines (j : Json) : String :=
  String.ofList (j.writeLines 0)

end NetDesc.Json
