import NetDesc.Json.Token
import NetDesc.Stream.Bytes
import NetDesc.Yaml.Token

namespace NetDesc.Yaml

namespace Name

open Decimal Text

def endMarks : List Char :=
  ['?', ':', ',', ']', '}', '%', '@', '\x60']

def anchor (c : Cursor) : Scanned (String × Cursor) :=
  let name := c.takeWhile isNameChar
  let c := c.dropWhile isNameChar
  if name.isEmpty || !(endsWord c.rest || c.rest.head?.any endMarks.contains) then .error .token
  else .ok (String.ofList name, c)

def handle (c : Cursor) : Scanned (String × Cursor) :=
  match c.rest with
  | '!' :: rest =>
    if rest.head? == some ' ' then .ok ("!", c.drop 1)
    else
      let name := rest.takeWhile isNameChar
      if (rest.drop name.length).head? == some '!' then
        .ok (String.ofList ('!' :: name ++ ['!']), c.drop (name.length + 2))
      else .error .token
  | _ => .error .token

def isAddressChar (c : Char) : Bool :=
  isNameChar c || [';', '/', '?', ':', '@', '&', '=', '+', '$', ',', '.', '!', '~', '*', '\'', '(',
    ')', '[', ']'].contains c

def bytesText (bs : Bytes) : Scanned (List Char) :=
  match bs.toText? with
  | some s => .ok s.toList
  | none => .error .token

def addressText (bytes : Bytes) : Position → List Char → Scanned (List Char × Cursor)
  | p, '%' :: a :: b :: rest =>
    match hexValue? a, hexValue? b with
    | some m, some n =>
      addressText (bytes ++ [UInt8.ofNat (m * 16 + n)]) (['%', a, b].foldl Position.after p) rest
    | _, _ => .error .token
  | p, c :: rest =>
    if c = '%' then .error .token
    else if isAddressChar c then do
      let text ← bytesText bytes
      let (more, r) ← addressText [] (p.after c) rest
      return (text ++ c :: more, r)
    else (bytesText bytes).map fun text => (text, ⟨p, c :: rest⟩)
  | p, [] => (bytesText bytes).map fun text => (text, ⟨p, []⟩)

def address (c : Cursor) : Scanned (String × Cursor) := do
  let (text, c) ← addressText [] c.position c.rest
  if text.isEmpty then .error .token else .ok (String.ofList text, c)

def completeTag (c : Cursor) : Scanned (Tag × Cursor) := do
  let (ending, c) ← address c
  if c.rest.head? == some '>' then .ok (⟨none, ending⟩, c.drop 1) else .error .token

def shortTag (c : Cursor) : Scanned (Tag × Cursor) := do
  let word := (c.rest.drop 1).takeWhile fun d => d != ' ' && !isBreak d
  let (handle, c) ← if word.contains '!' then handle c else .ok ("!", c.drop 1)
  let (ending, c) ← address c
  return (⟨some handle, ending⟩, c)

def tag (c : Cursor) : Scanned (Tag × Cursor) := do
  let after := c.rest.drop 1
  let (t, c) ← if after.head? == some '<' then completeTag (c.drop 2)
    else if endsWord after then .ok (⟨none, "!"⟩, c.drop 1)
    else shortTag c
  if endsName c.rest then .ok (t, c) else .error .token

def number (c : Cursor) : Scanned (Nat × Cursor) :=
  let ds := c.takeWhile isAsciiDigit
  if ds.isEmpty then .error .token
  else if digitLimit < ds.length then .error (.literal (.longInt ds.length))
  else .ok (ofDigits (takeDigits ds).1, c.dropWhile isAsciiDigit)

def version (c : Cursor) : Scanned (Directive × Cursor) := do
  let (major, c) ← number c.skipBlanks
  if c.rest.head? != some '.' then .error .token
  let (_, c) ← number (c.drop 1)
  if endsName c.rest then .ok (.version major, c) else .error .token

def handleDirective (c : Cursor) : Scanned (Directive × Cursor) := do
  let (name, c) ← handle c.skipBlanks
  if c.rest.head? != some ' ' then .error .token
  let (value, c) ← address c.skipBlanks
  if endsName c.rest then .ok (.handle name value, c) else .error .token

def directive (c : Cursor) : Scanned (Directive × Cursor) := do
  let name := c.takeWhile isNameChar
  let c := c.dropWhile isNameChar
  if name.isEmpty || !endsName c.rest then .error .token
  let (d, c) ← if name = "YAML".toList then version c
    else if name = "TAG".toList then handleDirective c
    else .ok (.other, c.dropWhile fun d => !isBreak d)
  let c := c.skipBlanks.skipComment
  if endsLine c.rest then .ok (d, c.drop 1) else .error .token

end Name

end NetDesc.Yaml
