import NetDesc.Yaml.Block
import NetDesc.Yaml.Name
import NetDesc.Yaml.Plain
import NetDesc.Yaml.Quoted

/-!
The tokens of a text. Block collections open and close by the columns of their items, and a key is
known as one only at the colon after it.
-/

namespace NetDesc.Yaml

/-- A token that is a key if a colon follows on its line. One at the column of the open block
collection has to be a key. -/
structure KeyMark where
  number : Nat
  required : Bool
  position : Position

def keyLimit : Nat := 1024

def KeyMark.isStale (k : KeyMark) (p : Position) : Bool :=
  k.position.line != p.line || keyLimit < p.index - k.position.index

/-- The state between two tokens. Tokens stand last first; in brackets, `level` is not zero, and
there is at most one possible key a level. -/
structure Outline where
  cursor : Cursor
  level : Int := 0
  indent : Int := -1
  outer : List Int := []
  keyAllowed : Bool := true
  keys : List (Int × KeyMark) := []
  tokens : List Token := []
  count : Nat := 0
  finished : Bool := false

namespace Outline

def start (cs : List Char) : Outline :=
  ⟨.start cs, 0, -1, [], true, [], [], 0, false⟩

def inFlow (o : Outline) : Bool := o.level != 0

def push (o : Outline) (t : Token) : Outline :=
  { o with tokens := t :: o.tokens, count := o.count + 1 }

def insert (o : Outline) (number : Nat) (t : Token) : Outline :=
  let later := o.count - number
  { o with
    tokens := o.tokens.take later ++ t :: o.tokens.drop later
    count := o.count + 1 }

def dropStale (o : Outline) : Scanned Outline :=
  let stale := o.keys.filter fun k => k.2.isStale o.cursor.position
  if stale.any fun k => k.2.required then .error .token
  else .ok { o with keys := o.keys.filter fun k => !k.2.isStale o.cursor.position }

def dropKey (o : Outline) : Scanned Outline :=
  match o.keys.lookup o.level with
  | some k =>
    if k.required then .error .token
    else .ok { o with keys := o.keys.filter fun k => k.1 != o.level }
  | none => .ok o

def saveKey (o : Outline) : Scanned Outline :=
  if o.keyAllowed then do
    let required := !o.inFlow && o.indent == o.cursor.column
    let o ← o.dropKey
    return { o with keys := (o.level, ⟨o.count, required, o.cursor.position⟩) :: o.keys }
  else .ok o

def closeTo (column : Int) (o : Outline) : Outline :=
  if o.inFlow then o else go o.indent o.outer o
where
  go (indent : Int) (outer : List Int) (o : Outline) : Outline :=
    if indent ≤ column then { o with indent, outer }
    else
      match outer with
      | next :: rest => go next rest (o.push .blockEnd)
      | [] => { o with indent, outer }

def indentTo (column : Nat) (o : Outline) : Outline :=
  { o with indent := column, outer := o.indent :: o.outer }

def openBlock (column : Nat) (t : Token) (o : Outline) : Outline :=
  if o.indent < column then (o.indentTo column).push t else o

def take (n : Nat) (t : Token) (o : Outline) : Outline :=
  { o with cursor := o.cursor.drop n }.push t

def takeMark (n : Nat) (t : Token) (o : Outline) : Scanned Outline := do
  let o ← (o.closeTo (-1)).dropKey
  return { o.take n t with keyAllowed := false }

def finish (o : Outline) : Scanned Outline := do
  let o ← (o.closeTo (-1)).dropKey
  return { o.push .textEnd with keyAllowed := false, keys := [], finished := true }

def takeDirective (o : Outline) : Scanned Outline := do
  let o ← (o.closeTo (-1)).dropKey
  let (d, cursor) ← Name.directive (o.cursor.drop 1)
  return { o with cursor, keyAllowed := false }.push (.directive d)

def takeOpen (t : Token) (o : Outline) : Scanned Outline := do
  let o ← o.saveKey
  return { o.take 1 t with level := o.level + 1, keyAllowed := true }

def takeClose (t : Token) (o : Outline) : Scanned Outline := do
  let o ← o.dropKey
  return { o.take 1 t with level := o.level - 1, keyAllowed := false }

def takeComma (o : Outline) : Scanned Outline := do
  let o ← o.dropKey
  return { o.take 1 .comma with keyAllowed := true }

/-- Outside of brackets, an item, a key or a value without a key may start only where a key may. -/
def startBlock (t : Token) (o : Outline) : Scanned Outline :=
  if o.inFlow then .ok o
  else if o.keyAllowed then .ok (o.openBlock o.cursor.column t)
  else .error .token

def takeDash (o : Outline) : Scanned Outline := do
  let o ← (← o.startBlock .blockSequence).dropKey
  return { o.take 1 .dash with keyAllowed := true }

def takeKey (o : Outline) : Scanned Outline := do
  let o ← (← o.startBlock .blockMapping).dropKey
  return { o.take 1 .key with keyAllowed := !o.inFlow }

def takeValue (o : Outline) : Scanned Outline :=
  match o.keys.lookup o.level with
  | some k =>
    let o := { o with keys := o.keys.filter fun k => k.1 != o.level }.insert k.number .key
    let o := if !o.inFlow && o.indent < (k.position.column : Int) then
        (o.indentTo k.position.column).insert k.number .blockMapping
      else o
    .ok { o.take 1 .value with keyAllowed := false }
  | none => do
    let o ← (← o.startBlock .blockMapping).dropKey
    return { o.take 1 .value with keyAllowed := !o.inFlow }

def takeName (name : String → Token) (o : Outline) : Scanned Outline := do
  let o ← o.saveKey
  let (s, cursor) ← Name.anchor (o.cursor.drop 1)
  return { o with cursor, keyAllowed := false }.push (name s)

def takeTag (o : Outline) : Scanned Outline := do
  let o ← o.saveKey
  let (t, cursor) ← Name.tag o.cursor
  return { o with cursor, keyAllowed := false }.push (.tag t)

def takeBlock (folded : Bool) (o : Outline) : Scanned Outline := do
  let o ← o.dropKey
  let (text, cursor) ← Block.scan folded o.indent (o.cursor.drop 1)
  return { o with cursor, keyAllowed := true }.push (.scalar false (text.map Char.toNat))

def takeQuoted (quote : Char) (o : Outline) : Scanned Outline := do
  let o ← o.saveKey
  let (codes, cursor) ← Quoted.scan quote (o.cursor.drop 1)
  return { o with cursor, keyAllowed := false }.push (.scalar false codes)

def takePlain (o : Outline) : Scanned Outline := do
  let o ← o.saveKey
  let (text, broken, cursor) :=
    Plain.scan o.inFlow (o.indent + 1) .none o.cursor.position o.cursor.rest
  return { o with cursor, keyAllowed := broken }.push (.scalar true (text.map Char.toNat))

def takeToken (c : Char) (rest : List Char) (o : Outline) : Scanned Outline :=
  if c = '%' ∧ o.cursor.column = 0 then o.takeDirective
  else if o.cursor.atMark then
    o.takeMark 3 (if c = '-' then .documentStart else .documentEnd)
  else if c = '[' then o.takeOpen .openList
  else if c = '{' then o.takeOpen .openObject
  else if c = ']' then o.takeClose .closeList
  else if c = '}' then o.takeClose .closeObject
  else if c = ',' then o.takeComma
  else if c = '-' ∧ endsWord rest then o.takeDash
  else if c = '?' ∧ (o.inFlow ∨ endsWord rest) then o.takeKey
  else if c = ':' ∧ (o.inFlow ∨ endsWord rest) then o.takeValue
  else if c = '*' then o.takeName .alias
  else if c = '&' then o.takeName .anchor
  else if c = '!' then o.takeTag
  else if (c = '|' ∨ c = '>') ∧ !o.inFlow then o.takeBlock (c == '>')
  else if c = '\'' ∨ c = '"' then o.takeQuoted c
  else if Plain.starts o.inFlow (c :: rest) then o.takePlain
  else .error .token

def skipGap (o : Outline) : Outline :=
  let cursor := o.cursor.skipGap
  let newLine := o.cursor.position.line < cursor.position.line
  { o with cursor, keyAllowed := o.keyAllowed || (newLine && !o.inFlow) }

def next (o : Outline) : Scanned Outline := do
  let o ← o.skipGap.dropStale
  let o := o.closeTo o.cursor.column
  match o.cursor.rest with
  | [] => o.finish
  | c :: rest => o.takeToken c rest

def certain (o : Outline) : Nat :=
  (o.keys.map fun k => k.2.number).foldl min o.count

end Outline

structure Tokens where
  tokens : List Token
  fault : Option Fault

namespace Tokens

def stopped (o : Outline) (certain : Nat) (f : Fault) : Tokens :=
  ⟨o.tokens.reverse.take certain, some f⟩

def scan (cs : List Char) : Tokens :=
  go (cs.length + 2) 0 (.start cs)
where
  go : Nat → Nat → Outline → Tokens
    | 0, certain, o => stopped o certain .token
    | fuel + 1, certain, o =>
      if o.finished then ⟨o.tokens.reverse, none⟩
      else
        match o.dropStale with
        | .error f => stopped o certain f
        | .ok o =>
          match o.next with
          | .error f => stopped o o.certain f
          | .ok next => go fuel o.certain next

def ofText (text : String) : Tokens :=
  if text.toList.all isAllowed then
    scan (match text.toList with
      | '\ufeff' :: rest => rest
      | cs => cs)
  else ⟨[], some .character⟩

end Tokens

end NetDesc.Yaml
