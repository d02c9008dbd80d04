import NetDesc.Decimal.FieldNumber
import NetDesc.Yaml.Token

namespace NetDesc.Yaml

namespace Block

open Decimal

inductive Ending where
  | none
  | one
  | all
deriving DecidableEq, Repr

structure Heading where
  ending : Ending
  indent : Option Nat

def ending? (c : Char) : Option Ending :=
  if c = '+' then some .all else if c = '-' then some .none else none

def indent? (c : Char) : Option Nat :=
  if isAsciiDigit c then some (c.toNat - 0x30) else none

def marks (cs : List Char) : Heading × Nat :=
  let front := cs.head?
  let back := (cs.drop 1).head?
  match front.bind ending?, front.bind indent? with
  | some e, _ =>
    let indent := back.bind indent?
    (⟨e, indent⟩, if indent.isSome then 2 else 1)
  | none, some n =>
    let ending := back.bind ending?
    (⟨ending.getD .one, some n⟩, if ending.isSome then 2 else 1)
  | none, none => (⟨.one, none⟩, 0)

def heading (c : Cursor) : Scanned (Heading × Cursor) :=
  let (h, n) := marks c.rest
  let c := c.drop n
  if h.indent = some 0 || !endsName c.rest then .error .token
  else
    let c := c.skipBlanks.skipComment
    if endsLine c.rest then .ok (h, c.drop 1) else .error .token

/-- The empty lines at a place, and the place of the next line's text, of which blanks from a column
on are a part. -/
def emptyLines (column : Nat) : Position → List Char → List Char × Cursor
  | p, [] => ([], ⟨p, []⟩)
  | p, d :: rest =>
    if isBreak d then
      let (more, c) := emptyLines column (p.after d) rest
      (lineEnd d :: more, c)
    else if d = ' ' ∧ p.column < column then emptyLines column (p.after d) rest
    else ([], ⟨p, d :: rest⟩)

def firstLines : Position → List Char → List Char × Nat × Cursor
  | p, [] => ([], 0, ⟨p, []⟩)
  | p, d :: rest =>
    if isBreak d then
      let (more, column, c) := firstLines (p.after d) rest
      (lineEnd d :: more, column, c)
    else if d = ' ' then
      let (more, column, c) := firstLines (p.after d) rest
      (more, max (p.column + 1) column, c)
    else ([], 0, ⟨p, d :: rest⟩)

def startsBlank (cs : List Char) : Bool :=
  cs.head?.any fun c => c == ' ' || c == '\t'

structure Body where
  text : List Char
  final : List Char
  empty : List Char
  next : Cursor

def lines (folded : Bool) (column : Nat) : Nat → List Char → Cursor → Body
  | 0, empty, c => ⟨[], [], empty, c⟩
  | fuel + 1, empty, c =>
    if c.column != column || c.rest.isEmpty then ⟨[], [], empty, c⟩
    else
      let line := empty ++ c.takeWhile fun d => !isBreak d
      let ending := c.dropWhile fun d => !isBreak d
      let final := (ending.rest.take 1).map lineEnd
      let after := ending.drop 1
      let (empty, next) := emptyLines column after.position after.rest
      if next.column != column || next.rest.isEmpty then ⟨line, final, empty, next⟩
      else
        let folds := folded && final == ['\n'] && !startsBlank c.rest && !startsBlank next.rest
        let joint := if !folds then final else if empty.isEmpty then [' '] else []
        let body := lines folded column fuel empty next
        { body with text := line ++ joint ++ body.text }

def scan (folded : Bool) (indent : Int) (c : Cursor) : Scanned (List Char × Cursor) := do
  let (h, c) ← heading c
  let least := (max (indent + 1) 1).toNat
  let (column, empty, c) := match h.indent with
    | some n =>
      let column := least + n - 1
      (column, emptyLines column c.position c.rest)
    | none =>
      let (empty, column, c) := firstLines c.position c.rest
      (max least column, empty, c)
  let body := lines folded column c.rest.length empty c
  let ending := match h.ending with
    | .none => []
    | .one => body.final
    | .all => body.final ++ body.empty
  return (body.text ++ ending, body.next)

end Block

end NetDesc.Yaml
