namespace NetDesc.Yaml

def isBreak (c : Char) : Bool :=
  c == '\n' || c == '\x85' || c == '\u2028' || c == '\u2029'

def lineEnd (c : Char) : Char :=
  if c = '\x85' then '\n' else c

def isGap (c : Char) : Bool :=
  c == ' ' || c == '\t' || isBreak c

def isAllowed (c : Char) : Bool :=
  let n := c.toNat
  c == '\t' || c == '\n' || c == '\r' || (0x20 ≤ n && n ≤ 0x7e) || n == 0x85 ||
    (0xa0 ≤ n && n != 0xfffe && n != 0xffff)

def endsWord (cs : List Char) : Bool :=
  cs.head?.all isGap

def endsName (cs : List Char) : Bool :=
  cs.head?.all fun c => c == ' ' || isBreak c

def endsLine (cs : List Char) : Bool :=
  cs.head?.all isBreak

def isNameChar (c : Char) : Bool :=
  c.isAlphanum || c == '-' || c == '_'

def startsWithMark (cs : List Char) : Bool :=
  (cs.take 3 == ['-', '-', '-'] || cs.take 3 == ['.', '.', '.']) && endsWord (cs.drop 3)

structure Position where
  index : Nat
  line : Nat
  column : Nat
deriving DecidableEq, Repr

namespace Position

def start : Position := ⟨0, 0, 0⟩

/-- A byte order mark takes no column. -/
def after (p : Position) (c : Char) : Position :=
  if isBreak c then ⟨p.index + 1, p.line + 1, 0⟩
  else ⟨p.index + 1, p.line, if c = '\ufeff' then p.column else p.column + 1⟩

end Position

structure Cursor where
  position : Position
  rest : List Char

namespace Cursor

def start (cs : List Char) : Cursor := ⟨.start, cs⟩

def column (c : Cursor) : Nat := c.position.column

def drop (c : Cursor) (n : Nat) : Cursor :=
  ⟨(c.rest.take n).foldl Position.after c.position, c.rest.drop n⟩

def takeWhile (c : Cursor) (p : Char → Bool) : List Char :=
  c.rest.takeWhile p

def dropWhile (c : Cursor) (p : Char → Bool) : Cursor :=
  ⟨(c.rest.takeWhile p).foldl Position.after c.position, c.rest.dropWhile p⟩

def skipBlanks (c : Cursor) : Cursor :=
  c.dropWhile (· == ' ')

def skipComment (c : Cursor) : Cursor :=
  if c.rest.head? == some '#' then c.dropWhile fun d => !isBreak d else c

def skipGap (c : Cursor) : Cursor :=
  go false c.position c.rest
where
  go (comment : Bool) : Position → List Char → Cursor
    | p, [] => ⟨p, []⟩
    | p, d :: rest =>
      if isBreak d then go false (p.after d) rest
      else if comment || d = ' ' then go comment (p.after d) rest
      else if d = '#' then go true (p.after d) rest
      else ⟨p, d :: rest⟩

def atMark (c : Cursor) : Bool :=
  c.column == 0 && startsWithMark c.rest

end Cursor

/-- What stands between two words: nothing, blanks, or breaks. Of the blanks beside a break none is
kept. The first break, unless it was `escaped`, is folded. -/
inductive Gap where
  | none
  | blanks (cs : List Char)
  | breaks (folded : Option Char) (more : List Char)

namespace Gap

def addBlank (g : Gap) (c : Char) : Gap :=
  match g with
  | .none => .blanks [c]
  | .blanks cs => .blanks (cs ++ [c])
  | .breaks folded more => .breaks folded more

def addBreak (g : Gap) (c : Char) : Gap :=
  match g with
  | .none | .blanks _ => .breaks (some (lineEnd c)) []
  | .breaks folded more => .breaks folded (more ++ [lineEnd c])

def text : Gap → List Char
  | .none => []
  | .blanks cs => cs
  | .breaks Option.none more => more
  | .breaks (some c) more =>
    if c != '\n' then c :: more else if more.isEmpty then [' '] else more

def isNone : Gap → Bool
  | .none => true
  | _ => false

def hasBreak : Gap → Bool
  | .breaks _ _ => true
  | _ => false

end Gap

end NetDesc.Yaml
