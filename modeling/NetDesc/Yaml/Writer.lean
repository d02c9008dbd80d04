import NetDesc.Text.Shown
import NetDesc.Yaml.Scalar

namespace NetDesc.Yaml

namespace Printed

inductive Style where
  | bare
  | single
  | double
deriving DecidableEq, Repr

def leadMarks : List Char :=
  ['#', ',', '[', ']', '{', '}', '&', '*', '!', '|', '>', '\'', '"', '%', '@', '\x60']

def isGap (c : Char) : Bool :=
  c == ' ' || c == '\n'

def needsEscape (c : Char) : Bool :=
  !(c == '\n' || (' ' ≤ c && c ≤ '~'))

def endsText (cs : List Char) : Bool :=
  cs.head?.all isGap

def startsWithMark (cs : List Char) : Bool :=
  cs.take 3 == ['-', '-', '-'] || cs.take 3 == ['.', '.', '.'] ||
    match cs with
    | [] => false
    | c :: rest =>
      leadMarks.contains c || ((c == '?' || c == ':' || c == '-') && endsText rest)

def hasInnerMark : List Char → Bool
  | [] => false
  | ':' :: rest => endsText rest || hasInnerMark rest
  | c :: rest => (isGap c && rest.head? == some '#') || hasInnerMark rest

def hasPair (a b : Char) (cs : List Char) : Bool :=
  (cs.zip (cs.drop 1)).any fun p => p.1 == a && p.2 == b

def style (s : String) : Style :=
  let cs := s.toList
  if cs.any needsEscape || hasPair ' ' '\n' cs || hasPair '\n' ' ' cs then .double
  else if !Kind.isOwnText s || startsWithMark cs || hasInnerMark cs || cs.contains '\n' ||
      cs.head?.any isGap || cs.getLast?.any isGap then .single
  else .bare

def lineWidth : Nat := 80

def newLine : List Char :=
  ['\n', ' ', ' ']

/-- A text without quotes or in single ones, from a column on. A blank between two words may become
a line end, and a line end is written twice. -/
def folded (afterWord : Bool) (column : Nat) : List Char → List Char
  | [] => []
  | ' ' :: c :: rest =>
    if afterWord && lineWidth < column && c != ' ' then newLine ++ folded true 2 (c :: rest)
    else ' ' :: folded false (column + 1) (c :: rest)
  | '\n' :: c :: rest =>
    if c = '\n' then '\n' :: folded afterWord column (c :: rest)
    else '\n' :: newLine ++ folded false 2 (c :: rest)
  | ['\n'] => '\n' :: newLine
  | c :: rest =>
    if c = '\'' then '\'' :: '\'' :: folded true (column + 2) rest
    else c :: folded true (column + 1) rest

def foldedBare (afterWord : Bool) (column : Nat) : List Char → List Char
  | [] => []
  | ' ' :: c :: rest =>
    if afterWord && lineWidth < column && c != ' ' then newLine ++ foldedBare true 2 (c :: rest)
    else ' ' :: foldedBare false (column + 1) (c :: rest)
  | c :: rest => c :: foldedBare true (column + 1) rest

def namedEscapes : List (Char × Char) :=
  [('\x00', '0'), ('\x07', 'a'), ('\x08', 'b'), ('\t', 't'), ('\n', 'n'), ('\x0b', 'v'),
    ('\x0c', 'f'), ('\r', 'r'), ('\x1b', 'e'), ('"', '"'), ('\\', '\\'), ('\x85', 'N'),
    ('\u00a0', '_'), ('\u2028', 'L'), ('\u2029', 'P')]

def upperHex (width n : Nat) : List Char :=
  (Text.hexDigits width n).map Char.toUpper

def escape? (c : Char) : Option (List Char) :=
  match namedEscapes.lookup c with
  | some e => some ['\\', e]
  | none =>
    let n := c.toNat
    if ' ' ≤ c ∧ c ≤ '~' then none
    else if n < 0x100 then some ('\\' :: 'x' :: upperHex 2 n)
    else if n < 0x10000 then some ('\\' :: 'u' :: upperHex 4 n)
    else some ('\\' :: 'U' :: upperHex 8 n)

def continued (rest : List Char) : List Char :=
  '\\' :: newLine ++ if rest.head? == some ' ' then ['\\'] else []

/-- The body of a double-quoted text from a column on. A long line is continued before a blank, or
beside an escape. -/
def escaped (first fresh : Bool) (column : Nat) : List Char → List Char
  | [] => []
  | c :: rest =>
    let inner := !first && !rest.isEmpty
    match escape? c with
    | some e =>
      if inner && lineWidth + 1 < column + e.length then
        e ++ continued rest ++
          escaped false true (if rest.head? == some ' ' then 3 else 2) rest
      else e ++ escaped false true (column + e.length) rest
    | none =>
      if inner && (c == ' ' || fresh) && lineWidth < column then
        continued (c :: rest) ++ c ::
          escaped false false (if c = ' ' then 4 else 3) rest
      else c :: escaped false false (column + 1) rest

def text (column : Nat) (s : String) : List Char :=
  match style s with
  | .bare => foldedBare false column s.toList
  | .single => '\'' :: folded false (column + 1) s.toList ++ ['\'']
  | .double => '"' :: escaped true true (column + 1) s.toList ++ ['"']

def value (column : Nat) (j : Json) : List Char :=
  match j with
  | .text s => text column s
  | j => j.scalarText.toList

end Printed

def render (fields : List (String × Json)) : String :=
  String.ofList (fields.flatMap fun f =>
    f.1.toList ++ ':' :: ' ' :: Printed.value (f.1.length + 2) f.2 ++ ['\n'])

end NetDesc.Yaml
