import NetDesc.Text.CaseTable
import NetDesc.Text.Char

namespace NetDesc.Text

def lowerOne (c : Char) : Char :=
  let n := c.toNat
  match lowerRuns.find? fun r => r.1 ≤ n && n ≤ r.2.1 && (n - r.1) % r.2.2.1 == 0 with
  | some r => Char.ofNat (n + r.2.2.2).toNat
  | none => c

def meetsCased (cs : List Char) : Bool :=
  match cs.dropWhile fun c => inRanges ignorableRanges c.toNat with
  | c :: _ => inRanges casedRanges c.toNat
  | [] => false

/-- A capital sigma after a letter and not before one takes its final form; `before` is read
backwards. -/
def lowerAfter (before : List Char) : List Char → List Char
  | [] => []
  | c :: rest =>
    let here :=
      if c = 'Σ' then [if meetsCased before && !meetsCased rest then 'ς' else 'σ']
      else if c = 'İ' then ['i', '\u0307']
      else if c.toNat < 0x80 then [c.toLower]
      else [lowerOne c]
    here ++ lowerAfter (c :: before) rest

def lower (s : String) : String :=
  String.ofList (lowerAfter [] s.toList)

def lowerCodes (cs : List Nat) : List Nat :=
  (cs.splitBy fun m n => isCharCode m == isCharCode n).flatMap fun run =>
    (ofCodes? run).elim run fun s => codes (lower s)

/-- Capitals of a character whose capitals are ASCII letters; any other character is kept, so the
result decides equality with a word of ASCII capitals. -/
def capitals (c : Char) : List Char :=
  match c with
  | 'ß' => ['S', 'S']
  | 'ı' => ['I']
  | 'ſ' => ['S']
  | 'ﬀ' => ['F', 'F']
  | 'ﬁ' => ['F', 'I']
  | 'ﬂ' => ['F', 'L']
  | 'ﬃ' => ['F', 'F', 'I']
  | 'ﬄ' => ['F', 'F', 'L']
  | 'ﬅ' => ['S', 'T']
  | 'ﬆ' => ['S', 'T']
  | c => [c.toUpper]

def upper (s : String) : String :=
  String.ofList (s.toList.flatMap capitals)

def isWord (w : String) (s : String) : Bool :=
  s.toList.map Char.toLower == w.toList

end NetDesc.Text
