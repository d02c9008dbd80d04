import NetDesc.Yaml.Token

namespace NetDesc.Yaml

namespace Plain

def indicators : List Char :=
  ['-', '?', ':', ',', '[', ']', '{', '}', '#', '&', '*', '!', '|', '>', '\'', '"', '%', '@', '\x60']

def starts (flow : Bool) : List Char → Bool
  | [] => false
  | c :: rest =>
    !isGap c && (!indicators.contains c ||
      (!endsWord rest && (c == '-' || (!flow && (c == '?' || c == ':')))))

def isBracket (c : Char) : Bool :=
  c == '[' || c == ']' || c == '{' || c == '}'

/-- A word ends at a gap, at a colon that a value may follow, and in brackets at their marks. -/
def endsAt (flow : Bool) : List Char → Bool
  | [] => true
  | c :: rest =>
    isGap c || (flow && (c == ',' || c == '?' || isBracket c)) ||
      (c == ':' && (endsWord rest || (flow && rest.head?.any fun d => d == ',' || isBracket d)))

/-- The words from a place on. Further lines belong to them from column `least` on, up to a comment
or the end of a document. Tells whether a break stands after the last word. -/
def scan (flow : Bool) (least : Int) (gap : Gap) :
    Position → List Char → List Char × Bool × Cursor
  | p, [] => ([], gap.hasBreak, ⟨p, []⟩)
  | p, c :: rest =>
    let stop : List Char × Bool × Cursor := ([], gap.hasBreak, ⟨p, c :: rest⟩)
    if gap.hasBreak && p.column == 0 && startsWithMark (c :: rest) then stop
    else if c = ' ' then scan flow least (gap.addBlank c) (p.after c) rest
    else if isBreak c then scan flow least (gap.addBreak c) (p.after c) rest
    else if endsAt flow (c :: rest) then stop
    else if !gap.isNone && (c == '#' || (!flow && p.column < least)) then stop
    else
      let (more, r) := scan flow least .none (p.after c) rest
      (gap.text ++ c :: more, r)

end Plain

end NetDesc.Yaml
