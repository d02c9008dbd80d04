import NetDesc.Tree.Literal

namespace NetDesc

open Text Literal

structure Position where
  line : Nat
  column : Nat
deriving DecidableEq, Repr, Inhabited

namespace Position

def start : Position := ⟨1, 1⟩

def next (p : Position) (c : Char) : Position :=
  if c = '\n' then ⟨p.line + 1, 1⟩ else ⟨p.line, p.column + 1⟩

def after (p : Position) (cs : List Char) : Position :=
  cs.foldl next p

end Position

inductive TokenKind where
  | openBrace
  | closeBrace
  | colon
  | string
  | word
deriving DecidableEq, Repr

structure Token where
  kind : TokenKind
  text : List Char
  position : Position
deriving DecidableEq, Repr

namespace Token

/-- The rest of a string literal up to its closing quote: a backslash takes the next character with
it, and no line end may stand inside. -/
def stringTail (quote : Char) : List Char → Option (List Char × List Char)
  | [] => none
  | '\\' :: c :: rest =>
    if c = '\n' then none
    else (stringTail quote rest).map fun r => ('\\' :: c :: r.1, r.2)
  | c :: rest =>
    if c = quote then some ([c], rest)
    else if c = '\n' ∨ c = '\\' then none
    else (stringTail quote rest).map fun r => (c :: r.1, r.2)

structure Lexeme where
  kind : Option TokenKind
  text : List Char
  rest : List Char
deriving DecidableEq, Repr

/-- None only where a string literal is not closed on its line. -/
def lexeme (c : Char) (cs : List Char) : Option Lexeme :=
  if isBlank c then some ⟨none, c :: cs.takeWhile isBlank, cs.dropWhile isBlank⟩
  else if c = '#' then some ⟨none, c :: cs.takeWhile (· != '\n'), cs.dropWhile (· != '\n')⟩
  else if c = '{' then some ⟨some .openBrace, [c], cs⟩
  else if c = '}' then some ⟨some .closeBrace, [c], cs⟩
  else if c = ':' then some ⟨some .colon, [c], cs⟩
  else if c = '"' ∨ c = '\'' then
    (stringTail c cs).map fun r => ⟨some .string, c :: r.1, r.2⟩
  else
    some ⟨some .word, c :: cs.takeWhile (fun d => !breaksWord d), cs.dropWhile fun d => !breaksWord d⟩

theorem stringTail_append {q : Char} {cs : List Char} {r : List Char × List Char}
    (h : stringTail q cs = some r) : r.1 ++ r.2 = cs := by
  fun_induction stringTail q cs generalizing r with
  | case1 => simp at h
  | case2 => simp at h
  | case3 c rest hc ih =>
    obtain ⟨s, hs, rfl⟩ := Option.map_eq_some_iff.1 h
    simp [ih hs]
  | case4 c rest => simp at h; simp [← h]
  | case5 => simp at h
  | case6 c rest _ _ _ ih =>
    obtain ⟨s, hs, rfl⟩ := Option.map_eq_some_iff.1 h
    simp [ih hs]

theorem lexeme_append {c : Char} {cs : List Char} {l : Lexeme} (h : lexeme c cs = some l) :
    l.text ++ l.rest = c :: cs := by
  unfold lexeme at h
  split at h
  · cases h; simp
  · split at h
    · cases h; simp
    · split at h
      · cases h; simp
      · split at h
        · cases h; simp
        · split at h
          · cases h; simp
          · split at h
            · obtain ⟨r, hr, rfl⟩ := Option.map_eq_some_iff.1 h
              simp [stringTail_append hr]
            · cases h; simp

theorem lexeme_text_ne_nil {c : Char} {cs : List Char} {l : Lexeme} (h : lexeme c cs = some l) :
    l.text ≠ [] := by
  unfold lexeme at h
  split at h
  · cases h; simp
  · split at h
    · cases h; simp
    · split at h
      · cases h; simp
      · split at h
        · cases h; simp
        · split at h
          · cases h; simp
          · split at h
            · obtain ⟨r, hr, rfl⟩ := Option.map_eq_some_iff.1 h
              simp
            · cases h; simp

theorem lexeme_rest_lt {c : Char} {cs : List Char} {l : Lexeme} (h : lexeme c cs = some l) :
    l.rest.length < (c :: cs).length := by
  have ha := lexeme_append h
  have hn := List.length_pos_iff.2 (lexeme_text_ne_nil h)
  rw [← ha, List.length_append]
  omega

structure Unclosed where
  position : Position
  rest : List Char
deriving DecidableEq, Repr

-- Otherwise the equations of `scan` are looked for inside the table of blanks.
attribute [local irreducible] isBlank

def scan (p : Position) : List Char → Except Unclosed (List Token)
  | [] => .ok []
  | c :: cs =>
    match _h : lexeme c cs with
    | none => .error ⟨p, c :: cs⟩
    | some l =>
      match scan (p.after l.text) l.rest with
      | .error e => .error e
      | .ok ts =>
        match l.kind with
        | none => .ok ts
        | some k => .ok (⟨k, l.text, p⟩ :: ts)
termination_by cs => cs.length
decreasing_by exact lexeme_rest_lt (by assumption)

theorem scan_nil (p : Position) : scan p [] = .ok [] := by
  rw [scan]

theorem scan_unclosed {c : Char} {cs : List Char} (h : lexeme c cs = none) (p : Position) :
    scan p (c :: cs) = .error ⟨p, c :: cs⟩ := by
  rw [scan]
  split
  · rfl
  · next l hl => rw [h] at hl; cases hl

theorem scan_lexeme {c : Char} {cs : List Char} {l : Lexeme} (h : lexeme c cs = some l)
    (p : Position) :
    scan p (c :: cs) =
      (scan (p.after l.text) l.rest).map (l.kind.toList.map (fun k => ⟨k, l.text, p⟩) ++ ·) := by
  rw [scan]
  split
  · next hl => rw [h] at hl; cases hl
  · next m hl =>
    rw [h] at hl
    cases hl
    cases scan (p.after l.text) l.rest with
    | error e => rfl
    | ok ts => cases l.kind <;> rfl

def word (t : Token) : String :=
  String.ofList t.text

end Token

end NetDesc
