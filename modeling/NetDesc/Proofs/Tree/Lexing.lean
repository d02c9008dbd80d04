import Mathlib.Data.List.TakeWhile
import NetDesc.Proofs.Outcome
import NetDesc.Proofs.Text.Char
import NetDesc.Tree.Printer
import NetDesc.Tree.Reader

namespace NetDesc.Token

open Text Literal

abbrev Piece := TokenKind × List Char

def piece (t : Token) : Piece :=
  (t.kind, t.text)

/-- What follows the quote that a literal starts with, up to the next quote of its sort: no line end
stands in it, and a backslash takes the next character with it. -/
inductive Closes (quote : Char) : List Char → Prop
  | quote : Closes quote [quote]
  | char {c : Char} {cs : List Char} (hq : c ≠ quote) (hb : c ≠ '\\') (hn : c ≠ '\n')
      (h : Closes quote cs) : Closes quote (c :: cs)
  | escape {c : Char} {cs : List Char} (hn : c ≠ '\n') (h : Closes quote cs) :
      Closes quote ('\\' :: c :: cs)

def IsQuote (c : Char) : Prop :=
  c = '"' ∨ c = '\''

def IsStringLiteral (cs : List Char) : Prop :=
  ∃ quote tail, IsQuote quote ∧ Closes quote tail ∧ cs = quote :: tail

def IsText : TokenKind → List Char → Prop
  | .openBrace, cs => cs = ['{']
  | .closeBrace, cs => cs = ['}']
  | .colon, cs => cs = [':']
  | .string, cs => IsStringLiteral cs
  | .word, cs => isBareWord cs = true

section Literals

variable {quote : Char} {cs : List Char}

theorem closes_of_stringTail {r : List Char × List Char} (h : stringTail quote cs = some r) :
    Closes quote r.1 := by
  fun_induction stringTail quote cs generalizing r with
  | case1 => cases h
  | case2 => cases h
  | case3 c rest hn ih =>
    obtain ⟨s, hs, rfl⟩ := Option.map_eq_some_iff.mp h
    exact .escape hn (ih hs)
  | case4 rest =>
    cases h
    exact .quote
  | case5 => cases h
  | case6 c rest hb hq hc ih =>
    obtain ⟨s, hs, rfl⟩ := Option.map_eq_some_iff.mp h
    rw [not_or] at hc
    exact .char hq hc.2 hc.1 (ih hs)

theorem stringTail_of_closes (hq : IsQuote quote) (h : Closes quote cs) (rest : List Char) :
    stringTail quote (cs ++ rest) = some (cs, rest) := by
  have hb : quote ≠ '\\' := by
    rintro rfl
    rcases hq with h | h <;> exact absurd h (by decide)
  induction h with
  | quote => simp [stringTail, hb]
  | char hcq hcb hcn _ ih => simp [stringTail, hcq, hcb, hcn, ih]
  | escape hcn _ ih => simp [stringTail, hcn, ih]

end Literals

section Lexemes

variable {c : Char} {cs : List Char} {l : Lexeme}

def IsComment (l : Lexeme) : Prop :=
  ∃ body, l.text = '#' :: body ∧ '\n' ∉ body ∧ ∀ d ∈ l.rest.head?, d = '\n'

theorem lexeme_cases (h : lexeme c cs = some l) :
    (l.kind = none ∧ ((∀ d ∈ l.text, isBlank d = true) ∨ IsComment l)) ∨
      ∃ k, l.kind = some k ∧ IsText k l.text := by
  unfold lexeme at h
  split at h
  · next hc =>
    cases h
    refine .inl ⟨rfl, .inl ?_⟩
    rw [List.forall_mem_cons]
    exact ⟨hc, fun d hd => List.mem_takeWhile_imp hd⟩
  split at h
  · next hc =>
    cases h
    refine .inl ⟨rfl, .inr ⟨cs.takeWhile (· != '\n'), by rw [hc], ?_, ?_⟩⟩
    · intro hn
      simpa using List.mem_takeWhile_imp hn
    · intro d hd
      have hstop := List.head?_dropWhile_not (· != '\n') cs
      rw [Option.mem_def.mp hd] at hstop
      simpa using hstop
  split at h
  · next hc =>
    cases h
    exact .inr ⟨.openBrace, rfl, by rw [hc]; rfl⟩
  split at h
  · next hc =>
    cases h
    exact .inr ⟨.closeBrace, rfl, by rw [hc]; rfl⟩
  split at h
  · next hc =>
    cases h
    exact .inr ⟨.colon, rfl, by rw [hc]; rfl⟩
  split at h
  · next hc =>
    obtain ⟨r, hr, rfl⟩ := Option.map_eq_some_iff.mp h
    exact .inr ⟨.string, rfl, c, r.1, hc, closes_of_stringTail hr, rfl⟩
  · next hblank hhash hopen hclose hcolon hquote =>
    cases h
    refine .inr ⟨.word, rfl, ?_⟩
    simp only [not_or] at hquote
    simp [IsText, isBareWord, breaksWord, hblank, hhash, hopen, hclose, hcolon, hquote]

theorem lexeme_eq_none (h : lexeme c cs = none) : IsQuote c ∧ stringTail c cs = none := by
  unfold lexeme at h
  split at h
  · cases h
  split at h
  · cases h
  split at h
  · cases h
  split at h
  · cases h
  split at h
  · cases h
  split at h
  · next hc => exact ⟨hc, Option.map_eq_none_iff.mp h⟩
  · cases h

end Lexemes

theorem scan_induction {P : List Char → Prop} (nil : P [])
    (unclosed : ∀ c cs, lexeme c cs = none → P (c :: cs))
    (lexeme : ∀ c cs l, lexeme c cs = some l → P l.rest → P (c :: cs)) (cs : List Char) : P cs :=
  match cs with
  | [] => nil
  | c :: cs =>
    match hl : Token.lexeme c cs with
    | none => unclosed c cs hl
    | some l => lexeme c cs l hl (scan_induction nil unclosed lexeme l.rest)
termination_by cs.length
decreasing_by exact lexeme_rest_lt hl

theorem scan_dropWhile (p : Position) (cs : List Char) :
    scan p cs = scan (p.after (cs.takeWhile isBlank)) (cs.dropWhile isBlank) := by
  cases cs with
  | nil => rfl
  | cons c cs =>
    by_cases hc : isBlank c = true
    · have hl : lexeme c cs = some ⟨none, c :: cs.takeWhile isBlank, cs.dropWhile isBlank⟩ := by
        rw [lexeme, if_pos hc]
      rw [scan_lexeme hl, List.takeWhile_cons_of_pos hc, List.dropWhile_cons_of_pos hc]
      exact congrFun Except.map_id _
    · rw [List.takeWhile_cons_of_neg hc, List.dropWhile_cons_of_neg hc]
      rfl

theorem scan_blank {c : Char} (hc : isBlank c = true) (p : Position) (cs : List Char) :
    scan p (c :: cs) = scan (p.next c) cs := by
  rw [scan_dropWhile p (c :: cs), List.takeWhile_cons_of_pos hc, List.dropWhile_cons_of_pos hc,
    scan_dropWhile (p.next c) cs]
  rfl

theorem scan_blanks {bs : List Char} (hb : ∀ c ∈ bs, isBlank c = true) (p : Position)
    (cs : List Char) : scan p (bs ++ cs) = scan (p.after bs) cs := by
  induction bs generalizing p with
  | nil => rfl
  | cons b bs ih =>
    rw [List.forall_mem_cons] at hb
    rw [List.cons_append, scan_blank hb.1, ih hb.2]
    rfl

def pieces? (cs : List Char) : Option (List Piece) :=
  (scan .start cs).toOption.map fun ts => ts.map piece

theorem scan_pieces (p : Position) (cs : List Char) :
    ((scan p cs).toOption.map fun ts => ts.map piece) = pieces? cs := by
  suffices h : ∀ p q, ((scan p cs).toOption.map fun ts => ts.map piece) =
      (scan q cs).toOption.map fun ts => ts.map piece from h p .start
  induction cs using scan_induction with
  | nil =>
    intro p q
    rw [scan_nil, scan_nil]
  | unclosed c cs hl =>
    intro p q
    rw [scan_unclosed hl, scan_unclosed hl]
    rfl
  | lexeme c cs l hl ih =>
    intro p q
    have he := ih (p.after l.text) (q.after l.text)
    rw [scan_lexeme hl, scan_lexeme hl, toOption_map, toOption_map]
    cases hp : (scan (p.after l.text) l.rest).toOption <;>
      cases hq : (scan (q.after l.text) l.rest).toOption <;>
      simp_all [piece, Function.comp_def]

theorem pieces?_nil : pieces? [] = some [] := by
  rw [pieces?, scan_nil]
  rfl

theorem pieces?_lexeme {c : Char} {cs : List Char} {l : Lexeme} (hl : lexeme c cs = some l) :
    pieces? (c :: cs) =
      (pieces? l.rest).map (l.kind.toList.map (fun k => (k, l.text)) ++ ·) := by
  rw [← scan_pieces (Position.start.after l.text) l.rest, pieces?, scan_lexeme hl, toOption_map]
  cases (scan (Position.start.after l.text) l.rest).toOption with
  | none => rfl
  | some ts =>
    simp only [Option.map_some, List.map_append, List.map_map, Option.some.injEq]
    rfl

theorem pieces?_blank {c : Char} (hc : isBlank c = true) (cs : List Char) :
    pieces? (c :: cs) = pieces? cs := by
  rw [pieces?, scan_blank hc, scan_pieces]

theorem pieces?_blanks {bs : List Char} (hb : ∀ c ∈ bs, isBlank c = true) (cs : List Char) :
    pieces? (bs ++ cs) = pieces? cs := by
  rw [pieces?, scan_blanks hb, scan_pieces]

theorem pieces?_openBrace (cs : List Char) :
    pieces? ('{' :: cs) = (pieces? cs).map ((.openBrace, ['{']) :: ·) :=
  pieces?_lexeme (l := ⟨some .openBrace, ['{'], cs⟩) (by simp [lexeme]; decide)

theorem pieces?_closeBrace (cs : List Char) :
    pieces? ('}' :: cs) = (pieces? cs).map ((.closeBrace, ['}']) :: ·) :=
  pieces?_lexeme (l := ⟨some .closeBrace, ['}'], cs⟩) (by simp [lexeme]; decide)

theorem pieces?_colon (cs : List Char) :
    pieces? (':' :: cs) = (pieces? cs).map ((.colon, [':']) :: ·) :=
  pieces?_lexeme (l := ⟨some .colon, [':'], cs⟩) (by simp [lexeme]; decide)

theorem lexeme_word {c : Char} {cs rest : List Char} (hw : isBareWord (c :: cs) = true)
    (hr : ∀ d ∈ rest.head?, breaksWord d = true) :
    lexeme c (cs ++ rest) = some ⟨some .word, c :: cs, rest⟩ := by
  simp only [isBareWord, List.isEmpty_cons, Bool.not_false, Bool.true_and, List.all_cons,
    Bool.and_eq_true, Bool.not_eq_true', List.all_eq_true] at hw
  obtain ⟨hc, hcs⟩ := hw
  obtain ⟨ht, hd⟩ := @takeWhile_append_stop _ (fun d => !breaksWord d) cs rest
    (fun x hx => by simp [hcs x hx]) (fun y hy => by simp [hr y hy])
  simp only [breaksWord, Bool.or_eq_false_iff, beq_eq_false_iff_ne] at hc
  simp [lexeme, hc, ht, hd]

theorem pieces?_word {w rest : List Char} (hw : isBareWord w = true)
    (hr : ∀ d ∈ rest.head?, breaksWord d = true) :
    pieces? (w ++ rest) = (pieces? rest).map ((.word, w) :: ·) := by
  cases w with
  | nil => simp [isBareWord] at hw
  | cons c cs => exact pieces?_lexeme (lexeme_word hw hr)

theorem stringTail_escape (v rest : List Char) :
    stringTail '"' (v.flatMap escape ++ '"' :: rest) = some (v.flatMap escape ++ ['"'], rest) := by
  induction v with
  | nil => rfl
  | cons c v ih =>
    rw [List.flatMap_cons, List.append_assoc]
    by_cases hc : c ∈ ['\\', '"', '\n', '\t', '\r']
    · simp only [List.mem_cons, List.not_mem_nil, or_false] at hc
      rcases hc with rfl | rfl | rfl | rfl | rfl <;> simp [escape, stringTail, ih]
    · simp only [List.mem_cons, List.not_mem_nil, or_false, not_or] at hc
      obtain ⟨hb, hq, hn, ht, hr⟩ := hc
      simp [escape, stringTail, hb, hq, hn, ht, hr, ih]

theorem pieces?_quote (v rest : List Char) :
    pieces? (quote v ++ rest) = (pieces? rest).map ((.string, quote v) :: ·) := by
  have hl : lexeme '"' (v.flatMap escape ++ '"' :: rest) = some ⟨some .string, quote v, rest⟩ := by
    simp [lexeme, stringTail_escape, quote]
    decide
  simpa [quote] using pieces?_lexeme hl

theorem unquote_escape (v : List Char) : unquote (v.flatMap escape) = v := by
  induction v with
  | nil => rfl
  | cons c v ih =>
    rw [List.flatMap_cons]
    by_cases hc : c ∈ ['\\', '"', '\n', '\t', '\r']
    · simp only [List.mem_cons, List.not_mem_nil, or_false] at hc
      rcases hc with rfl | rfl | rfl | rfl | rfl <;> simp [escape, unquote, unescape, ih]
    · simp only [List.mem_cons, List.not_mem_nil, or_false, not_or] at hc
      obtain ⟨hb, hq, hn, ht, hr⟩ := hc
      simp [escape, unquote, hb, hq, hn, ht, hr, ih]

theorem unquote_quote (v : List Char) : unquote (quote v).tail.dropLast = v := by
  rw [quote, List.cons_append, List.tail_cons, List.dropLast_concat, unquote_escape]

theorem isText_of_scan {p : Position} {cs : List Char} {ts : List Token}
    (h : scan p cs = .ok ts) : ∀ t ∈ ts, IsText t.kind t.text := by
  induction cs using scan_induction generalizing p ts with
  | nil =>
    rw [scan_nil] at h
    cases h
    exact List.forall_mem_nil _
  | unclosed c cs hl =>
    rw [scan_unclosed hl] at h
    cases h
  | lexeme c cs l hl ih =>
    rw [scan_lexeme hl] at h
    obtain ⟨us, hs, rfl⟩ := map_eq_ok.mp h
    intro t ht
    rcases List.mem_append.mp ht with ht | ht
    · obtain ⟨k, hk, rfl⟩ := List.mem_map.mp ht
      rw [Option.mem_toList] at hk
      rcases lexeme_cases hl with ⟨hnone, -⟩ | ⟨k', hsome, htext⟩
      · cases hnone.symm.trans hk
      · cases hsome.symm.trans hk
        exact htext
    · exact ih hs t ht

theorem isBareWord_of_scan {p : Position} {cs : List Char} {ts : List Token}
    (h : scan p cs = .ok ts) : ∀ t ∈ ts, t.kind = .word → isBareWord t.text = true := by
  intro t ht hk
  have htext := isText_of_scan h t ht
  rwa [hk] at htext

end NetDesc.Token
