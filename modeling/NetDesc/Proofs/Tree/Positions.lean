import NetDesc.Proofs.Tree.Braces
import NetDesc.Proofs.Tree.Lexing

namespace NetDesc

open Text Literal

namespace Position

/-- Where a text goes on after what stands before: lines and columns count from one. -/
def reached (before : List Char) : Position :=
  ⟨1 + before.count '\n', 1 + (before.reverse.takeWhile (· != '\n')).length⟩

theorem next_reached (before : List Char) (c : Char) :
    (reached before).next c = reached (before ++ [c]) := by
  by_cases hc : c = '\n'
  · simp [next, reached, hc]
    omega
  · simp [next, reached, hc]
    omega

theorem after_reached (before cs : List Char) :
    (reached before).after cs = reached (before ++ cs) := by
  induction cs generalizing before with
  | nil => rw [List.append_nil]; rfl
  | cons c cs ih =>
    have hstep : (reached before).after (c :: cs) = ((reached before).next c).after cs := rfl
    rw [hstep, next_reached, ih, List.append_assoc, List.singleton_append]

theorem reached_nil : reached [] = start := rfl

theorem eq_nil_of_reached {before cs : List Char} (h : reached (before ++ cs) = reached before) :
    cs = [] := by
  simp only [reached, Position.mk.injEq, List.count_append, List.reverse_append] at h
  obtain ⟨hline, hcolumn⟩ := h
  have hnone : '\n' ∉ cs := List.count_eq_zero.mp (by omega)
  have hcs : ∀ c ∈ cs.reverse, (c != '\n') = true := by
    intro c hc
    rw [bne_iff_ne]
    rintro rfl
    exact hnone (List.mem_reverse.mp hc)
  rw [List.takeWhile_append_of_pos hcs, List.length_append, List.length_reverse] at hcolumn
  exact List.length_eq_zero_iff.mp (by omega)

def Denotes (p : Position) (text before : List Char) : Prop :=
  before <+: text ∧ p = reached before

theorem Denotes.unique {p : Position} {text before before' : List Char} (h : p.Denotes text before)
    (h' : p.Denotes text before') : before = before' := by
  have he : reached before = reached before' := h.2.symm.trans h'.2
  rcases Nat.le_total before.length before'.length with hl | hl
  · obtain ⟨mid, rfl⟩ := List.prefix_of_prefix_length_le h.1 h'.1 hl
    rw [eq_nil_of_reached he.symm, List.append_nil]
  · obtain ⟨mid, rfl⟩ := List.prefix_of_prefix_length_le h'.1 h.1 hl
    rw [eq_nil_of_reached he, List.append_nil]

end Position

namespace Token

/-- A text from some place on, from left to right: blanks, comments that end with their line, and
tokens, each of which says where it stands. -/
inductive Laid : List Char → List Token → List Char → Prop
  | done {before : List Char} : Laid before [] []
  | blank {before rest : List Char} {c : Char} {ts : List Token} (hc : isBlank c = true)
      (h : Laid (before ++ [c]) ts rest) : Laid before ts (c :: rest)
  | comment {before body rest : List Char} {ts : List Token} (hb : '\n' ∉ body)
      (hr : ∀ c ∈ rest.head?, c = '\n') (h : Laid (before ++ '#' :: body) ts rest) :
      Laid before ts ('#' :: body ++ rest)
  | token {before rest : List Char} {t : Token} {ts : List Token} (ht : IsText t.kind t.text)
      (hp : t.position = .reached before) (h : Laid (before ++ t.text) ts rest) :
      Laid before (t :: ts) (t.text ++ rest)

section Layout

variable {before rest cs : List Char} {ts : List Token}

theorem Laid.blanks {bs : List Char} (hb : ∀ c ∈ bs, isBlank c = true)
    (h : Laid (before ++ bs) ts rest) : Laid before ts (bs ++ rest) := by
  induction bs generalizing before with
  | nil => rwa [List.append_nil] at h
  | cons b bs ih =>
    rw [List.forall_mem_cons] at hb
    refine .blank hb.1 (ih hb.2 ?_)
    rwa [List.append_assoc, List.singleton_append]

theorem Laid.lexeme {c : Char} {l : Lexeme} (hl : Token.lexeme c cs = some l) (hr : rest <+: l.rest)
    (h : Laid (before ++ l.text) ts rest) :
    Laid before (l.kind.toList.map (fun k => ⟨k, l.text, .reached before⟩) ++ ts)
      (l.text ++ rest) := by
  rcases lexeme_cases hl with ⟨hk, hb | ⟨body, htext, hb, hn⟩⟩ | ⟨k, hk, ht⟩
  · rw [hk]
    exact .blanks hb h
  · rw [hk, htext]
    refine .comment hb ?_ (htext ▸ h)
    intro d hd
    obtain ⟨tail, htail⟩ := hr
    apply hn
    rw [← htail, List.head?_append, Option.mem_def.mp hd]
    rfl
  · rw [hk]
    exact .token (t := ⟨k, l.text, .reached before⟩) ht rfl h

theorem laid_of_scan (h : scan (.reached before) cs = .ok ts) : Laid before ts cs := by
  induction cs using scan_induction generalizing before ts with
  | nil =>
    rw [scan_nil] at h
    cases h
    exact .done
  | unclosed c cs hl =>
    rw [scan_unclosed hl] at h
    cases h
  | lexeme c cs l hl ih =>
    rw [scan_lexeme hl, Position.after_reached] at h
    obtain ⟨us, hs, rfl⟩ := map_eq_ok.mp h
    rw [← lexeme_append hl]
    exact .lexeme hl (List.prefix_refl _) (ih hs)

theorem unclosed_of_scan {u : Unclosed} (h : scan (.reached before) cs = .error u) :
    ∃ mid ts, cs = mid ++ u.rest ∧ Laid before ts mid ∧ u.position = .reached (before ++ mid) ∧
      ∃ quote more, u.rest = quote :: more ∧ IsQuote quote ∧ stringTail quote more = none := by
  induction cs using scan_induction generalizing before with
  | nil =>
    rw [scan_nil] at h
    cases h
  | unclosed c cs hl =>
    rw [scan_unclosed hl] at h
    cases h
    obtain ⟨hq, ht⟩ := lexeme_eq_none hl
    exact ⟨[], [], rfl, .done, by rw [List.append_nil], c, cs, rfl, hq, ht⟩
  | lexeme c cs l hl ih =>
    rw [scan_lexeme hl, Position.after_reached, map_eq_error] at h
    obtain ⟨mid, ts, hcs, hlaid, hp, hq⟩ := ih h
    refine ⟨l.text ++ mid, _, ?_, .lexeme hl ⟨u.rest, hcs.symm⟩ hlaid, ?_, hq⟩
    · rw [List.append_assoc, ← hcs, lexeme_append hl]
    · rw [hp, List.append_assoc]

theorem Laid.denotes (h : Laid before ts rest) : ∀ t ∈ ts, ∃ pre,
    t.position.Denotes (before ++ rest) pre ∧ before <+: pre ∧ pre ++ t.text <+: before ++ rest := by
  induction h with
  | done => exact List.forall_mem_nil _
  | @blank before rest c ts hc _ ih =>
    intro t ht
    obtain ⟨pre, hp, hb, htext⟩ := ih t ht
    rw [List.append_assoc, List.singleton_append] at hp htext
    exact ⟨pre, hp, (List.prefix_append _ _).trans hb, htext⟩
  | @comment before body rest ts hn hr _ ih =>
    intro t ht
    obtain ⟨pre, hp, hb, htext⟩ := ih t ht
    rw [List.append_assoc] at hp htext
    exact ⟨pre, hp, (List.prefix_append _ _).trans hb, htext⟩
  | @token before rest u ts hu hp _ ih =>
    rw [List.forall_mem_cons]
    constructor
    · refine ⟨before, ⟨List.prefix_append _ _, hp⟩, List.prefix_refl _, rest, ?_⟩
      rw [List.append_assoc]
    · intro t ht
      obtain ⟨pre, hp, hb, htext⟩ := ih t ht
      rw [List.append_assoc] at hp htext
      exact ⟨pre, hp, (List.prefix_append _ _).trans hb, htext⟩

theorem Laid.apart (h : Laid before ts rest) : ts.Pairwise fun t u => ∀ pre pre',
    t.position.Denotes (before ++ rest) pre → u.position.Denotes (before ++ rest) pre' →
      pre ++ t.text <+: pre' := by
  induction h with
  | done => exact .nil
  | @blank before rest c ts hc _ ih =>
    rwa [List.append_assoc, List.singleton_append] at ih
  | @comment before body rest ts hn hr _ ih => rwa [List.append_assoc] at ih
  | @token before rest t ts ht hp h ih =>
    rw [List.append_assoc] at ih
    refine .cons ?_ ih
    intro u hu pre pre' hpre hpre'
    obtain ⟨at', hat, hb, -⟩ := h.denotes u hu
    rw [List.append_assoc] at hat
    rwa [hpre.unique ⟨List.prefix_append _ _, hp⟩, hpre'.unique hat]

end Layout

end Token

namespace Node

open Token Reader

variable {text : String} {e : SyntaxError}

theorem parse_of_scan {u : Unclosed} (h : Token.scan .start text.toList = .error u) :
    Node.parse text = .error u.error := by
  rw [Node.parse, h]

theorem tokens_of_parse (h : Node.parse text = .error e) (he : e.reason ≠ .unterminatedString) :
    ∃ ts, Token.scan .start text.toList = .ok ts ∧ readTokens ts = .error e := by
  rw [Node.parse] at h
  cases hs : Token.scan .start text.toList with
  | error u =>
    rw [hs] at h
    cases h
    exact absurd rfl he
  | ok ts =>
    rw [hs] at h
    exact ⟨ts, rfl, h⟩

/-- Each token stands at the place that its line and column denote, behind the tokens before it, with
nothing but blanks and comments between them. A text without tokens breaks off at a quote that starts
no literal; a brace that is reported closes nothing, as the first one that does, or is the innermost
one that is open at the end. -/
theorem parse_places (text : String) :
    (∀ ts, Token.scan .start text.toList = .ok ts →
      Laid [] ts text.toList ∧
      (∀ t ∈ ts, ∃ before, t.position.Denotes text.toList before ∧ before ++ t.text <+: text.toList ∧
        ∀ before', t.position.Denotes text.toList before' → before' = before) ∧
      ts.Pairwise fun t u => ∀ before before', t.position.Denotes text.toList before →
        u.position.Denotes text.toList before' → before ++ t.text <+: before') ∧
    (∀ u, Token.scan .start text.toList = .error u →
      ∃ e before quote more, Node.parse text = .error e ∧ e.reason.message = "Unterminated string" ∧
        text.toList = before ++ quote :: more ∧ e.position.Denotes text.toList before ∧
        (∃ ts, Laid [] ts before) ∧ IsQuote quote ∧
        ∀ literal, IsStringLiteral literal → ¬ literal <+: quote :: more) ∧
    (∀ e, Node.parse text = .error e → e.reason = .unbalancedBrace →
      ∃ before t after, Token.scan .start text.toList = .ok (before ++ t :: after) ∧
        openBraces before = some [] ∧ t.kind = .closeBrace ∧ e.position = t.position) ∧
    ∀ e name, Node.parse text = .error e → e.reason = .unterminatedBlock name →
      ∃ ts opener outer, Token.scan .start text.toList = .ok ts ∧
        openBraces ts = some (opener :: outer) ∧ e.position = opener.position := by
  refine ⟨?_, ?_, ?_, ?_⟩
  · intro ts hs
    have hlaid : Laid [] ts text.toList := laid_of_scan hs
    refine ⟨hlaid, ?_, hlaid.apart⟩
    intro t ht
    obtain ⟨before, hp, -, htext⟩ := hlaid.denotes t ht
    exact ⟨before, hp, htext, fun before' h => h.unique hp⟩
  · intro u hs
    have hstart : Token.scan (.reached []) text.toList = .error u := hs
    obtain ⟨before, ts, htext, hlaid, hp, quote, more, hrest, hq, hnone⟩ := unclosed_of_scan hstart
    rw [hrest] at htext
    refine ⟨u.error, before, quote, more, parse_of_scan hs, rfl, htext, ⟨⟨_, htext.symm⟩, hp⟩,
      ⟨ts, hlaid⟩, hq, ?_⟩
    rintro literal ⟨quote', tail, -, hcloses, rfl⟩ ⟨rest, hliteral⟩
    obtain ⟨rfl, rfl⟩ := List.cons.inj hliteral
    cases (stringTail_of_closes hq hcloses rest).symm.trans hnone
  · intro e h he
    obtain ⟨ts, hs, hread⟩ := tokens_of_parse h (by rw [he]; decide)
    obtain ⟨before, t, after, rfl, hclosed, hk, hp⟩ := unbalanced_at hread he
    exact ⟨before, t, after, hs, hclosed, hk, hp⟩
  · intro e name h he
    obtain ⟨ts, hs, hread⟩ := tokens_of_parse h (by rw [he]; nofun)
    obtain ⟨opener, outer, hopen, hp⟩ := unterminated_at hread he
    exact ⟨ts, opener, outer, hs, hopen, hp⟩

def commented : String :=
  "a: '\x7b' # \x7d\n\tb"

def quoteLeftOpen : String :=
  "a: '#' # '\nb: \"#"

def closedTwice : String :=
  "a \x7b b \x7b \x7d \x7d\n \x7d"

def leftOpen : String :=
  "a \x7b\nb \x7b \x7d c: \x7b d: 1"

theorem parse_places_lines :
    (∃ ts, Token.scan .start commented.toList = .ok ts ∧ Laid [] ts commented.toList ∧
      ts.map position = [⟨1, 1⟩, ⟨1, 2⟩, ⟨1, 4⟩, ⟨2, 2⟩]) ∧
    (∃ e before, Node.parse quoteLeftOpen = .error e ∧ e.reason.message = "Unterminated string" ∧
      e.position.Denotes quoteLeftOpen.toList before ∧ e.position = ⟨2, 4⟩) ∧
    (∃ before t after, Token.scan .start closedTwice.toList = .ok (before ++ t :: after) ∧
      openBraces before = some [] ∧ t.kind = .closeBrace ∧ (⟨2, 2⟩ : Position) = t.position) ∧
    ∃ ts opener outer, Token.scan .start leftOpen.toList = .ok ts ∧
      openBraces ts = some (opener :: outer) ∧ (⟨2, 10⟩ : Position) = opener.position := by
  obtain ⟨ts, hts, hp⟩ : ∃ ts, Token.scan .start commented.toList = .ok ts ∧
      (ts.map position == [⟨1, 1⟩, ⟨1, 2⟩, ⟨1, 4⟩, ⟨2, 2⟩]) = true := exists_ok (by decide +kernel)
  have hquote : Token.scan .start quoteLeftOpen.toList = .error ⟨⟨2, 4⟩, ['"', '#']⟩ := by
    decide +kernel
  have hclosed : Node.parse closedTwice = .error ⟨.unbalancedBrace, ⟨2, 2⟩, "\x7d"⟩ := by
    decide +kernel
  have hopen : Node.parse leftOpen = .error ⟨.unterminatedBlock "c", ⟨2, 10⟩, "c"⟩ := by
    decide +kernel
  refine ⟨⟨ts, hts, ((parse_places commented).1 ts hts).1, LawfulBEq.eq_of_beq hp⟩, ?_,
    (parse_places closedTwice).2.2.1 _ hclosed rfl, (parse_places leftOpen).2.2.2 _ _ hopen rfl⟩
  obtain ⟨e, before, quote, more, he, hm, -, hd, -⟩ := (parse_places quoteLeftOpen).2.1 _ hquote
  obtain rfl := Except.error.inj ((parse_of_scan hquote).symm.trans he)
  exact ⟨_, before, he, hm, hd, rfl⟩

end Node

end NetDesc
