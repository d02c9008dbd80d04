import NetDesc.Proofs.Tree.Description

namespace NetDesc

open Text Literal Reader

namespace Node

mutual

def tokens : Node → List Token.Piece
  | ⟨name, none, _, children⟩ =>
    (.word, name.toList) :: (.openBrace, ['{']) :: tokensList children ++ [(.closeBrace, ['}'])]
  | ⟨name, some value, valueType, _⟩ =>
    [(.word, name.toList), (.colon, [':']),
      if valueType = .string then (.string, quote value.toList) else (.word, value.toList)]

def tokensList : List Node → List Token.Piece
  | [] => []
  | c :: cs => tokens c ++ tokensList cs

end

theorem toList_ofLines_cons (l : String) (ls : List String) :
    (ofLines (l :: ls)).toList = l.toList ++ '\n' :: (ofLines ls).toList := by
  simp [ofLines]

theorem toList_ofLines_append (ls ms : List String) :
    (ofLines (ls ++ ms)).toList = (ofLines ls).toList ++ (ofLines ms).toList := by
  induction ls with
  | nil => simp [ofLines]
  | cons l ls ih => simp [toList_ofLines_cons, ih]

theorem toList_indent (depth : Nat) : (indent depth).toList = List.replicate (2 * depth) ' ' := by
  simp [indent]

theorem pieces?_indent (depth : Nat) (cs : List Char) :
    Token.pieces? ((indent depth).toList ++ cs) = Token.pieces? cs := by
  rw [toList_indent]
  exact Token.pieces?_blanks (fun c hc => by rw [List.eq_of_mem_replicate hc]; decide) cs

theorem pieces?_lineEnd (cs : List Char) : Token.pieces? ('\n' :: cs) = Token.pieces? cs :=
  Token.pieces?_blank (by decide) cs

theorem pieces?_name {name : String} (hn : isName name.toList = true) {c : Char}
    (hc : breaksWord c = true) (cs : List Char) :
    Token.pieces? (name.toList ++ c :: cs) =
      (Token.pieces? (c :: cs)).map ((.word, name.toList) :: ·) :=
  Token.pieces?_word (isBareWord_of_isName hn) (by simpa using hc)

theorem pieces?_literal {value : String} {valueType : ValueType}
    (hv : valueType = .string ∨ isBareWord value.toList = true) (cs : List Char) :
    Token.pieces? ((literal value valueType).toList ++ '\n' :: cs) =
      (Token.pieces? cs).map
        ((if valueType = .string then (.string, quote value.toList) else (.word, value.toList)) :: ·) := by
  by_cases ht : valueType = .string
  · rw [literal, if_pos (.inl ht), if_pos ht, String.toList_ofList, Token.pieces?_quote,
      pieces?_lineEnd]
  · have hb := hv.resolve_left ht
    have hl : ¬(valueType = .string ∨ (!withLineEnd isBareWord value.toList) = true) := by
      simp [ht, withLineEnd, hb]
    rw [literal, if_neg hl, if_neg ht, Token.pieces?_word hb (by simp; decide), pieces?_lineEnd]

def PrintsAt (depth : Nat) (n : Node) : Prop :=
  ∃ ls, lines depth n = .ok ls ∧ ∀ rest,
    Token.pieces? ((ofLines ls).toList ++ rest) = (Token.pieces? rest).map (n.tokens ++ ·)

theorem linesList_pieces {depth : Nat} {cs : List Node} (h : ∀ c ∈ cs, PrintsAt depth c) :
    ∃ ls, linesList depth cs = .ok ls ∧ ∀ rest,
      Token.pieces? ((ofLines ls).toList ++ rest) =
        (Token.pieces? rest).map (tokensList cs ++ ·) := by
  induction cs with
  | nil => exact ⟨[], rfl, fun rest => by simp [ofLines, tokensList]⟩
  | cons c cs ih =>
    obtain ⟨first, hf, hp⟩ := h c (by simp)
    obtain ⟨others, ho, hq⟩ := ih fun d hd => h d (by simp [hd])
    refine ⟨first ++ others, ?_, fun rest => ?_⟩
    · rw [linesList, hf, ho]
      rfl
    · rw [toList_ofLines_append, List.append_assoc, hp, hq, Option.map_map, tokensList]
      congr 1
      funext ps
      simp

theorem IsWritable.printsAt {n : Node} (h : IsWritable n) : ∀ depth, PrintsAt depth n := by
  induction h with
  | @block name valueType children hn hc ih =>
    intro depth
    obtain ⟨inner, hi, hp⟩ := linesList_pieces fun c hc => ih c hc (depth + 1)
    refine ⟨_, by rw [lines, hi]; rfl, fun rest => ?_⟩
    have ho : (" \x7b" : String).toList = [' ', '{'] := rfl
    have hc : ("\x7d" : String).toList = ['}'] := rfl
    have hn' := pieces?_name hn (c := ' ') (by decide)
    simp only [toList_ofLines_cons, toList_ofLines_append, String.toList_append, List.append_assoc,
      List.cons_append, List.nil_append, ho, hc]
    rw [pieces?_indent, hn', Token.pieces?_blank (by decide), Token.pieces?_openBrace,
      pieces?_lineEnd, hp, pieces?_indent, Token.pieces?_closeBrace, pieces?_lineEnd]
    simp [ofLines, tokens, Option.map_map, Function.comp_def]
  | @leaf name value valueType hn hv =>
    intro depth
    refine ⟨_, rfl, fun rest => ?_⟩
    have hc : (": " : String).toList = [':', ' '] := rfl
    have hn' := pieces?_name hn (c := ':') (by decide)
    simp only [toList_ofLines_cons, String.toList_append, List.append_assoc,
      List.cons_append, List.nil_append, hc]
    rw [pieces?_indent, hn', Token.pieces?_colon, Token.pieces?_blank (by decide),
      pieces?_literal hv]
    simp [ofLines, tokens, Option.map_map, Function.comp_def]

end Node

namespace Reader.State

open Node

def Adds (n : Node) : Prop :=
  ∀ (s : State) (ts : List Token), s.expecting = .field → ts.map Token.piece = n.tokens →
    ts.foldlM step s = .ok (s.add n.reread)

theorem foldlM_tokensList {cs : List Node} (h : ∀ c ∈ cs, Adds c) (s : State) (ts : List Token)
    (hs : s.expecting = .field) (ht : ts.map Token.piece = tokensList cs) :
    ts.foldlM step s = .ok ⟨s.blocks, (rereadList cs).reverse ++ s.fields, .field⟩ := by
  -- For any state, since the fields that were read before pile up in it.
  induction cs generalizing s ts with
  | nil =>
    obtain rfl := List.map_eq_nil_iff.mp ht
    cases s
    cases hs
    rfl
  | cons c cs ih =>
    obtain ⟨us, vs, rfl, hu, hv⟩ := List.map_eq_append_iff.mp ht
    rw [List.foldlM_append, h c (by simp) s us hs hu]
    have hr := ih (fun d hd => h d (by simp [hd])) (s.add c.reread) vs rfl hv
    simpa [add, rereadList] using hr

theorem step_name {s : State} {t : Token} (hs : s.expecting = .field) (hk : t.kind = .word)
    (hn : isName t.text = true) : step s t = .ok { s with expecting := .colon t } := by
  simp [step, hs, hk, hn]

theorem piece_eq {t : Token} {k : TokenKind} {cs : List Char} (h : t.piece = (k, cs)) :
    t.kind = k ∧ t.text = cs := by
  cases h
  exact ⟨rfl, rfl⟩

theorem word_eq {t : Token} {s : String} (h : t.text = s.toList) : t.word = s := by
  rw [Token.word, h, String.ofList_toList]

theorem adds_of_isWritable {n : Node} (h : IsWritable n) : Adds n := by
  induction h with
  | @block name valueType children hn hc ih =>
    intro s ts hs ht
    obtain ⟨t, us, rfl, htn, hu⟩ := List.map_eq_cons_iff.mp ht
    obtain ⟨o, vs, rfl, hto, hv⟩ := List.map_eq_cons_iff.mp hu
    obtain ⟨ws, xs, rfl, hw, hx⟩ := List.map_eq_append_iff.mp hv
    obtain ⟨e, ys, rfl, hte, hy⟩ := List.map_eq_cons_iff.mp hx
    obtain rfl := List.map_eq_nil_iff.mp hy
    obtain ⟨htk, htt⟩ := piece_eq htn
    obtain ⟨hok, -⟩ := piece_eq hto
    obtain ⟨hek, -⟩ := piece_eq hte
    have hopen : step { s with expecting := .colon t } o = .ok (s.openBlock name o) := by
      simp [step, hok, openBlock, word_eq htt]
    have hinner := foldlM_tokensList ih (s.openBlock name o) ws rfl hw
    simp only [List.foldlM_cons, List.foldlM_append, List.foldlM_nil,
      step_name hs htk (htt ▸ hn), ok_bind, hopen, hinner]
    simp [step, hek, openBlock, add, reread, Node.block]
  | @leaf name value valueType hn hv =>
    intro s ts hs ht
    obtain ⟨t, us, rfl, htn, hu⟩ := List.map_eq_cons_iff.mp ht
    obtain ⟨o, vs, rfl, hto, hv'⟩ := List.map_eq_cons_iff.mp hu
    obtain ⟨v, ws, rfl, htv, hw⟩ := List.map_eq_cons_iff.mp hv'
    obtain rfl := List.map_eq_nil_iff.mp hw
    obtain ⟨htk, htt⟩ := piece_eq htn
    obtain ⟨hok, -⟩ := piece_eq hto
    have hcolon : step { s with expecting := .colon t } o =
        .ok { s with expecting := .value t o } := by
      simp [step, hok]
    simp only [List.foldlM_cons, List.foldlM_nil, step_name hs htk (htt ▸ hn), ok_bind, hcolon]
    by_cases hstr : valueType = .string
    · rw [if_pos hstr] at htv
      obtain ⟨hvk, hvt⟩ := piece_eq htv
      simp [step, hvk, hvt, word_eq htt, Token.unquote_quote, add, leaf, reread, rereadList,
        readKind, hstr]
    · rw [if_neg hstr] at htv
      obtain ⟨hvk, hvt⟩ := piece_eq htv
      simp [step, hvk, word_eq hvt, word_eq htt, add, leaf, reread, rereadList, readKind, hstr]

end Reader.State

namespace Node

theorem parse_ofLines {cs : List Node} (h : ∀ c ∈ cs, IsWritable c) :
    ∃ ls, linesList 0 cs = .ok ls ∧ Node.parse (ofLines ls) = .ok (.root (cs.map reread)) := by
  obtain ⟨ls, hl, hp⟩ := linesList_pieces fun c hc => (h c hc).printsAt 0
  refine ⟨ls, hl, ?_⟩
  have hps : Token.pieces? (ofLines ls).toList = some (tokensList cs) := by
    simpa [Token.pieces?_nil] using hp []
  obtain ⟨ts, hs, ht⟩ := Option.map_eq_some_iff.mp hps
  have hscan : Token.scan .start (ofLines ls).toList = .ok ts := by
    cases hx : Token.scan .start (ofLines ls).toList with
    | error u => rw [hx] at hs; cases hs
    | ok us => rw [hx] at hs; cases hs; rfl
  have hf := State.foldlM_tokensList (fun c hc => State.adds_of_isWritable (h c hc)) start ts rfl ht
  rw [Node.parse, hscan]
  change ts.foldlM State.step start >>= State.finish = _
  rw [hf]
  simp [State.finish, start, rereadList_eq_map]

end Node

end NetDesc
