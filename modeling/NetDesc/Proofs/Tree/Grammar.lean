import NetDesc.Proofs.Outcome
import NetDesc.Tree.Reader

/-!
The grammar of descriptions. A derivation is a tree over the tokens that it derives, and where a body
ends is seen from the next token, so no two derivations have the same tokens.
-/

namespace NetDesc.Grammar

open Literal Reader

def Terminal (k : TokenKind) : Type :=
  {t : Token // t.kind = k}

def FieldName : Type :=
  {t : Token // t.kind = .word ∧ isName t.text = true}

inductive Value where
  | string (t : Terminal .string)
  | word (t : Terminal .word)

inductive Field where
  | scalar (name : FieldName) (colon : Terminal .colon) (value : Value)
  | block (name : FieldName) (colon : Option (Terminal .colon)) (opener : Terminal .openBrace)
    (body : List Field) (closer : Terminal .closeBrace)

def Value.token : Value → Token
  | string t => t.1
  | word t => t.1

def opening (name : FieldName) (colon : Option (Terminal .colon)) (opener : Terminal .openBrace) :
    List Token :=
  match colon with
  | none => [name.1, opener.1]
  | some colon => [name.1, colon.1, opener.1]

mutual

def tokens : Field → List Token
  | .scalar name colon value => [name.1, colon.1, value.token]
  | .block name colon opener body closer =>
    opening name colon opener ++ (bodyTokens body ++ [closer.1])

def bodyTokens : List Field → List Token
  | [] => []
  | f :: fs => tokens f ++ bodyTokens fs

end

def Value.denote (name : FieldName) : Value → Node
  | string t => .leaf name.1.word (String.ofList (unquote (t.1.text.drop 1).dropLast)) .string
  | word t => .leaf name.1.word t.1.word (.classify t.1.word)

mutual

def denote : Field → Node
  | .scalar name _ value => value.denote name
  | .block name _ _ body _ => .block name.1.word (denoteBody body)

def denoteBody : List Field → List Node
  | [] => []
  | f :: fs => denote f :: denoteBody fs

end

section Unambiguous

theorem ne_of_kind_ne {k k' : TokenKind} (hk : k ≠ k') (t : Terminal k) (u : Terminal k') :
    t.1 ≠ u.1 := by
  intro h
  apply hk
  rw [← t.2, ← u.2, h]

theorem Value.token_inj {v w : Value} (h : v.token = w.token) : v = w := by
  cases v with
  | string t =>
    cases w with
    | string u => exact congrArg string (Subtype.ext h)
    | word u => exact absurd h (ne_of_kind_ne (by decide) t u)
  | word t =>
    cases w with
    | string u => exact absurd h (ne_of_kind_ne (by decide) t u)
    | word u => exact congrArg word (Subtype.ext h)

theorem Value.token_ne_opener (v : Value) (opener : Terminal .openBrace) : v.token ≠ opener.1 := by
  cases v with
  | string t => exact ne_of_kind_ne (by decide) t opener
  | word t => exact ne_of_kind_ne (by decide) t opener

theorem opening_append_inj {ts us : List Token} {name name' : FieldName} {colon colon' : Option (Terminal .colon)}
    {opener opener' : Terminal .openBrace}
    (h : opening name colon opener ++ ts = opening name' colon' opener' ++ us) :
    name = name' ∧ colon = colon' ∧ opener = opener' ∧ ts = us := by
  cases colon with
  | none =>
    cases colon' with
    | none =>
      simp only [opening, List.cons_append, List.nil_append, List.cons.injEq] at h
      exact ⟨Subtype.ext h.1, rfl, Subtype.ext h.2.1, h.2.2⟩
    | some c' =>
      simp only [opening, List.cons_append, List.nil_append, List.cons.injEq] at h
      exact absurd h.2.1 (ne_of_kind_ne (by decide) opener c')
  | some c =>
    cases colon' with
    | none =>
      simp only [opening, List.cons_append, List.nil_append, List.cons.injEq] at h
      exact absurd h.2.1 (ne_of_kind_ne (by decide) c opener')
    | some c' =>
      simp only [opening, List.cons_append, List.nil_append, List.cons.injEq] at h
      obtain ⟨hn, hc, ho, ht⟩ := h
      exact ⟨Subtype.ext hn, congrArg some (Subtype.ext hc), Subtype.ext ho, ht⟩

theorem scalar_ne_opening {ts us : List Token} (name : FieldName) (colon : Terminal .colon)
    (value : Value) (name' : FieldName) (colon' : Option (Terminal .colon))
    (opener : Terminal .openBrace) :
    [name.1, colon.1, value.token] ++ ts ≠ opening name' colon' opener ++ us := by
  intro h
  cases colon' with
  | none =>
    simp only [opening, List.cons_append, List.nil_append, List.cons.injEq] at h
    exact ne_of_kind_ne (by decide) colon opener h.2.1
  | some c' =>
    simp only [opening, List.cons_append, List.nil_append, List.cons.injEq] at h
    exact value.token_ne_opener opener h.2.2.1

def EndsBody (ts : List Token) : Prop :=
  ∀ t ∈ ts.head?, t.kind = .closeBrace

theorem endsBody_nil : EndsBody [] := by
  intro t ht
  cases ht

theorem endsBody_closer (closer : Terminal .closeBrace) (ts : List Token) :
    EndsBody (closer.1 :: ts) := by
  intro t ht
  cases ht
  exact closer.2

theorem tokens_eq_cons (f : Field) : ∃ (name : FieldName) (ts : List Token), tokens f = name.1 :: ts := by
  cases f with
  | scalar name colon value => exact ⟨name, _, rfl⟩
  | block name colon opener body closer =>
    cases colon with
    | none => exact ⟨name, _, rfl⟩
    | some c => exact ⟨name, _, rfl⟩

theorem not_endsBody_tokens (f : Field) (ts : List Token) : ¬ EndsBody (tokens f ++ ts) := by
  obtain ⟨name, us, hf⟩ := tokens_eq_cons f
  intro h
  rw [hf] at h
  have hk := h name.1 rfl
  rw [name.2.1] at hk
  cases hk

mutual

theorem tokens_append_inj (f g : Field) {ts us : List Token} (h : tokens f ++ ts = tokens g ++ us) :
    f = g ∧ ts = us := by
  cases f with
  | scalar name colon value =>
    cases g with
    | scalar name' colon' value' =>
      simp only [tokens, List.cons_append, List.nil_append, List.cons.injEq] at h
      obtain ⟨hn, hc, hv, ht⟩ := h
      rw [Subtype.ext hn, Subtype.ext hc, Value.token_inj hv]
      exact ⟨rfl, ht⟩
    | block name' colon' opener' body' closer' =>
      simp only [tokens, List.append_assoc] at h
      exact absurd h (scalar_ne_opening name colon value name' colon' opener')
  | block name colon opener body closer =>
    cases g with
    | scalar name' colon' value' =>
      simp only [tokens, List.append_assoc] at h
      exact absurd h.symm (scalar_ne_opening name' colon' value' name colon opener)
    | block name' colon' opener' body' closer' =>
      simp only [tokens, List.append_assoc] at h
      obtain ⟨rfl, rfl, rfl, hb⟩ := opening_append_inj h
      -- No field starts with a brace, so both bodies end where they are closed.
      obtain ⟨rfl, hc⟩ := bodyTokens_append_inj body body' (endsBody_closer closer ts)
        (endsBody_closer closer' us) hb
      obtain ⟨hc, ht⟩ := List.cons.inj hc
      rw [Subtype.ext hc]
      exact ⟨rfl, ht⟩

theorem bodyTokens_append_inj (fs gs : List Field) {ts us : List Token} (ht : EndsBody ts)
    (hu : EndsBody us) (h : bodyTokens fs ++ ts = bodyTokens gs ++ us) : fs = gs ∧ ts = us := by
  cases fs with
  | nil =>
    cases gs with
    | nil => exact ⟨rfl, h⟩
    | cons g gs =>
      rw [bodyTokens, bodyTokens, List.nil_append, List.append_assoc] at h
      rw [h] at ht
      exact absurd ht (not_endsBody_tokens g _)
  | cons f fs =>
    cases gs with
    | nil =>
      rw [bodyTokens, bodyTokens, List.nil_append, List.append_assoc] at h
      rw [← h] at hu
      exact absurd hu (not_endsBody_tokens f _)
    | cons g gs =>
      rw [bodyTokens, bodyTokens, List.append_assoc, List.append_assoc] at h
      obtain ⟨rfl, hr⟩ := tokens_append_inj f g h
      obtain ⟨rfl, he⟩ := bodyTokens_append_inj fs gs ht hu hr
      exact ⟨rfl, he⟩

end

theorem bodyTokens_injective : Function.Injective bodyTokens := by
  intro fs gs h
  have ha : bodyTokens fs ++ [] = bodyTokens gs ++ [] := by rw [h]
  exact (bodyTokens_append_inj fs gs endsBody_nil endsBody_nil ha).1

end Unambiguous

section Complete

variable (blocks : List Frame) (fields : List Node) (ts : List Token)

def run (s : State) (ts : List Token) : Except SyntaxError Node :=
  ts.foldlM State.step s >>= State.finish

theorem run_cons (s : State) (t : Token) : run s (t :: ts) = s.step t >>= fun s => run s ts := by
  rw [run, List.foldlM_cons]
  cases s.step t with
  | error e => rfl
  | ok s => rfl

theorem run_name (name : FieldName) :
    run ⟨blocks, fields, .field⟩ (name.1 :: ts) = run ⟨blocks, fields, .colon name.1⟩ ts := by
  simp [run_cons, State.step, name.2.1, name.2.2]

theorem run_colon (name : Token) (colon : Terminal .colon) :
    run ⟨blocks, fields, .colon name⟩ (colon.1 :: ts) = run ⟨blocks, fields, .value name colon.1⟩ ts := by
  simp [run_cons, State.step, colon.2]

theorem run_value (name : FieldName) (colon : Token) (value : Value) :
    run ⟨blocks, fields, .value name.1 colon⟩ (value.token :: ts) =
      run ⟨blocks, value.denote name :: fields, .field⟩ ts := by
  cases value with
  | string t => simp [run_cons, State.step, State.add, Value.token, Value.denote, t.2]
  | word t => simp [run_cons, State.step, State.add, Value.token, Value.denote, t.2]

theorem run_opening (name : FieldName) (colon : Option (Terminal .colon))
    (opener : Terminal .openBrace) :
    run ⟨blocks, fields, .field⟩ (opening name colon opener ++ ts) =
      run ⟨⟨name.1.word, opener.1.position, fields⟩ :: blocks, [], .field⟩ ts := by
  cases colon with
  | none =>
    rw [opening, List.cons_append, run_name, List.cons_append, List.nil_append, run_cons]
    simp [State.step, State.openBlock, opener.2]
  | some c =>
    rw [opening, List.cons_append, run_name, List.cons_append, run_colon, List.cons_append,
      List.nil_append, run_cons]
    simp [State.step, State.openBlock, opener.2]

theorem run_closer (b : Frame) (closer : Terminal .closeBrace) :
    run ⟨b :: blocks, fields, .field⟩ (closer.1 :: ts) =
      run ⟨blocks, .block b.name fields.reverse :: b.before, .field⟩ ts := by
  simp [run_cons, State.step, closer.2]

mutual

theorem run_tokens (f : Field) (blocks : List Frame) (fields : List Node) (ts : List Token) :
    run ⟨blocks, fields, .field⟩ (tokens f ++ ts) = run ⟨blocks, denote f :: fields, .field⟩ ts := by
  cases f with
  | scalar name colon value =>
    rw [tokens, List.cons_append, run_name, List.cons_append, run_colon, List.cons_append,
      List.nil_append, run_value, denote]
  | block name colon opener body closer =>
    rw [tokens, List.append_assoc, run_opening, List.append_assoc, run_bodyTokens body,
      List.cons_append, List.nil_append, run_closer, List.append_nil, List.reverse_reverse, denote]

theorem run_bodyTokens (fs : List Field) (blocks : List Frame) (fields : List Node)
    (ts : List Token) :
    run ⟨blocks, fields, .field⟩ (bodyTokens fs ++ ts) =
      run ⟨blocks, (denoteBody fs).reverse ++ fields, .field⟩ ts := by
  cases fs with
  | nil => rfl
  | cons f fs =>
    rw [bodyTokens, List.append_assoc, run_tokens f, run_bodyTokens fs, denoteBody,
      List.reverse_cons, List.append_assoc, List.singleton_append]

end

theorem readTokens_bodyTokens (fs : List Field) :
    readTokens (bodyTokens fs) = .ok (.root (denoteBody fs)) := by
  have h := run_bodyTokens fs [] [] []
  rw [List.append_nil, List.append_nil] at h
  change run start (bodyTokens fs) = _
  rw [start, h]
  simp [run, State.finish]

end Complete

end NetDesc.Grammar
