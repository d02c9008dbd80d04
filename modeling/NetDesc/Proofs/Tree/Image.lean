import NetDesc.Proofs.Tree.Description

namespace NetDesc

open Literal Reader

namespace Reader.State

open Node

/-- All that was read so far is what a text can hold, and names that wait for more are names. -/
structure Sound (s : State) : Prop where
  fields : ∀ n ∈ s.fields, IsField n
  names : ∀ b ∈ s.blocks, isName b.name.toList = true
  before : ∀ b ∈ s.blocks, ∀ n ∈ b.before, IsField n
  colon : ∀ t, s.expecting = .colon t → isName t.text = true
  value : ∀ t o, s.expecting = .value t o → isName t.text = true

theorem toList_word (t : Token) : t.word.toList = t.text := String.toList_ofList

theorem Sound.add {s : State} (h : Sound s) {n : Node} (hn : IsField n) : Sound (s.add n) where
  fields := by
    intro m hm
    rcases List.mem_cons.mp hm with rfl | hm
    · exact hn
    · exact h.fields m hm
  names := h.names
  before := h.before
  colon := fun t ht => by cases ht
  value := fun t o ht => by cases ht

theorem Sound.openBlock {s : State} (h : Sound s) {t o : Token} (ht : isName t.text = true) :
    Sound (s.openBlock t.word o) where
  fields := fun n hn => by cases hn
  names := by
    intro b hb
    rcases List.mem_cons.mp hb with rfl | hb
    · simpa [toList_word] using ht
    · exact h.names b hb
  before := by
    intro b hb
    rcases List.mem_cons.mp hb with rfl | hb
    · exact h.fields
    · exact h.before b hb
  colon := fun t ht => by cases ht
  value := fun t o ht => by cases ht

theorem Sound.close {s : State} (h : Sound s) {b : Frame} {blocks : List Frame}
    (hb : s.blocks = b :: blocks) :
    Sound ⟨blocks, .block b.name s.fields.reverse :: b.before, .field⟩ where
  fields := by
    intro n hn
    rcases List.mem_cons.mp hn with rfl | hn
    · exact .block (h.names b (by simp [hb])) fun c hc => h.fields c (List.mem_reverse.mp hc)
    · exact h.before b (by simp [hb]) n hn
  names := fun c hc => h.names c (by simp [hb, hc])
  before := fun c hc => h.before c (by simp [hb, hc])
  colon := fun t ht => by cases ht
  value := fun t o ht => by cases ht

theorem Sound.expect {s : State} (h : Sound s) {e : Expecting}
    (hc : ∀ t, e = .colon t → isName t.text = true)
    (hv : ∀ t o, e = .value t o → isName t.text = true) : Sound { s with expecting := e } :=
  ⟨h.fields, h.names, h.before, hc, hv⟩

theorem Sound.step {s s' : State} (h : Sound s) {t : Token}
    (hw : t.kind = .word → isBareWord t.text = true) (hs : s.step t = .ok s') : Sound s' := by
  cases he : s.expecting with
  | field =>
    cases hk : t.kind with
    | closeBrace =>
      cases hb : s.blocks with
      | nil => simp [State.step, he, hk, hb, fail] at hs
      | cons b blocks =>
        simp only [State.step, he, hk, hb, Except.ok.injEq] at hs
        subst hs
        exact h.close hb
    | word =>
      by_cases hn : isName t.text = true
      · simp only [State.step, he, hk, hn, if_true, Except.ok.injEq] at hs
        subst hs
        refine h.expect (fun u hu => ?_) (fun u o hu => by cases hu)
        cases hu
        exact hn
      · simp [State.step, he, hk, hn, fail] at hs
    | openBrace => simp [State.step, he, hk, fail] at hs
    | colon => simp [State.step, he, hk, fail] at hs
    | string => simp [State.step, he, hk, fail] at hs
  | colon name =>
    have hn := h.colon name he
    cases hk : t.kind with
    | colon =>
      simp only [State.step, he, hk, Except.ok.injEq] at hs
      subst hs
      refine h.expect (fun u hu => by cases hu) (fun u o hu => ?_)
      cases hu
      exact hn
    | openBrace =>
      simp only [State.step, he, hk, Except.ok.injEq] at hs
      subst hs
      exact h.openBlock hn
    | closeBrace => simp [State.step, he, hk, fail] at hs
    | string => simp [State.step, he, hk, fail] at hs
    | word => simp [State.step, he, hk, fail] at hs
  | value name colon =>
    have hn := h.value name colon he
    rw [← toList_word] at hn
    cases hk : t.kind with
    | openBrace =>
      simp only [State.step, he, hk, Except.ok.injEq] at hs
      subst hs
      exact h.openBlock (toList_word name ▸ hn)
    | string =>
      simp only [State.step, he, hk, Except.ok.injEq] at hs
      subst hs
      exact h.add (.string _ hn)
    | word =>
      simp only [State.step, he, hk, Except.ok.injEq] at hs
      subst hs
      exact h.add (.word hn (by simpa [toList_word] using hw hk))
    | closeBrace => simp [State.step, he, hk, fail] at hs
    | colon => simp [State.step, he, hk, fail] at hs

theorem Sound.foldlM {ts : List Token} (hw : ∀ t ∈ ts, t.kind = .word → isBareWord t.text = true)
    {s s' : State} (h : Sound s) (hs : ts.foldlM State.step s = .ok s') : Sound s' := by
  induction ts generalizing s with
  | nil =>
    cases hs
    exact h
  | cons t ts ih =>
    obtain ⟨u, hu, hr⟩ := bind_eq_ok.mp hs
    exact ih (fun v hv => hw v (by simp [hv])) (h.step (hw t (by simp)) hu) hr

theorem sound_start : Sound start :=
  ⟨by simp [start], by simp [start], by simp [start], by simp [start], by simp [start]⟩

end Reader.State

namespace Node

theorem isDescription_of_parse {text : String} {n : Node} (h : Node.parse text = .ok n) :
    IsDescription n := by
  rw [Node.parse] at h
  cases hs : Token.scan .start text.toList with
  | error u =>
    rw [hs] at h
    cases h
  | ok ts =>
    rw [hs] at h
    obtain ⟨s, hf, hd⟩ := bind_eq_ok.mp h
    have hsound := State.sound_start.foldlM (Token.isBareWord_of_scan hs) hf
    cases he : s.expecting with
    | field =>
      cases hb : s.blocks with
      | nil =>
        simp only [State.finish, he, hb, Except.ok.injEq] at hd
        exact ⟨_, hd.symm, fun c hc => hsound.fields c (List.mem_reverse.mp hc)⟩
      | cons b blocks => simp [State.finish, he, hb] at hd
    | colon t => simp [State.finish, he, State.fail] at hd
    | value t o => simp [State.finish, he] at hd

end Node

end NetDesc
