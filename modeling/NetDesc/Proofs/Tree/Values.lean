import NetDesc.Proofs.Decimal.Sign
import NetDesc.Proofs.Record.Tree
import NetDesc.Proofs.Tree.Description

namespace NetDesc

open Literal Decimal

section Numbers

variable {cs : List Char}

theorem skipSign_signedText {c : Char} (h : c.isDigit = true) (negative : Bool) :
    skipSign (signedText negative (c :: cs)) = c :: cs := by
  have hc := isDigit_toNat h
  cases negative with
  | true => rfl
  | false =>
    rw [signedText, if_neg Bool.false_ne_true, skipSign]
    all_goals
      rintro rest he
      obtain rfl := (List.cons.inj he).1
      exact absurd hc.1 (by decide)

theorem digits_of_isDigit (h : ∀ d ∈ cs, d.isDigit = true) : ∀ d ∈ cs, Text.isDigit d = true :=
  fun d hd => isDigit_of_ascii (h d hd)

theorem isExponent_exponentText {s : Spelling} (hs : s.Regular) :
    isExponent (Spelling.exponentText s.exponent) = true := by
  cases he : s.exponent with
  | none => rfl
  | some e =>
    obtain ⟨negative, ds⟩ := e
    have hdigits := digits_of_isDigit (hs.exponent _ he)
    have hne : ds ≠ [] := hs.ends _ he
    have hskip : skipSign ((if negative then '-' else '+') :: ds) = ds := by
      cases negative <;> rfl
    simp only [Spelling.exponentText, isExponent, hskip]
    simpa [hne] using hdigits

theorem isNumber_signedText {s : Spelling} (hs : s.Regular) (negative : Bool) :
    isNumber (signedText negative s.text) = true := by
  obtain ⟨c, cs, hwhole⟩ := List.exists_cons_of_ne_nil hs.starts
  have hskip : skipSign (signedText negative s.text) = s.text := by
    rw [Spelling.text, hwhole]
    exact skipSign_signedText (hs.whole c (by simp [hwhole])) negative
  have hexponent := isExponent_exponentText hs
  have hend : ∀ d ∈ (Spelling.exponentText s.exponent).head?, Text.isDigit d = false := by
    intro d hd
    rw [Spelling.head_exponentText _ d hd]
    decide
  have hmid : ∀ d ∈ (Spelling.fractionText s.fraction ++ Spelling.exponentText s.exponent).head?,
      Text.isDigit d = false := by
    cases hf : s.fraction with
    | none => exact hend
    | some ds =>
      rintro d ⟨⟩
      decide
  obtain ⟨htake, hdrop⟩ := Text.takeWhile_append_stop (digits_of_isDigit hs.whole) hmid
  rw [hwhole] at htake hdrop
  rw [isNumber, hskip, Spelling.text, hwhole]
  simp only [htake, hdrop]
  cases hf : s.fraction with
  | none =>
    have hhead := Spelling.head_exponentText s.exponent
    simp only [Spelling.fractionText, List.nil_append]
    generalize Spelling.exponentText s.exponent = ending at hexponent hhead ⊢
    cases ending with
    | nil => rfl
    | cons e rest =>
      obtain rfl := hhead e rfl
      exact hexponent
  | some ds =>
    obtain ⟨-, hrest⟩ := Text.takeWhile_append_stop (digits_of_isDigit (hs.fraction ds hf)) hend
    simp only [Spelling.fractionText, List.cons_append, hrest, hexponent]
    rfl

theorem isWord_signedText {c w : Char} (h : c.isDigit = true) (hw : w ≠ '-' ∧ w.isDigit = false)
    (ws : List Char) (negative : Bool) :
    Text.isWord (String.ofList (w :: ws)) (String.ofList (signedText negative (c :: cs))) = false := by
  obtain ⟨d, hd⟩ := Option.isSome_iff_exists.mp (isDigit_of_ascii h)
  rw [Text.isWord, String.toList_ofList, String.toList_ofList]
  apply beq_false_of_ne
  intro he
  cases negative with
  | true => exact hw.1 (List.cons.inj he).1.symm
  | false =>
    have hc : c.toLower = w := (List.cons.inj he).1
    rw [toLower_of_digitValue? hd] at hc
    rw [hc, hw.2] at h
    cases h

theorem classify_signedText {s : Spelling} (hs : s.Regular) (negative : Bool) :
    ValueType.classify (String.ofList (signedText negative s.text)) = .numeric := by
  obtain ⟨c, cs, hwhole⟩ := List.exists_cons_of_ne_nil hs.starts
  have hc := hs.whole c (by simp [hwhole])
  have hnumber := isNumber_signedText hs negative
  obtain ⟨rest, hrest⟩ : ∃ rest, s.text = c :: rest := ⟨_, by rw [Spelling.text, hwhole]; rfl⟩
  rw [hrest] at hnumber ⊢
  have htrue : Text.isWord "true" (String.ofList (signedText negative (c :: rest))) = false :=
    isWord_signedText hc (by decide : 't' ≠ '-' ∧ _) ['r', 'u', 'e'] negative
  have hfalse : Text.isWord "false" (String.ofList (signedText negative (c :: rest))) = false :=
    isWord_signedText hc (by decide : 'f' ≠ '-' ∧ _) ['a', 'l', 's', 'e'] negative
  rw [ValueType.classify, htrue, hfalse, withLineEnd, String.toList_ofList, hnumber]
  rfl

theorem classify_toString (n : Int) : ValueType.classify (toString n) = .numeric := by
  rw [toString_eq, ← Spelling.text_integer]
  exact classify_signedText (Spelling.regular_integer _) _

theorem classify_member {ch : Choice} : ∀ w ∈ ch.members, ValueType.classify w = .unknown := by
  cases ch <;> decide

end Numbers

namespace Node

variable {n c child : Node} {cs : List Node} {name value : String} {t : ValueType} {f : Node → Node}

@[simp]
theorem isBlock_setValue {t : Option ValueType} : (n.setValue name value t).isBlock = n.isBlock := by
  unfold setValue
  split <;> rfl

def IsLiteral (value : String) (t : ValueType) : Prop :=
  t = .string ∨ (isBareWord value.toList = true ∧ t = .classify value)

theorem isLiteral_string (value : String) : IsLiteral value .string := .inl rfl

theorem isLiteral_int (n : Int) : IsLiteral (toString n) .numeric :=
  .inr ⟨isBareWord_toString n, (classify_toString n).symm⟩

theorem isLiteral_nat (n : Nat) : IsLiteral (toString n) .numeric :=
  isLiteral_int n

theorem isLiteral_word {ch : Choice} (w : ch.Word) : IsLiteral w.text .unknown :=
  .inr ⟨isBareWord_member w.text w.isMember, (classify_member w.text w.isMember).symm⟩

theorem IsLiteral.isField (h : IsLiteral value t) (hn : isName name.toList = true) :
    IsField (leaf name value t) := by
  rcases h with rfl | ⟨hv, rfl⟩
  · exact .string value hn
  · exact .word hn hv

theorem isField_leaf_iff (hn : Literal.isName name.toList = true) :
    IsField (leaf name value t) ↔ IsLiteral value t := by
  constructor
  · intro h
    cases h with
    | string => exact .inl rfl
    | word _ hv => exact .inr ⟨hv, rfl⟩
  · intro h
    exact h.isField hn

namespace IsField

theorem isName (h : IsField n) : isName n.name.toList = true := by
  cases h <;> assumption

theorem of_mem (h : IsField n) (hc : c ∈ n.children) : IsField c := by
  cases h with
  | block _ hcs => exact hcs c hc
  | string => cases hc
  | word => cases hc

theorem isBlock_of_mem (h : IsField n) (hc : c ∈ n.children) : n.isBlock = true := by
  cases h with
  | block => rfl
  | string => cases hc
  | word => cases hc

theorem withChildren (h : IsField n) (hb : n.isBlock = true) (hcs : ∀ c ∈ cs, IsField c) :
    IsField { n with children := cs } := by
  cases h with
  | block hn _ => exact .block hn hcs
  | string => cases hb
  | word => cases hb

theorem withValue (h : IsField n) (hb : n.isBlock = false) (hv : IsLiteral value t) :
    IsField (n.withValue value t) := by
  cases h with
  | block => cases hb
  | string _ hn => exact hv.isField hn
  | word hn _ => exact hv.isField hn

theorem append (h : IsField n) (hb : n.isBlock = true) (hc : IsField child) :
    IsField (n.append child) := by
  apply h.withChildren hb
  intro c hmem
  rcases List.mem_append.mp hmem with hmem | hmem
  · exact h.of_mem hmem
  · rwa [List.mem_singleton.mp hmem]

theorem insert (h : IsField n) (hb : n.isBlock = true) (hc : IsField child) (i : Int) :
    IsField (n.insert i child) := by
  apply h.withChildren hb
  intro c hmem
  rcases mem_insertAt.mp hmem with rfl | hmem
  · exact hc
  · exact h.of_mem hmem

theorem modifyChild (h : IsField n)
    (hf : ∀ c, n.findChild name = some c → IsField (f c)) : IsField (n.modifyChild name f) := by
  have hmem : ∀ d ∈ (n.modifyChild name f).children, IsField d := by
    intro d hd
    rcases mem_modifyFirst hd with hd | ⟨e, he, rfl⟩
    · exact h.of_mem hd
    · exact hf e he
  cases h with
  | block hn _ => exact .block hn hmem
  | string value hn => exact .string value hn
  | word hn hv => exact .word hn hv

theorem setValue (h : IsField n) (hb : n.isBlock = true) (hn : Literal.isName name.toList = true)
    (hv : IsLiteral value t) (hs : ∀ c, n.findChild name = some c → c.isBlock = false) :
    IsField (n.setValue name value (some t)) := by
  unfold Node.setValue
  split
  · apply h.modifyChild
    intro c hc
    exact (h.of_mem (List.mem_of_find?_eq_some hc)).withValue (hs c hc) hv
  · exact h.append hb (hv.isField hn)

end IsField

theorem IsDescription.isField (h : IsDescription n) (hc : c ∈ n.children) : IsField c := by
  obtain ⟨cs, rfl, hcs⟩ := h
  exact hcs c hc

theorem IsDescription.insert (h : IsDescription n) (hc : IsField child) (i : Int) :
    IsDescription (n.insert i child) := by
  obtain ⟨cs, rfl, hcs⟩ := h
  refine ⟨_, rfl, fun c hmem => ?_⟩
  rcases mem_insertAt.mp hmem with rfl | hmem
  · exact hc
  · exact hcs c hmem

theorem IsDescription.modifyChild_iff (h : IsDescription n) (hf : ∀ c, (f c).name = c.name) :
    IsDescription (n.modifyChild name f) ↔ ∀ c ∈ n.findChild name, IsField (f c) := by
  constructor
  · intro hm c hc
    have hfound : (n.modifyChild name f).findChild name = some (f c) := by
      rw [findChild_modifyChild hf, hc]
      rfl
    exact hm.isField (List.mem_of_find?_eq_some hfound)
  · intro hc
    obtain ⟨cs, rfl, hcs⟩ := h
    refine ⟨_, rfl, fun c hmem => ?_⟩
    rcases mem_modifyFirst hmem with hmem | ⟨d, hd, rfl⟩
    · exact hcs c hmem
    · exact hc d hd

end Node

end NetDesc
