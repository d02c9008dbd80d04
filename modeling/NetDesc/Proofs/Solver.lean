import NetDesc.Proofs.Tree.Created
import NetDesc.Solver

/-!
A value that is set in a tree, and a variable that is set in a solver: what stays as it was, and
whether the tree is still read back from its text. The child that is overwritten keeps its kind, so
the new text has to be of this kind.
-/

namespace NetDesc

open Literal Decimal

def wordKind? (text : String) : Option ValueType :=
  if isBareWord text.toList then some (.classify text) else none

def Json.wordKind? : Json → Option ValueType
  | .bool _ => some .bool
  | .int _ => some .numeric
  | .float x => some (if x.isFinite then .numeric else .unknown)
  | .text s => NetDesc.wordKind? s
  | _ => none

def Json.isLineScalar : Json → Bool
  | .bool _ | .int _ | .float _ => true
  | .text s => !s.toList.contains '\n'
  | _ => false

section Texts

variable {x : Double} {text : String} {value : Json}

theorem wordKind?_of_isBareWord (h : isBareWord text.toList = true) :
    wordKind? text = some (.classify text) :=
  if_pos h

theorem wordKind?_toString (n : Int) : wordKind? (toString n) = some .numeric := by
  rw [wordKind?_of_isBareWord (isBareWord_toString n), classify_toString]

theorem wordKind?_infinite (l : Layout) (hl : l.nan = "nan" ∧ l.infinity = "inf")
    (hx : x.isFinite = false) : wordKind? (l.render x) = some .unknown := by
  cases hn : x.isNaN with
  | true =>
    rw [Layout.render, if_pos hn, hl.1]
    decide
  | false =>
    rw [render_infinite l hn hx, hl.2]
    cases x.negative <;> decide

theorem wordKind?_render (x : Double) :
    wordKind? (Layout.plain.render x) = some (if x.isFinite then .numeric else .unknown) := by
  cases hx : x.isFinite with
  | false => exact wordKind?_infinite _ ⟨rfl, rfl⟩ hx
  | true =>
    have hnan : x.isNaN = false := by
      rw [Double.isFinite, decide_eq_true_eq] at hx
      rw [Double.isNaN, decide_eq_false_iff_not]
      exact Nat.not_lt_of_gt hx
    have hs := Layout.plain.regular_spelled x
    have hword := isBareWord_of_isNumber (isNumber_signedText hs x.negative)
    rw [render_finite _ hnan hx, wordKind?_of_isBareWord (by rwa [String.toList_ofList]),
      classify_signedText hs]
    rfl

theorem wordKind?_format (x : Double) :
    wordKind? (format x) = some (if x.isFinite then .numeric else .unknown) := by
  unfold format
  split
  · next hw =>
    rw [wordKind?_toString, (Bool.and_eq_true_iff.mp hw).1]
    rfl
  · exact wordKind?_render x

theorem wordKind?_scalarText (h : value.isLineScalar = true) :
    wordKind? value.scalarText = value.wordKind? := by
  cases value with
  | bool b => cases b <;> decide
  | int n => exact wordKind?_toString n
  | float x => exact wordKind?_render x
  | text s => rfl
  | _ => cases h

end Texts

namespace Node

variable {n m c : Node} {name text : String} {value : Json} {t : ValueType}

theorem isLiteral_iff : IsLiteral text t ↔ t = .string ∨ wordKind? text = some t := by
  refine or_congr_right ?_
  unfold wordKind?
  split
  · next h => simp [h, eq_comm]
  · next h => simp [h]

theorem endsLine_of_wordKind? (h : wordKind? text = some t) : endsLine text = false := by
  unfold wordKind? at h
  split at h
  · next hword =>
    rw [Bool.eq_false_iff]
    intro he
    cases hword.symm.trans (not_isBareWord_of_endsLine he)
  · cases h

theorem endsLine_scalarText (h : value.isLineScalar = true) : endsLine value.scalarText = false := by
  have hkind := wordKind?_scalarText h
  cases value with
  | bool | int | float => exact endsLine_of_wordKind? hkind
  | text s =>
    have hline : '\n' ∉ s.toList := by simpa [Json.isLineScalar] using h
    rw [Bool.eq_false_iff]
    intro (he : endsLine s = true)
    exact hline (List.mem_of_getLast? (by simpa [endsLine] using he))
  | _ => cases h

/-- The first child of the name has the text as its value, or there was none and one is added at the
end. Nothing else is another. -/
inductive IsSet (n : Node) (name text : String) : Node → Prop
  | overwritten {before after : List Node} {c : Node} (hn : n.children = before ++ c :: after)
      (hbefore : ∀ d ∈ before, d.name ≠ name) (hc : c.name = name) :
      IsSet n name text { n with children := before ++ c.withValue text c.valueType :: after }
  | added (h : ∀ c ∈ n.children, c.name ≠ name) : IsSet n name text (n.append (.scalar name text))

theorem isSet_setValue (n : Node) (name text : String) :
    IsSet n name text (n.setValue name text none) := by
  unfold setValue
  split
  · next h =>
    obtain ⟨c, hc⟩ := Option.isSome_iff_exists.mp h
    obtain ⟨hname, before, after, hn, hbefore⟩ := List.find?_eq_some_iff_append.mp hc
    have hne : ∀ d ∈ before, (d.name == name) = false := fun d hd => by simpa using hbefore d hd
    rw [modifyChild, hn, modifyFirst_append (p := fun d : Node => d.name == name) hname hne]
    exact .overwritten hn (fun d hd => beq_eq_false_iff_ne.mp (hne d hd)) (name_of_findChild hc)
  · next h =>
    rw [Bool.not_eq_true, Option.isSome_eq_false_iff, Option.isNone_iff_eq_none] at h
    exact .added fun c hc => by simpa using List.find?_eq_none.mp h c hc

theorem IsDescription.append_iff (h : IsDescription n) :
    IsDescription (n.append c) ↔ IsField c := by
  constructor
  · intro ha
    exact ha.isField (List.mem_append_right _ (List.mem_singleton_self c))
  · intro hc
    obtain ⟨cs, rfl, hcs⟩ := h
    refine ⟨_, rfl, fun d hd => ?_⟩
    rcases List.mem_append.mp hd with hd | hd
    · exact hcs d hd
    · rwa [List.mem_singleton.mp hd]

theorem IsField.withValue_iff (h : IsField c) (hb : c.isBlock = false) :
    IsField (c.withValue text t) ↔ IsLiteral text t := by
  cases h with
  | block => cases hb
  | string _ hn => exact isField_leaf_iff hn
  | word hn _ => exact isField_leaf_iff hn

theorem roundTrips_setValue_iff (h : IsDescription n) (hn : withLineEnd isName name.toList = true)
    (hs : ∀ c, n.findChild name = some c → c.isBlock = false) (ht : endsLine text = false) :
    Network.RoundTrips (n.setValue name text none) ↔ endsLine name = false ∧
      ∀ c, n.findChild name = some c → c.valueType = .string ∨ wordKind? text = some c.valueType := by
  rw [Network.roundTrips_iff_isDescription, setValue]
  cases hc : n.findChild name with
  | some c =>
    have hfield := h.isField (List.mem_of_find?_eq_some hc)
    have hname : endsLine name = false := by
      rw [← isName_iff_not_endsLine hn, ← name_of_findChild hc]
      exact hfield.isName
    rw [if_pos (by rfl)]
    refine (h.modifyChild_iff (f := fun c => c.withValue text c.valueType) fun _ => rfl).trans ?_
    rw [hc]
    simp [hname, hfield.withValue_iff (hs c hc), isLiteral_iff]
  | none =>
    have hmade : IsMade (.scalar name text) := .scalar text hn
    have hunbroken : (Node.scalar name text).isUnbroken = true ↔ endsLine name = false := by
      simp [Node.scalar, leaf, isUnbroken, isUnbrokenList, isBrokenNumber, ht]
    rw [if_neg (by simp), h.append_iff, ← hunbroken]
    exact hmade.isField_iff.trans (by simp)

structure SetsValue (n : Node) (name text : String) (value : Json) (m : Node) : Prop where
  found : m.findValue name = some text
  others : IsSet n name text m
  roundTrips : Network.RoundTrips m ↔ endsLine name = false ∧
    ∀ c, n.findChild name = some c → c.valueType = .string ∨ value.wordKind? = some c.valueType

theorem setsValue_setValue (h : IsDescription n) (hn : withLineEnd isName name.toList = true)
    (hs : ∀ c, n.findChild name = some c → c.isBlock = false) (ht : endsLine text = false)
    (hk : wordKind? text = value.wordKind?) :
    SetsValue n name text value (n.setValue name text none) where
  found := findValue_setValue n name text none
  others := isSet_setValue n name text
  roundTrips := hk ▸ roundTrips_setValue_iff h hn hs ht

end Node

open Node

/-- A number, a truth value or a text of one line is set in a description, and as a variable of a
solver: it is found in its text, and all other children stay. The tree is read back as it is if the
name was new, the value before was quoted, or the new one is a word of the same kind. Only a whole
number with too many digits cannot be set. -/
theorem set_roundTrips_iff {source name : String} {n : Node} {value : Json}
    (h : parse source = .ok n) (hn : withLineEnd isName name.toList = true)
    (hs : ∀ c, n.findChild name = some c → c.isBlock = false) (hv : value.isLineScalar = true) :
    (value.isWritable = true →
      (∃ m, n.assign name value none = .ok m ∧ SetsValue n name value.scalarText value m) ∧
      ∃ text m, Solver.variableText value = .ok text ∧ Solver.setVariable n name value = .ok m ∧
        SetsValue n name text value m) ∧
    (value.isWritable = false →
      n.assign name value none = .error (.badLiteral .unwritten) ∧
        Solver.setVariable n name value = .error (.badLiteral .unwritten)) := by
  have hd := isDescription_of_text h
  have hplain := setsValue_setValue hd hn hs (endsLine_scalarText hv) (wordKind?_scalarText hv)
  constructor
  · intro hw
    have hleaf : leafText value = .ok value.scalarText := if_pos hw
    constructor
    · exact ⟨_, by rw [assign, hleaf]; rfl, hplain⟩
    · by_cases hx : ∃ x, value = .float x
      · obtain ⟨x, rfl⟩ := hx
        have hkind := wordKind?_format x
        exact ⟨format x, _, rfl, rfl,
          setsValue_setValue hd hn hs (endsLine_of_wordKind? hkind) hkind⟩
      · have htext : Solver.variableText value = .ok value.scalarText := by
          unfold Solver.variableText
          split
          · exact absurd ⟨_, rfl⟩ hx
          · exact hleaf
        exact ⟨_, _, htext, by rw [Solver.setVariable, htext]; rfl, hplain⟩
  · intro hw
    have hleaf : leafText value = .error (.badLiteral .unwritten) := if_neg (by simp [hw])
    have htext : Solver.variableText value = .error (.badLiteral .unwritten) := by
      unfold Solver.variableText
      split
      · cases hw
      · exact hleaf
    rw [assign, Solver.setVariable, hleaf, htext]
    exact ⟨rfl, rfl⟩

theorem set_roundTrips_rate : ∃ n, parse "base_lr: 0.01\ntype: \"Adam\"" = .ok n ∧
    (∃ m, n.assign "type" (.bool true) none = .ok m ∧ m.findValue "type" = some "true" ∧
      Network.RoundTrips m) ∧
    ∃ m, Solver.setVariable n "base_lr" (.float 0.5) = .ok m ∧ Network.RoundTrips m := by
  obtain ⟨n, hn, hd⟩ : ∃ n, parse "base_lr: 0.01\ntype: \"Adam\"" = .ok n ∧
      decide (n.findChild "type" = some (.leaf "type" "Adam" .string) ∧
        n.findChild "base_lr" = some (.leaf "base_lr" "0.01" .numeric)) = true :=
    exists_ok (by decide +kernel)
  obtain ⟨htype, hrate⟩ := of_decide_eq_true hd
  refine ⟨n, hn, ?_, ?_⟩
  · have hname : withLineEnd isName "type".toList = true := by decide
    have hline : (Json.bool true).isLineScalar = true := rfl
    obtain ⟨⟨m, hm, hset⟩, -⟩ :=
      (set_roundTrips_iff hn hname (by simp [htype, leaf, isBlock]) hline).1 rfl
    exact ⟨m, hm, hset.found, hset.roundTrips.mpr (by simp [htype, leaf]; decide)⟩
  · have hname : withLineEnd isName "base_lr".toList = true := by decide
    have hline : (Json.float 0.5).isLineScalar = true := rfl
    obtain ⟨-, text, m, -, hm, hset⟩ :=
      (set_roundTrips_iff hn hname (by simp [hrate, leaf, isBlock]) hline).1 rfl
    refine ⟨m, hm, hset.roundTrips.mpr ?_⟩
    simp [hrate, leaf]
    decide +kernel

theorem exists_set_misnamed : ∃ n m, parse "gamma: 1" = .ok n ∧
    n.findChild "gamma" = some (.leaf "gamma" "1" .numeric) ∧
    n.assign "gamma" (.text "fast") none = .ok m ∧
    Solver.setVariable n "gamma" (.text "fast") = .ok m ∧ ¬Network.RoundTrips m := by
  obtain ⟨n, hn, hd⟩ : ∃ n, parse "gamma: 1" = .ok n ∧
      decide (n.findChild "gamma" = some (.leaf "gamma" "1" .numeric)) = true :=
    exists_ok (by decide +kernel)
  have hgamma := of_decide_eq_true hd
  refine ⟨n, n.setValue "gamma" "fast" none, hn, hgamma, rfl, rfl, ?_⟩
  rw [roundTrips_setValue_iff (isDescription_of_text hn) (by decide)
    (by simp [hgamma, leaf, isBlock]) (by decide)]
  rintro ⟨-, h⟩
  have hkind := h _ hgamma
  revert hkind
  decide

end NetDesc
