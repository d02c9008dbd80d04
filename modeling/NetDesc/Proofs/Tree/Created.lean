import NetDesc.Proofs.Decimal.WholeNumber
import NetDesc.Proofs.Network.RoundTrip

namespace NetDesc

open Text Literal Decimal

section Characters

variable {c : Char} {cs : List Char} {s : String}

theorem breaksWord_of_isDigit (h : isDigit c = true) : breaksWord c = false := by
  obtain ⟨d, hd⟩ := Option.isSome_iff_exists.mp h
  have hseparator : 0x1c ≤ c.toNat → 0x1f < c.toNat := by
    intro hl
    by_contra hu
    have hnone : digitValue? c = none := by
      unfold digitValue?
      simp only
      rw [if_pos (by omega), if_neg (by simp; omega)]
    cases hd.symm.trans hnone
  have hne (d : Char) (hd : isDigit d = false) : c ≠ d := by
    rintro rfl
    cases h.symm.trans hd
  simpa [breaksWord, isBlank, isSpace_of_digitValue? hd, hne '{' (by decide),
    hne '}' (by decide), hne ':' (by decide), hne '"' (by decide),
    hne '\'' (by decide), hne '#' (by decide)] using hseparator

theorem mem_skipSign (h : c ∈ cs) : c ∈ skipSign cs ∨ breaksWord c = false := by
  unfold skipSign
  split
  · refine (List.mem_cons.mp h).symm.imp_right ?_
    rintro rfl
    decide
  · refine (List.mem_cons.mp h).symm.imp_right ?_
    rintro rfl
    decide
  · exact .inl h

theorem mem_dropWhile (p : Char → Bool) (h : c ∈ cs) : p c = true ∨ c ∈ cs.dropWhile p := by
  rw [← List.takeWhile_append_dropWhile (p := p) (l := cs)] at h
  exact (List.mem_append.mp h).imp_left fun hc => List.mem_takeWhile_imp hc

theorem breaksWord_of_isExponent (h : isExponent cs = true) : ∀ c ∈ cs, breaksWord c = false := by
  cases cs with
  | nil => exact List.forall_mem_nil _
  | cons e cs =>
    simp only [isExponent, Bool.and_eq_true, Bool.or_eq_true, beq_iff_eq, List.all_eq_true] at h
    obtain ⟨⟨he, -⟩, hdigits⟩ := h
    refine List.forall_mem_cons.mpr ⟨by rcases he with rfl | rfl <;> decide, fun c hc => ?_⟩
    exact (mem_skipSign hc).elim (fun hc => breaksWord_of_isDigit (hdigits c hc)) id

theorem isBareWord_of_isNumber (h : isNumber cs = true) : isBareWord cs = true := by
  have hne : cs ≠ [] := by
    rintro rfl
    cases h
  have hall : ∀ c ∈ cs, breaksWord c = false := by
    intro c hc
    rcases mem_skipSign hc with hc | hc
    · rcases mem_dropWhile isDigit hc with hd | hc
      · exact breaksWord_of_isDigit hd
      · unfold isNumber at h
        dsimp only at h
        split at h
        · next rest hrest =>
          rw [hrest] at hc
          rcases List.mem_cons.mp hc with rfl | hc
          · decide
          rcases mem_dropWhile isDigit hc with hd | hc
          · exact breaksWord_of_isDigit hd
          · exact breaksWord_of_isExponent (Bool.and_eq_true_iff.mp h).2 c hc
        · exact breaksWord_of_isExponent (Bool.and_eq_true_iff.mp h).2 c hc
    · exact hc
  simpa [isBareWord, hne] using hall

theorem isBareWord_of_isWord {w : String} (hw : isBareWord w.toList = true)
    (h : isWord w s = true) : isBareWord s.toList = true := by
  have hmap : s.toList.map Char.toLower = w.toList := beq_iff_eq.mp h
  simp only [isBareWord, Bool.and_eq_true, Bool.not_eq_true', List.isEmpty_eq_false_iff,
    List.all_eq_true] at hw ⊢
  refine ⟨fun hnil => hw.1 (by rw [← hmap, hnil]; rfl), fun c hc => ?_⟩
  have hlower := hw.2 _ (hmap ▸ List.mem_map_of_mem (f := Char.toLower) hc)
  by_cases hcap : 'A' ≤ c ∧ c ≤ 'Z'
  · have hname : isNameChar c = true := by
      simp [isNameChar, isNameStart, isAsciiLetter, hcap]
    exact breaksWord_of_isNameChar hname
  · have hsame : c.toLower = c := by
      refine dif_neg ?_
      rintro ⟨hl, hu⟩
      exact hcap ⟨hl, hu⟩
    rwa [hsame] at hlower

end Characters

namespace Node

variable {value : String} {c : Node} {cs : List Node}

def endsLine (s : String) : Bool :=
  s.toList.getLast? == some '\n'

def isBrokenNumber (s : String) : Bool :=
  endsLine s && isNumber s.toList.dropLast

/-- Blocks and values that are made of names and texts; the pattern of a name allows for a line end
after it. -/
inductive IsMade : Node → Prop where
  | scalar {name : String} (value : String) (hn : withLineEnd isName name.toList = true) :
      IsMade (.scalar name value)
  | block {name : String} {children : List Node} (hn : withLineEnd isName name.toList = true)
      (hc : ∀ c ∈ children, IsMade c) : IsMade (.block name children)

mutual

def isUnbroken : Node → Bool
  | ⟨name, value, _, children⟩ =>
    !endsLine name && !value.any isBrokenNumber && isUnbrokenList children

def isUnbrokenList : List Node → Bool
  | [] => true
  | c :: cs => isUnbroken c && isUnbrokenList cs

end

theorem isUnbrokenList_iff : isUnbrokenList cs = true ↔ ∀ c ∈ cs, c.isUnbroken = true := by
  induction cs with
  | nil => simp [isUnbrokenList]
  | cons c cs ih => simp [isUnbrokenList, ih]

theorem not_isBareWord_of_endsLine (h : endsLine value = true) :
    isBareWord value.toList = false := by
  have hmem : '\n' ∈ value.toList := List.mem_of_getLast? (by simpa [endsLine] using h)
  rw [Bool.eq_false_iff]
  intro hword
  have hend := List.all_eq_true.mp (Bool.and_eq_true_iff.mp hword).2 _ hmem
  revert hend
  decide

theorem isName_iff_not_endsLine {name : String} (hn : withLineEnd isName name.toList = true) :
    isName name.toList = true ↔ endsLine name = false := by
  constructor
  · intro h
    have hword := isBareWord_of_isName h
    rw [Bool.eq_false_iff]
    intro he
    cases hword.symm.trans (not_isBareWord_of_endsLine he)
  · intro h
    rcases Bool.or_eq_true_iff.mp hn with hn | hn
    · exact hn
    · cases h.symm.trans (Bool.and_eq_true_iff.mp hn).1

theorem isLiteral_infer_iff : IsLiteral value (.infer value) ↔ isBrokenNumber value = false := by
  by_cases hbool : isWord "true" value = true ∨ isWord "false" value = true
  · have hclass : ValueType.classify value = .bool := by
      rw [ValueType.classify, if_pos (Bool.or_eq_true_iff.mpr hbool)]
    have hword : isBareWord value.toList = true :=
      hbool.elim (isBareWord_of_isWord (by decide)) (isBareWord_of_isWord (by decide))
    have hends : endsLine value = false := by
      rw [Bool.eq_false_iff]
      intro he
      cases hword.symm.trans (not_isBareWord_of_endsLine he)
    refine iff_of_true (.inr ⟨hword, ?_⟩) (by rw [isBrokenNumber, hends]; rfl)
    rw [ValueType.infer, hclass]
  by_cases hnumber : withLineEnd isNumber value.toList = true
  · have hclass : ValueType.classify value = .numeric := by
      rw [ValueType.classify, if_neg (by simpa using hbool), if_pos hnumber]
    have hinfer : ValueType.infer value = .numeric := by rw [ValueType.infer, hclass]
    constructor
    · intro h
      rw [hinfer] at h
      obtain ⟨hword, -⟩ := h.resolve_left (by decide)
      rw [Bool.eq_false_iff]
      intro hb
      cases hword.symm.trans (not_isBareWord_of_endsLine (Bool.and_eq_true_iff.mp hb).1)
    · intro hb
      rcases Bool.or_eq_true_iff.mp hnumber with hn | hn
      · exact .inr ⟨isBareWord_of_isNumber hn, hinfer.trans hclass.symm⟩
      · cases hb.symm.trans hn
  · have hclass : ValueType.classify value = .unknown := by
      rw [ValueType.classify, if_neg (by simpa using hbool), if_neg hnumber]
    refine iff_of_true (.inl (by rw [ValueType.infer, hclass])) ?_
    rw [Bool.eq_false_iff]
    exact fun hb => hnumber (Bool.or_eq_true_iff.mpr (.inr hb))

theorem IsMade.isField_iff (h : IsMade c) : IsField c ↔ c.isUnbroken = true := by
  induction h with
  | @scalar name value hn =>
    have hunbroken : (Node.scalar name value).isUnbroken = true ↔
        endsLine name = false ∧ isBrokenNumber value = false := by
      simp [Node.scalar, leaf, isUnbroken, isUnbrokenList]
    rw [hunbroken, ← isName_iff_not_endsLine hn, ← isLiteral_infer_iff]
    constructor
    · intro hf
      have hname : isName name.toList = true := hf.isName
      exact ⟨hname, (isField_leaf_iff hname).mp hf⟩
    · rintro ⟨hname, hv⟩
      exact hv.isField hname
  | @block name children hn _ ih =>
    have hunbroken : (Node.block name children).isUnbroken = true ↔
        endsLine name = false ∧ ∀ c ∈ children, c.isUnbroken = true := by
      simp [Node.block, isUnbroken, isUnbrokenList_iff]
    rw [hunbroken, ← isName_iff_not_endsLine hn]
    constructor
    · intro hf
      exact ⟨hf.isName, fun c hc => (ih c hc).mp (hf.of_mem hc)⟩
    · rintro ⟨hname, hc⟩
      exact .block hname fun c hmem => (ih c hmem).mpr (hc c hmem)

theorem linesList_isOk (h : ∀ c ∈ cs, ∀ depth, ∃ ls, lines depth c = .ok ls) (depth : Nat) :
    ∃ ls, linesList depth cs = .ok ls := by
  induction cs with
  | nil => exact ⟨[], rfl⟩
  | cons c cs ih =>
    obtain ⟨first, hfirst⟩ := h c (List.mem_cons_self ..) depth
    obtain ⟨others, hothers⟩ := ih fun d hd => h d (List.mem_cons_of_mem _ hd)
    exact ⟨first ++ others, by rw [linesList, hfirst, hothers]; rfl⟩

theorem IsMade.lines_isOk (h : IsMade c) : ∀ depth, ∃ ls, lines depth c = .ok ls := by
  induction h with
  | scalar => exact fun depth => ⟨_, rfl⟩
  | block _ _ ih =>
    intro depth
    obtain ⟨inner, hinner⟩ := linesList_isOk ih (depth + 1)
    exact ⟨_, by rw [Node.block, lines, hinner]; rfl⟩

/-- Trees of values and blocks that were put together are written, and they are read back as they are
unless a name or a number in them ends in a line end. -/
theorem made_roundTrips_iff (h : ∀ c ∈ cs, IsMade c) :
    (∃ text, NetDesc.serialize (.root cs) = .ok text) ∧
      (Network.RoundTrips (.root cs) ↔ ∀ c ∈ cs, c.isUnbroken = true) := by
  constructor
  · obtain ⟨ls, hls⟩ := linesList_isOk (fun c hc => (h c hc).lines_isOk) 0
    exact ⟨ofLines ls, by rw [NetDesc.serialize, serialize_root, hls]; rfl⟩
  · rw [Network.roundTrips_iff_isDescription]
    constructor
    · intro hd c hc
      exact (h c hc).isField_iff.mp (hd.isField hc)
    · intro hc
      exact ⟨cs, rfl, fun c hmem => (h c hmem).isField_iff.mpr (hc c hmem)⟩

theorem made_roundTrips_blanks : (∃ text, NetDesc.serialize (.root [.block "solver"
      [.scalar "a" " true ", .scalar "b" "", .scalar "c" "x\n5", .scalar "d" "٣"]]) = .ok text) ∧
    Network.RoundTrips (.root [.block "solver"
      [.scalar "a" " true ", .scalar "b" "", .scalar "c" "x\n5", .scalar "d" "٣"]]) := by
  have hmade : ∀ c ∈ [Node.block "solver"
      [.scalar "a" " true ", .scalar "b" "", .scalar "c" "x\n5", .scalar "d" "٣"]], IsMade c := by
    simp only [List.forall_mem_singleton]
    refine .block (by decide) ?_
    simp only [List.forall_mem_cons]
    exact ⟨.scalar _ (by decide), .scalar _ (by decide), .scalar _ (by decide),
      .scalar _ (by decide), List.forall_mem_nil _⟩
  obtain ⟨hwritten, hread⟩ := made_roundTrips_iff hmade
  exact ⟨hwritten, hread.mpr (by decide)⟩

theorem exists_brokenNumber : ∃ name value : String, isName name.toList = true ∧
    NetDesc.serialize (.root [.scalar name value]) = .ok "n: 5\n\n" ∧
    NetDesc.parse "n: 5\n\n" = .ok (.root [.scalar name "5"]) ∧
    ¬Network.RoundTrips (.root [.scalar name value]) := by
  refine ⟨"n", "5\n", by decide, by decide +kernel, by decide +kernel, ?_⟩
  rw [Network.roundTrips_iff_isDescription]
  intro h
  have hfield : IsField (.leaf "n" "5\n" (.infer "5\n")) := h.isField (List.mem_singleton_self _)
  revert hfield
  rw [isField_leaf_iff (by decide), isLiteral_infer_iff]
  decide

end Node

end NetDesc
