import NetDesc.Proofs.Record.Reread
import NetDesc.Proofs.Tree.Edit
import NetDesc.Proofs.Tree.Written
import NetDesc.Record.Tree

namespace NetDesc

open Decimal Literal

/-- A block loses the sign of a zero and the bits of a NaN, and an empty list leaves no mark in it. -/
def Rereading.tree : Rereading := ⟨Double.canonical, false⟩

theorem Rereading.keeps_tree : Rereading.tree.Keeps Json.isWritten := by
  intro x hx
  rw [Json.isWritten, Bool.not_eq_true'] at hx
  change x.sameNumber x.canonical = true
  rw [Double.canonical_of_isNaN hx]
  exact Double.sameNumber_unsignedZero hx

section Words

theorem isBareWord_of_plain {cs : List Char} (h : IsPlain cs) (hne : cs ≠ []) :
    isBareWord cs = true := by
  rw [isBareWord, Bool.and_eq_true, Bool.not_eq_true', List.isEmpty_eq_false_iff, List.all_eq_true]
  refine ⟨hne, fun c hc => ?_⟩
  have hp := h c hc
  rw [Bool.not_eq_true', Bool.eq_false_iff]
  simp only [breaksWord, Text.isBlank, Text.isSpace, Bool.or_eq_true, Bool.and_eq_true, ne_eq,
    decide_eq_true_eq, beq_iff_eq, Text.eq_iff_toNat, Char.reduceToNat]
  omega

theorem signedText_ne_nil {negative : Bool} {cs : List Char} (h : cs ≠ []) :
    signedText negative cs ≠ [] := by
  cases negative with
  | false => exact h
  | true => exact List.cons_ne_nil _ _

theorem isBareWord_format (x : Double) : isBareWord (format x).toList = true := by
  cases hx : x.isNaN with
  | true =>
    rw [format_of_isNaN hx]
    decide
  | false =>
    obtain ⟨negative, cs, hs⟩ := format_spelledAs hx
    rw [hs.text, String.toList_ofList]
    apply isBareWord_of_plain (isPlain_signedText negative hs.plain)
    apply signedText_ne_nil
    rintro rfl
    have hv := hs.value
    have hn : readUnsigned? negative [] = none := by
      cases negative <;> rfl
    rw [hn] at hv
    cases hv

theorem isBareWord_toString (n : Int) : isBareWord (toString n).toList = true := by
  rw [toList_toString]
  have hp := isPlain_of_isDigit (isDigit_toDigits n.natAbs)
  apply isBareWord_of_plain (isPlain_signedText _ hp)
  apply signedText_ne_nil
  intro he
  have hl := skipZeros_toDigits n.natAbs
  rw [he] at hl
  cases hl

theorem isBareWord_member {c : Choice} : ∀ w ∈ c.members, isBareWord w.toList = true := by
  cases c <;> decide

end Words

namespace Bound

theorem checkFloat_unsignedZero {b : Bound} {x : Double} (h : (b.checkFloat x).isOk = true) :
    b.checkFloat x.unsignedZero = .ok x.unsignedZero := by
  unfold Double.unsignedZero
  split
  · have hone : Double.le .zero 1.0 = true := by decide +kernel
    have hzero : Double.le .zero .zero = true := by decide
    cases b with
    | ratio => simp only [checkFloat, hone, hzero, Bool.not_true, Bool.false_eq_true, if_false]
    | _ => rfl
  · exact checkFloat_of_isOk h

theorem checkFloat_canonical {b : Bound} {x : Double} (h : (b.checkFloat x).isOk = true) :
    b.checkFloat x.canonical = .ok x.canonical := by
  cases hx : x.isNaN with
  | false =>
    rw [Double.canonical_of_isNaN hx]
    exact checkFloat_unsignedZero h
  | true =>
    cases b with
    | ratio =>
      -- A NaN is not at most one.
      simp only [checkFloat, Double.le, hx, Bool.not_true, Bool.false_and, Bool.not_false, if_true] at h
      cases h
    | _ => rfl

end Bound

namespace Record

theorem intOfText_eq (n : Int) : intOfText (toString n) = Check.intText (toString n) := by
  unfold intOfText
  split
  · rw [isPlainInt_toString, Bool.not_true, Bool.and_false, if_neg (by decide)]
  · rfl

theorem intOfText_toString {n : Int} (h : isTooLong n.natAbs = false) :
    intOfText (toString n) = .ok n := by
  rw [intOfText_eq, Check.intText, readFieldInt_toString, h]
  rfl

theorem valueOfText_tooLong {n : Int} (h : isTooLong n.natAbs = true) (b : Bound) :
    valueOfText (.int b) (toString n) = .error .integerSize := by
  rw [valueOfText, intOfText_eq, Check.intText, readFieldInt_toString, h]
  rfl

end Record

namespace Value

open Record

theorem toNodes_leaf (name : String) {s : Shape} {v : Value} (h : fits Json.isSpelled s v = true)
    (hs : ∀ c, s ≠ .record c) :
    ∃ text kind, toNodes name s v = [.leaf name text kind] ∧
      valueOfText s text = .ok (reread .tree v) ∧
      (kind = .string ∨ isBareWord text.toList = true) := by
  cases v with
  | plain j =>
    rw [fits, Bool.and_eq_true] at h
    obtain ⟨ht, hw⟩ := h
    rcases Shape.takes_cases ht with ⟨b, n, rfl, rfl⟩ | ⟨b, x, rfl, rfl⟩ | ⟨b, rfl, rfl⟩ | ⟨t, rfl, rfl⟩
    · refine ⟨toString n, .numeric, rfl, ?_, .inr (isBareWord_toString n)⟩
      have hn := Bound.checkInt_of_isOk ht
      rw [Json.isSpelled, Bool.not_eq_true'] at hw
      simp only [valueOfText, intOfText_toString hw, ok_bind, hn]
      rfl
    · refine ⟨format x, .numeric, rfl, ?_, .inr (isBareWord_format x)⟩
      have hx := Bound.checkFloat_canonical ht
      simp only [valueOfText, Shape.check, Check.float, Check.floatText, readFieldDouble?_format,
        ok_bind, hx]
      rfl
    · refine ⟨(Json.bool b).scalarText, .bool, rfl, ?_, ?_⟩
      · cases b <;> rfl
      · cases b <;> exact .inr (by decide)
    · exact ⟨t, .string, rfl, rfl, .inl rfl⟩
  | choice w =>
    cases s with
    | choice c =>
      have hw : c.members.contains w = true := h
      refine ⟨w, .unknown, rfl, ?_, .inr (isBareWord_member w (List.contains_iff_mem.mp hw))⟩
      simp only [valueOfText, Shape.check, Check.member, hw]
      rfl
    | _ => cases h
  | list vs => cases h
  | record c es =>
    obtain ⟨rfl, -⟩ := fits_record h
    exact absurd rfl (hs c)

theorem itemsOfTexts_toNodesList (name : String) {s : Shape} (hs : ∀ c, s ≠ .record c)
    {vs : List Value} (h : fitsList Json.isSpelled s vs = true) (i : Nat) :
    itemsOfTexts s i ((toNodesList name s vs).filterMap (·.value)) = .ok (rereadList .tree vs) := by
  induction vs generalizing i with
  | nil => rfl
  | cons v vs ih =>
    rw [fitsList, Bool.and_eq_true] at h
    obtain ⟨text, kind, hv, hread, -⟩ := toNodes_leaf name h.1 hs
    rw [toNodesList, hv, List.cons_append, List.nil_append, List.filterMap_cons]
    simp only [Node.leaf]
    rw [itemsOfTexts, hread, ih h.2]
    rfl

def shown (f : FieldSpec) (given : Bool) (v : Value) : List Node :=
  if f.emits given v then toNodes f.name f.shape v else []

def readEntry (m : Rereading) (f : FieldSpec) (given : Bool) (v : Value) :
    List (String × Checked Value) :=
  if shows m f given v then [(f.name, .ok (reread m v))] else []

theorem isEmptyList_of_fits {test : Json → Bool} {s : Shape} {v : Value} (h : fits test s v = true) :
    v.isEmptyList = false := by
  cases v with
  | list vs => cases h
  | _ => rfl

theorem checkTexts_nil (f : FieldSpec) : checkTexts f [] = [] := by
  unfold checkTexts
  cases f.occurrence <;> rfl

theorem checkTexts_of_repeated {f : FieldSpec} (ho : f.occurrence = .repeated) (t : String)
    (ts : List String) :
    checkTexts f (t :: ts) = [(f.name, (itemsOfTexts f.shape 0 (t :: ts)).map .list)] := by
  unfold checkTexts
  rw [ho]

theorem checkTexts_of_single {f : FieldSpec} (ho : f.occurrence ≠ .repeated) (t : String)
    (ts : List String) :
    checkTexts f (t :: ts) = [(f.name, oneFault (valueOfText f.shape t))] := by
  unfold checkTexts
  cases hf : f.occurrence with
  | repeated => exact absurd hf ho
  | _ => rfl

theorem checkTexts_shown {f : FieldSpec} {given : Bool} {v : Value} (hs : ∀ c, f.shape ≠ .record c)
    (h : fitsField Json.isSpelled f v = true) :
    checkTexts f ((shown f given v).filterMap (·.value)) = readEntry .tree f given v := by
  unfold shown readEntry shows
  by_cases he : f.emits given v = true
  · rw [if_pos he, he, Bool.true_and]
    rcases fitsField_cases h with ⟨-, rfl⟩ | ⟨ho, vs, rfl, hvs⟩ | ⟨ho, hv⟩
    · cases he
    · cases vs with
      | nil => exact checkTexts_nil f
      | cons v vs =>
        have hread := itemsOfTexts_toNodesList f.name hs hvs 0
        rw [fitsList, Bool.and_eq_true] at hvs
        obtain ⟨text, kind, hl, -⟩ := toNodes_leaf f.name hvs.1 hs
        rw [toNodesList, hl, List.cons_append, List.nil_append, List.filterMap_cons] at hread
        rw [toNodes, toNodesList, hl, List.cons_append, List.nil_append, List.filterMap_cons]
        simp only [Node.leaf] at hread ⊢
        rw [checkTexts_of_repeated ho, hread]
        rfl
    · obtain ⟨text, kind, hl, hread, -⟩ := toNodes_leaf f.name hv hs
      rw [hl, List.filterMap_cons, isEmptyList_of_fits hv]
      simp only [Node.leaf]
      rw [checkTexts_of_single ho, hread]
      rfl
  · rw [if_neg he, Bool.eq_false_iff.mpr he]
    exact checkTexts_nil f

section Names

mutual

theorem name_of_mem_toNodes (name : String) (s : Shape) (v : Value) :
    ∀ n ∈ toNodes name s v, n.name = name := by
  match v with
  | .plain j =>
    intro n hn
    obtain rfl := List.mem_singleton.mp hn
    cases j <;> cases s <;> rfl
  | .choice w =>
    intro n hn
    obtain rfl := List.mem_singleton.mp hn
    rfl
  | .list vs =>
    rw [toNodes]
    exact name_of_mem_toNodesList name s vs
  | .record c es =>
    intro n hn
    rw [toNodes, List.mem_singleton] at hn
    rw [hn]
    rfl

theorem name_of_mem_toNodesList (name : String) (s : Shape) (vs : List Value) :
    ∀ n ∈ toNodesList name s vs, n.name = name := by
  match vs with
  | [] =>
    intro n hn
    cases hn
  | v :: vs =>
    intro n hn
    rw [toNodesList] at hn
    rcases List.mem_append.mp hn with hn | hn
    · exact name_of_mem_toNodes name s v n hn
    · exact name_of_mem_toNodesList name s vs n hn

end

theorem name_of_mem_shown {f : FieldSpec} {given : Bool} {v : Value} {n : Node}
    (hn : n ∈ shown f given v) : n.name = f.name := by
  unfold shown at hn
  split at hn
  · exact name_of_mem_toNodes f.name f.shape v n hn
  · cases hn

def fieldGroups (fs : List FieldSpec) (es : List (Bool × Value)) : List (String × List Node) :=
  (fs.zip es).map fun p => (p.1.name, shown p.1 p.2.1 p.2.2)

theorem fieldNodes_eq (fs : List FieldSpec) (es : List (Bool × Value)) :
    fieldNodes fs es = (fieldGroups fs es).flatMap Prod.snd := by
  induction fs generalizing es with
  | nil => cases es <;> rfl
  | cons f fs ih =>
    cases es with
    | nil => rfl
    | cons e es =>
      rw [fieldNodes, ih]
      rfl

theorem isGrouped_fieldGroups {fs : List FieldSpec} {es : List (Bool × Value)}
    (hn : (fs.map FieldSpec.name).Nodup) (hl : fs.length = es.length) :
    Node.IsGrouped (fieldGroups fs es) where
  distinct := by
    have hkeys : (fieldGroups fs es).map Prod.fst = ((fs.zip es).map Prod.fst).map FieldSpec.name := by
      rw [fieldGroups, List.map_map, List.map_map]
      rfl
    rw [hkeys, List.map_fst_zip (Nat.le_of_eq hl)]
    exact hn
  named := by
    intro g hg
    obtain ⟨p, -, rfl⟩ := List.mem_map.mp hg
    intro n hm
    exact name_of_mem_shown hm

theorem filter_fieldNodes {fs : List FieldSpec} {es : List (Bool × Value)}
    (hn : (fs.map FieldSpec.name).Nodup) (hl : fs.length = es.length) :
    ∀ p ∈ fs.zip es,
      (fieldNodes fs es).filter (fun n => n.name == p.1.name) = shown p.1 p.2.1 p.2.2 := by
  intro p hp
  rw [fieldNodes_eq]
  exact Node.filter_groups (isGrouped_fieldGroups hn hl) _ (List.mem_map_of_mem hp)

end Names

end Value

namespace Record

open Value

variable {c : RecordClass} {f : FieldSpec}

def knownChild (c : RecordClass) (n : Node) : List (String × Child) :=
  match c.field? n.name with
  | some ⟨_, .record inner, _⟩ => [(n.name, .record (ofNode inner n))]
  | some _ =>
    match n.value with
    | some v => [(n.name, .text v)]
    | none => []
  | none => []

theorem knownChildren_cons (n : Node) (nodes : List Node) :
    knownChildren c (n :: nodes) = knownChild c n ++ knownChildren c nodes := rfl

theorem name_of_mem_knownChild {n : Node} {p : String × Child} (hp : p ∈ knownChild c n) :
    p.1 = n.name := by
  unfold knownChild at hp
  split at hp
  · rw [List.mem_singleton.mp hp]
  · split at hp
    · rw [List.mem_singleton.mp hp]
    · cases hp
  · cases hp

theorem knownChild_of_record {n : Node} {inner : RecordClass} (hf : c.field? n.name = some f)
    (hs : f.shape = .record inner) : knownChild c n = [(n.name, .record (ofNode inner n))] := by
  obtain ⟨name, s, occurrence⟩ := f
  obtain rfl : s = .record inner := hs
  unfold knownChild
  rw [hf]

theorem knownChild_of_text {n : Node} (hf : c.field? n.name = some f)
    (hs : ∀ i, f.shape ≠ .record i) :
    knownChild c n = (n.value.map fun v => (n.name, Child.text v)).toList := by
  obtain ⟨name, s, occurrence⟩ := f
  unfold knownChild
  rw [hf]
  cases s with
  | record i => exact absurd rfl (hs i)
  | _ => cases n.value <;> rfl

theorem childTexts_append (name : String) (xs ys : List (String × Child)) :
    childTexts name (xs ++ ys) = childTexts name xs ++ childTexts name ys :=
  List.filterMap_append ..

theorem childTexts_of_ne {name : String} {xs : List (String × Child)} (h : ∀ p ∈ xs, p.1 ≠ name) :
    childTexts name xs = [] := by
  rw [childTexts, List.filterMap_eq_nil_iff]
  rintro ⟨m, x⟩ hp
  cases x with
  | text t => exact if_neg (h _ hp)
  | record r => rfl

theorem childTexts_knownChildren (hf : c.field? f.name = some f) (hs : ∀ i, f.shape ≠ .record i)
    (nodes : List Node) :
    childTexts f.name (knownChildren c nodes) =
      (nodes.filter fun n => n.name == f.name).filterMap (·.value) := by
  induction nodes with
  | nil => rfl
  | cons n nodes ih =>
    rw [knownChildren_cons, childTexts_append, ih, List.filter_cons]
    by_cases hn : n.name = f.name
    · rw [if_pos (beq_iff_eq.mpr hn), List.filterMap_cons, knownChild_of_text (hn ▸ hf) hs, ← hn]
      cases n.value <;> simp [childTexts]
    · have hne : ∀ p ∈ knownChild c n, p.1 ≠ f.name := by
        intro p hp
        rwa [name_of_mem_knownChild hp]
      rw [if_neg (by simpa using hn), childTexts_of_ne hne, List.nil_append]

def childResults (name : String) (children : List (String × Child)) : List (Result Record) :=
  children.filterMap fun (n, c) => match c with
    | .record r => if n = name then some r else none
    | .text _ => none

theorem childRecords_eq (name : String) (children : List (String × Child)) :
    childRecords name children = (childResults name children).mapM id := rfl

theorem childResults_of_ne {name : String} {xs : List (String × Child)} (h : ∀ p ∈ xs, p.1 ≠ name) :
    childResults name xs = [] := by
  rw [childResults, List.filterMap_eq_nil_iff]
  rintro ⟨m, x⟩ hp
  cases x with
  | text t => rfl
  | record r => exact if_neg (h _ hp)

theorem childResults_knownChildren {inner : RecordClass} (hf : c.field? f.name = some f)
    (hs : f.shape = .record inner) (nodes : List Node) :
    childResults f.name (knownChildren c nodes) =
      (nodes.filter fun n => n.name == f.name).map (ofNode inner) := by
  induction nodes with
  | nil => rfl
  | cons n nodes ih =>
    have happ : childResults f.name (knownChildren c (n :: nodes)) =
        childResults f.name (knownChild c n) ++ childResults f.name (knownChildren c nodes) :=
      List.filterMap_append ..
    rw [happ, ih, List.filter_cons]
    by_cases hn : n.name = f.name
    · rw [if_pos (beq_iff_eq.mpr hn), List.map_cons, knownChild_of_record (hn ▸ hf) hs]
      simp [childResults, hn]
    · have hne : ∀ p ∈ knownChild c n, p.1 ≠ f.name := by
        intro p hp
        rwa [name_of_mem_knownChild hp]
      rw [if_neg (by simpa using hn), childResults_of_ne hne, List.nil_append]

theorem childRecords_knownChildren {inner : RecordClass} (hf : c.field? f.name = some f)
    (hs : f.shape = .record inner) (nodes : List Node) :
    childRecords f.name (knownChildren c nodes) =
      (nodes.filter fun n => n.name == f.name).mapM (ofNode inner) := by
  rw [childRecords_eq, childResults_knownChildren hf hs, List.mapM_map]
  rfl

theorem readChildren_of_text (children : List (String × Child)) (hs : ∀ i, f.shape ≠ .record i) :
    readChildren children f = .ok (checkTexts f (childTexts f.name children)) := by
  unfold readChildren
  split
  · next i hi => exact absurd hi (hs i)
  · rfl

theorem readChildren_of_record {inner : RecordClass} (children : List (String × Child))
    (hs : f.shape = .record inner) :
    readChildren children f = (childRecords f.name children).map (takeRecords f) := by
  unfold readChildren
  rw [hs]

theorem takeRecords_nil (f : FieldSpec) : takeRecords f [] = [] := by
  unfold takeRecords
  cases f.occurrence <;> rfl

theorem takeRecords_of_repeated (ho : f.occurrence = .repeated) (r : Record) (rs : List Record) :
    takeRecords f (r :: rs) = [(f.name, .ok (.list ((r :: rs).map value)))] := by
  unfold takeRecords
  rw [ho]

theorem takeRecords_of_single (ho : f.occurrence ≠ .repeated) (r : Record) (rs : List Record) :
    takeRecords f (r :: rs) = [(f.name, .ok r.value)] := by
  unfold takeRecords
  cases hf : f.occurrence with
  | repeated => exact absurd hf ho
  | _ => rfl

theorem takeRecords_shown (ho : f.occurrence = .repeated) (vs : List Value) (rs : List Record)
    (h : rs.map value = rereadList .tree vs) :
    takeRecords f rs =
      if (Rereading.tree.marksEmpty || !isEmptyList (.list vs)) = true then
        [(f.name, .ok (.list (rs.map value)))]
      else [] := by
  cases vs with
  | nil =>
    obtain rfl := List.map_eq_nil_iff.mp h
    exact takeRecords_nil f
  | cons v vs =>
    cases rs with
    | nil => cases h
    | cons r rs => exact takeRecords_of_repeated ho r rs

def readChunks (m : Rereading) : List FieldSpec → List (Bool × Value) →
    List (List (String × Checked Value))
  | f :: fs, (given, v) :: es => readEntry m f given v :: readChunks m fs es
  | _, _ => []

theorem flatten_readChunks (m : Rereading) (fs : List FieldSpec) (es : List (Bool × Value)) :
    (readChunks m fs es).flatten = readEntries m fs es := by
  induction fs generalizing es with
  | nil => cases es <;> rfl
  | cons f fs ih =>
    cases es with
    | nil => rfl
    | cons e es =>
      rw [readChunks, readEntries, List.flatten_cons, ih, readEntry]
      split <;> rfl

theorem ofNode_fieldNodes {es : List (Bool × Value)} (hl : c.fields.length = es.length)
    (hread : c.fields.mapM (readChildren (knownChildren c (fieldNodes c.fields es))) =
      .ok (readChunks .tree c.fields es)) (name : String) :
    ofNode c (.block name (fieldNodes c.fields es)) = .ok ⟨c, rereadEntries .tree c.fields es⟩ := by
  rw [Node.block, ofNode, ofChildren, hread, ok_bind, flatten_readChunks, assemble_readEntries hl]
  rfl

theorem readEntry_of_not_emits {given : Bool} {v : Value} (h : f.emits given v = false) :
    shown f given v = [] ∧ readEntry .tree f given v = [] := by
  simp [shown, readEntry, shows, h]

-- Records nest, so that a record, a list of them and the fields of a class are read back by one
-- induction on what was written.
mutual

theorem ofNode_toNodes (c : RecordClass) (name : String) (v : Value)
    (h : Value.fits Json.isSpelled (.record c) v = true) :
    ∃ r, (toNodes name (.record c) v).mapM (ofNode c) = .ok [r] ∧ r.value = Value.reread .tree v := by
  match v with
  | .plain j => cases j <;> cases h
  | .choice _ => cases h
  | .list _ => cases h
  | .record d es =>
    obtain ⟨hc, hes⟩ := fits_record h
    cases hc
    have hread := mapM_readChildren c (fieldNodes c.fields es) c.fields es (fun _ hf => hf) hes
      (filter_fieldNodes c.nodup_fields (length_of_fitsEntries hes))
    refine ⟨⟨c, rereadEntries .tree c.fields es⟩, ?_, rfl⟩
    rw [toNodes, List.mapM_cons, ofNode_fieldNodes (length_of_fitsEntries hes) hread]
    rfl
termination_by sizeOf v

theorem ofNode_toNodesList (c : RecordClass) (name : String) (vs : List Value)
    (h : fitsList Json.isSpelled (.record c) vs = true) :
    ∃ rs, (toNodesList name (.record c) vs).mapM (ofNode c) = .ok rs ∧
      rs.map value = rereadList .tree vs := by
  match vs with
  | [] => exact ⟨[], rfl, rfl⟩
  | v :: vs =>
    rw [fitsList, Bool.and_eq_true] at h
    obtain ⟨r, hr, hv⟩ := ofNode_toNodes c name v h.1
    obtain ⟨rs, hrs, hvs⟩ := ofNode_toNodesList c name vs h.2
    refine ⟨r :: rs, ?_, ?_⟩
    · rw [toNodesList, List.mapM_append, hr, ok_bind, hrs]
      rfl
    · rw [List.map_cons, hv, hvs, rereadList]
termination_by sizeOf vs

theorem mapM_readChildren (c : RecordClass) (nodes : List Node) (fs : List FieldSpec)
    (es : List (Bool × Value)) (hsub : ∀ f ∈ fs, f ∈ c.fields)
    (h : fitsEntries Json.isSpelled fs es = true)
    (hn : ∀ p ∈ fs.zip es, nodes.filter (fun n => n.name == p.1.name) = shown p.1 p.2.1 p.2.2) :
    fs.mapM (readChildren (knownChildren c nodes)) = .ok (readChunks .tree fs es) := by
  match fs, es with
  | [], [] => rfl
  | [], _ :: _ => cases h
  | _ :: _, [] => cases h
  | f :: fs, (given, v) :: es =>
    rw [fitsEntries_cons, Bool.and_eq_true] at h
    have hrest := mapM_readChildren c nodes fs es (fun g hg => hsub g (List.mem_cons_of_mem f hg))
      h.2 (fun p hp => hn p (List.mem_cons_of_mem _ hp))
    have hshown := hn (f, given, v) (List.mem_cons_self ..)
    have hf := c.field?_name (hsub f (List.mem_cons_self ..))
    -- A field with records decodes every block of its name; all others read the texts of leaves.
    have hfirst : readChildren (knownChildren c nodes) f = .ok (readEntry .tree f given v) := by
      by_cases hs : ∃ inner, f.shape = .record inner
      · obtain ⟨inner, hs⟩ := hs
        rw [readChildren_of_record _ hs, childRecords_knownChildren hf hs, hshown]
        by_cases he : f.emits given v = true
        · unfold shown readEntry shows
          rw [if_pos he, he, Bool.true_and, hs]
          rcases fitsField_cases h.1 with ⟨-, rfl⟩ | ⟨ho, vs, rfl, hvs⟩ | ⟨ho, hv⟩
          · cases he
          · rw [hs] at hvs
            obtain ⟨rs, hrs, hvs⟩ := ofNode_toNodesList inner f.name vs hvs
            rw [toNodes, hrs, Value.reread, ← hvs]
            exact congrArg Except.ok (takeRecords_shown ho vs rs hvs)
          · rw [hs] at hv
            obtain ⟨r, hr, hrv⟩ := ofNode_toNodes inner f.name v hv
            rw [hr, if_pos (by rw [isEmptyList_of_fits hv]; rfl), ← hrv]
            exact congrArg Except.ok (takeRecords_of_single ho r [])
        · obtain ⟨hempty, hread⟩ := readEntry_of_not_emits (Bool.eq_false_iff.mpr he)
          rw [hempty, hread]
          exact congrArg Except.ok (takeRecords_nil f)
      · have hs : ∀ i, f.shape ≠ .record i := fun i hi => hs ⟨i, hi⟩
        rw [readChildren_of_text _ hs, childTexts_knownChildren hf hs, hshown,
          checkTexts_shown hs h.1]
    rw [List.mapM_cons, hfirst, ok_bind, hrest]
    rfl
termination_by sizeOf es

end

theorem ofNode_toNode {r : Record} (h : r.fits Json.isSpelled c = true) (name : String) :
    ofNode c (r.toNode name) = .ok (r.reread .tree) := by
  obtain ⟨rfl, hes⟩ := fits_iff.mp h
  apply ofNode_fieldNodes (length_of_fitsEntries hes)
  exact mapM_readChildren _ _ _ _ (fun _ hf => hf) hes
    (filter_fieldNodes (RecordClass.nodup_fields _) (length_of_fitsEntries hes))

theorem knownChild_reread {n : Node} (hn : ∀ inner, ofNode inner n.reread = ofNode inner n) :
    knownChild c n.reread = knownChild c n := by
  unfold knownChild
  simp only [Node.name_reread, Node.value_reread, hn]

mutual

theorem ofNode_reread (c : RecordClass) (n : Node) : ofNode c n.reread = ofNode c n := by
  match n with
  | ⟨name, none, _, children⟩ =>
    rw [Node.reread, ofNode, ofNode, knownChildren_reread c children]
  | ⟨name, some _, _, children⟩ =>
    rw [Node.reread, ofNode, ofNode, knownChildren_reread c children]

theorem knownChildren_reread (c : RecordClass) (nodes : List Node) :
    knownChildren c (Node.rereadList nodes) = knownChildren c nodes := by
  match nodes with
  | [] => rfl
  | n :: nodes =>
    rw [Node.rereadList, knownChildren_cons, knownChildren_cons, knownChildren_reread c nodes,
      knownChild_reread fun inner => ofNode_reread inner n]

end

end Record

section Again

theorem Rereading.keepsText_tree : Rereading.tree.KeepsText :=
  format_canonical

variable {m : Rereading} {test : Json → Bool}

namespace Value

theorem toNodes_reread_plain (hm : m.KeepsText) (name : String) {s : Shape} {j : Json}
    (h : fits test s (.plain j) = true) :
    toNodes name s (reread m (.plain j)) = toNodes name s (.plain j) := by
  rw [fits, Bool.and_eq_true] at h
  rcases Shape.takes_cases h.1 with ⟨b, n, rfl, rfl⟩ | ⟨b, x, rfl, rfl⟩ | ⟨b, rfl, rfl⟩ | ⟨t, rfl, rfl⟩
  · rfl
  · simp only [reread, toNodes, toLeaf, Json.numberText, hm x]
  · rfl
  · rfl

theorem toNodes_of_not_shows {f : FieldSpec} {given : Bool} {v : Value}
    (h : shows m f given v = false) : shown f given v = [] := by
  unfold shown
  split
  · next he =>
    rw [shows, he, Bool.true_and, Bool.or_eq_false_iff, Bool.not_eq_false'] at h
    have hv := h.2
    unfold isEmptyList at hv
    split at hv
    · rfl
    · cases hv
  · rfl

mutual

theorem toNodes_reread (hm : m.KeepsText) (name : String) (s : Shape) (v : Value)
    (h : fits test s v = true) : toNodes name s (reread m v) = toNodes name s v := by
  match v with
  | .plain j => exact toNodes_reread_plain hm name h
  | .choice w => rfl
  | .list _ => cases h
  | .record c es =>
    rw [reread, toNodes, toNodes,
      fieldNodes_reread hm c c.fields es (fun _ hf => hf) (fits_record h).2]

theorem toNodesList_reread (hm : m.KeepsText) (name : String) (s : Shape) (vs : List Value)
    (h : fitsList test s vs = true) :
    toNodesList name s (rereadList m vs) = toNodesList name s vs := by
  match vs with
  | [] => rfl
  | v :: vs =>
    rw [fitsList, Bool.and_eq_true] at h
    rw [rereadList, toNodesList, toNodesList, toNodes_reread hm name s v h.1,
      toNodesList_reread hm name s vs h.2]

theorem fieldNodes_reread (hm : m.KeepsText) (c : RecordClass) (fs : List FieldSpec)
    (es : List (Bool × Value)) (hsub : ∀ f ∈ fs, f ∈ c.fields)
    (h : fitsEntries test fs es = true) :
    fieldNodes fs (rereadEntries m fs es) = fieldNodes fs es := by
  match fs, es with
  | [], [] => rfl
  | [], _ :: _ => cases h
  | _ :: _, [] => cases h
  | f :: fs, (given, v) :: es =>
    rw [fitsEntries_cons, Bool.and_eq_true] at h
    have hes := fieldNodes_reread hm c fs es (fun g hg => hsub g (List.mem_cons_of_mem f hg)) h.2
    rw [rereadEntries, fieldNodes]
    split
    · next hs =>
      have he : f.emits given v = true := (Bool.and_eq_true_iff.mp hs).1
      have hv : toNodes f.name f.shape (reread m v) = toNodes f.name f.shape v := by
        rcases fitsField_cases h.1 with ⟨-, rfl⟩ | ⟨-, vs, rfl, hvs⟩ | ⟨-, hv⟩
        · rfl
        · rw [reread, toNodes, toNodes, toNodesList_reread hm f.name f.shape vs hvs]
        · exact toNodes_reread hm f.name f.shape v hv
      rw [fieldNodes, if_pos (emits_reread he), if_pos he, hv, hes]
    · next hs =>
      have he := emits_standard (hsub f (List.mem_cons_self ..))
      have hv : shown f given v = [] := toNodes_of_not_shows (Bool.eq_false_iff.mpr hs)
      rw [shown] at hv
      rw [fieldNodes, he, hes, hv]
      rfl

end

end Value

theorem Record.toNode_reread (hm : m.KeepsText) {c : RecordClass} {r : Record}
    (h : r.fits test c = true) (name : String) : (r.reread m).toNode name = r.toNode name := by
  obtain ⟨-, hes⟩ := fits_iff.mp h
  exact congrArg (Node.block name)
    (Value.fieldNodes_reread hm r.recordClass _ _ (fun _ hf => hf) hes)

end Again

section Writable

open Value Node

theorem RecordClass.isName_fields (c : RecordClass) :
    ∀ f ∈ c.fields, isName f.name.toList = true := by
  cases c <;> decide +kernel

namespace Value

theorem isWritable_leaf {name : String} {s : Shape} {v : Value} (hn : isName name.toList = true)
    (h : fits Json.isSpelled s v = true) (hs : ∀ c, s ≠ .record c) :
    ∀ n ∈ toNodes name s v, IsWritable n := by
  obtain ⟨text, kind, ht, -, hk⟩ := toNodes_leaf name h hs
  rw [ht]
  intro n hm
  rw [List.mem_singleton.mp hm]
  exact .leaf hn hk

mutual

theorem isWritable_toNodes {name : String} (hn : isName name.toList = true) (s : Shape) (v : Value)
    (h : fits Json.isSpelled s v = true) : ∀ n ∈ toNodes name s v, IsWritable n := by
  match v with
  | .plain j =>
    apply isWritable_leaf hn h
    rintro c rfl
    cases j <;> cases h
  | .choice w =>
    apply isWritable_leaf hn h
    rintro c rfl
    cases h
  | .list _ => cases h
  | .record c es =>
    intro n hm
    rw [toNodes] at hm
    rw [List.mem_singleton.mp hm]
    exact .block hn (isWritable_fieldNodes c.fields es c.isName_fields (fits_record h).2)

theorem isWritable_toNodesList {name : String} (hn : isName name.toList = true) (s : Shape)
    (vs : List Value) (h : fitsList Json.isSpelled s vs = true) :
    ∀ n ∈ toNodesList name s vs, IsWritable n := by
  match vs with
  | [] =>
    intro n hm
    cases hm
  | v :: vs =>
    rw [fitsList, Bool.and_eq_true] at h
    intro n hm
    rw [toNodesList] at hm
    rcases List.mem_append.mp hm with hm | hm
    · exact isWritable_toNodes hn s v h.1 n hm
    · exact isWritable_toNodesList hn s vs h.2 n hm

theorem isWritable_fieldNodes (fs : List FieldSpec) (es : List (Bool × Value))
    (hn : ∀ f ∈ fs, isName f.name.toList = true) (h : fitsEntries Json.isSpelled fs es = true) :
    ∀ n ∈ fieldNodes fs es, IsWritable n := by
  match fs, es with
  | [], es =>
    intro n hm
    cases es <;> cases hm
  | _ :: _, [] => cases h
  | f :: fs, (given, v) :: es =>
    rw [fitsEntries_cons, Bool.and_eq_true] at h
    have hf := hn f (List.mem_cons_self ..)
    intro n hm
    rw [fieldNodes] at hm
    rcases List.mem_append.mp hm with hm | hm
    · split at hm
      · next he =>
        rcases fitsField_cases h.1 with ⟨-, rfl⟩ | ⟨-, vs, rfl, hvs⟩ | ⟨-, hv⟩
        · cases he
        · exact isWritable_toNodesList hf f.shape vs hvs n hm
        · exact isWritable_toNodes hf f.shape v hv n hm
      · cases hm
    · exact isWritable_fieldNodes fs es (fun g hg => hn g (List.mem_cons_of_mem f hg)) h.2 n hm

end

mutual

theorem isWritable_toJson (s : Shape) (v : Value) (h : fits Json.isSpelled s v = true) :
    v.toJson.isWritable = true := by
  match v with
  | .plain j =>
    rw [fits, Bool.and_eq_true] at h
    rw [toJson]
    rcases Shape.takes_cases h.1 with ⟨_, n, -, rfl⟩ | ⟨_, _, -, rfl⟩ | ⟨_, -, rfl⟩ | ⟨_, -, rfl⟩
    · rw [Json.isWritable_int]
      exact h.2
    · rfl
    · rfl
    · rfl
  | .choice w => rfl
  | .list _ => cases h
  | .record c es => exact isWritable_toJsonFields c.fields es (fits_record h).2

theorem isWritable_toJsonList (s : Shape) (vs : List Value)
    (h : fitsList Json.isSpelled s vs = true) : Json.isWritableList (toJsonList vs) = true := by
  match vs with
  | [] => rfl
  | v :: vs =>
    rw [fitsList, Bool.and_eq_true] at h
    rw [toJsonList, Json.isWritableList, isWritable_toJson s v h.1, isWritable_toJsonList s vs h.2]
    rfl

theorem isWritable_toJsonFields (fs : List FieldSpec) (es : List (Bool × Value))
    (h : fitsEntries Json.isSpelled fs es = true) :
    Json.isWritableFields (toJsonFields fs es) = true := by
  match fs, es with
  | [], [] => rfl
  | [], _ :: _ => cases h
  | _ :: _, [] => cases h
  | f :: fs, (given, v) :: es =>
    rw [fitsEntries_cons, Bool.and_eq_true] at h
    rw [toJsonFields]
    split
    · rw [Json.isWritableFields, isWritable_toJsonFields fs es h.2, Bool.and_true]
      rcases fitsField_cases h.1 with ⟨-, rfl⟩ | ⟨-, vs, rfl, hvs⟩ | ⟨-, hv⟩
      · rfl
      · exact isWritable_toJsonList f.shape vs hvs
      · exact isWritable_toJson f.shape v hv
    · exact isWritable_toJsonFields fs es h.2

end

end Value

theorem Record.isWritable_of_fits {r : Record} {c : RecordClass}
    (h : r.fits Json.isSpelled c = true) : r.isWritable = true :=
  isWritable_toJson (.record c) r.value h

theorem Record.ofNode_encode {r : Record} {c : RecordClass} (h : r.fits Json.isSpelled c = true)
    (name : String) :
    ∃ n, r.encode name = .ok n ∧ Record.ofNode c n = .ok (r.reread .tree) :=
  ⟨r.toNode name, if_pos (Record.isWritable_of_fits h), Record.ofNode_toNode h name⟩

theorem Record.isWritable_toNode {r : Record} {c : RecordClass}
    (h : r.fits Json.isSpelled c = true) {name : String} (hn : isName name.toList = true) :
    IsWritable (r.toNode name) := by
  obtain ⟨-, hes⟩ := fits_iff.mp h
  exact .block hn (isWritable_fieldNodes _ _ (RecordClass.isName_fields _) hes)

end Writable

end NetDesc
