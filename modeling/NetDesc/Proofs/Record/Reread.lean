import NetDesc.Proofs.Decimal.Reading
import NetDesc.Proofs.Record.Fits

namespace NetDesc

open Decimal

/-- What a written form keeps of a value: which number is read for a number, and whether an empty
list leaves a mark. -/
structure Rereading where
  number : Double → Double
  marksEmpty : Bool

def Rereading.Keeps (m : Rereading) (test : Json → Bool) : Prop :=
  ∀ x, test (.float x) = true → x.sameNumber (m.number x) = true

def Rereading.KeepsText (m : Rereading) : Prop :=
  ∀ x, format (m.number x) = format x

namespace Value

variable (m : Rereading)

def isEmptyList : Value → Bool
  | .list [] => true
  | _ => false

def shows (f : FieldSpec) (given : Bool) (v : Value) : Bool :=
  f.emits given v && (m.marksEmpty || !v.isEmptyList)

mutual

def reread : Value → Value
  | .plain (.float x) => .plain (.float (m.number x))
  | .list vs => .list (rereadList vs)
  | .record c es => .record c (rereadEntries c.fields es)
  | v => v

def rereadList : List Value → List Value
  | [] => []
  | v :: vs => reread v :: rereadList vs

def rereadEntries : List FieldSpec → List (Bool × Value) → List (Bool × Value)
  | f :: fs, (given, v) :: es =>
    (if shows m f given v then (true, reread v) else (false, f.standard)) :: rereadEntries fs es
  | _, _ => []

end

def readEntries : List FieldSpec → List (Bool × Value) → List (String × Checked Value)
  | f :: fs, (given, v) :: es =>
    if shows m f given v then (f.name, .ok (reread m v)) :: readEntries fs es else readEntries fs es
  | _, _ => []

theorem isNull_reread (v : Value) : (reread m v).isNull = v.isNull := by
  cases v with
  | plain j => cases j <;> rfl
  | _ => rfl

variable {m} in
theorem emits_reread {f : FieldSpec} {given : Bool} {v : Value} (h : f.emits given v = true) :
    f.emits true (reread m v) = true := by
  rw [FieldSpec.emits, Bool.and_eq_true] at h
  rw [FieldSpec.emits, isNull_reread, h.1]
  rfl

theorem emits_standard {c : RecordClass} {f : FieldSpec} (hf : f ∈ c.fields) :
    f.emits false f.standard = false := by
  rw [FieldSpec.emits, c.same_standard hf]
  simp

section Collecting

variable {m}

theorem readEntries_names (fs : List FieldSpec) (es : List (Bool × Value)) :
    ((readEntries m fs es).map Prod.fst).Sublist (fs.map FieldSpec.name) := by
  induction fs generalizing es with
  | nil => cases es <;> exact .slnil
  | cons f fs ih =>
    cases es with
    | nil => exact List.nil_sublist _
    | cons e es =>
      rw [readEntries]
      split
      · exact (ih es).cons_cons f.name
      · exact (ih es).cons f.name

theorem collect_cons {name : String} {v : Checked Value} {read : List (String × Checked Value)}
    {fs : List FieldSpec} (h : name ∉ fs.map FieldSpec.name) :
    Record.collect ((name, v) :: read) fs = Record.collect read fs := by
  induction fs with
  | nil => rfl
  | cons f fs ih =>
    rw [List.map_cons, List.mem_cons, not_or] at h
    have hl : ((name, v) :: read).lookup f.name = read.lookup f.name := by
      rw [List.lookup_cons, beq_false_of_ne (Ne.symm h.1)]
    rw [Record.collect, Record.collect, hl, ih h.2]

theorem collect_of_missing {read : List (String × Checked Value)} {f : FieldSpec}
    {fs : List FieldSpec} {es : List (Bool × Value)} (h : f.name ∉ read.map Prod.fst)
    (hc : Record.collect read fs = .ok es) :
    Record.collect read (f :: fs) = .ok ((false, f.standard) :: es) := by
  have hl : read.lookup f.name = none := by
    rw [List.lookup_eq_none_iff]
    intro p hp
    rw [bne_iff_ne]
    exact fun he => h (List.mem_map.mpr ⟨p, hp, he.symm⟩)
  rw [Record.collect, hl, hc]

theorem collect_readEntries {fs : List FieldSpec} {es : List (Bool × Value)}
    (hn : (fs.map FieldSpec.name).Nodup) (hl : fs.length = es.length) :
    Record.collect (readEntries m fs es) fs = .ok (rereadEntries m fs es) := by
  induction fs generalizing es with
  | nil => cases es <;> rfl
  | cons f fs ih =>
    obtain ⟨hf, hn⟩ := List.nodup_cons.mp hn
    cases es with
    | nil => cases hl
    | cons e es =>
      have hi := @ih es hn (by simpa using hl)
      rw [readEntries, rereadEntries]
      split
      · rw [Record.collect, List.lookup_cons_self, collect_cons hf, hi]
      · exact collect_of_missing (fun hm => hf ((readEntries_names fs es).subset hm)) hi

theorem unknownFields_of_subset {c : RecordClass} {names : List String}
    (h : names ⊆ c.fields.map FieldSpec.name) : Record.unknownFields c names = [] := by
  rw [Record.unknownFields, List.map_eq_nil_iff, List.filter_eq_nil_iff]
  intro n hn
  obtain ⟨f, hf, rfl⟩ := List.mem_map.mp (h hn)
  simp [c.field?_name hf]

theorem assemble_readEntries {c : RecordClass} {es : List (Bool × Value)}
    (hl : c.fields.length = es.length) :
    Record.assemble c (readEntries m c.fields es) = .ok ⟨c, rereadEntries m c.fields es⟩ := by
  rw [Record.assemble, collect_readEntries c.nodup_fields hl,
    unknownFields_of_subset (readEntries_names _ _).subset]
  rfl

end Collecting

theorem length_of_fitsEntries {test : Json → Bool} {fs : List FieldSpec}
    {es : List (Bool × Value)} (h : fitsEntries test fs es = true) : fs.length = es.length := by
  induction fs generalizing es with
  | nil =>
    cases es with
    | nil => rfl
    | cons e es => cases h
  | cons f fs ih =>
    cases es with
    | nil => cases h
    | cons e es =>
      rw [fitsEntries_cons, Bool.and_eq_true] at h
      simp [ih h.2]

section Same

variable {m} {test : Json → Bool}

theorem same_standard {f : FieldSpec} {given : Bool} {v : Value}
    (hv : fitsField test f v = true) (hs : shows m f given v = false) :
    v.same f.standard = true := by
  rw [shows, FieldSpec.emits, Bool.and_eq_false_iff, Bool.and_eq_false_iff] at hs
  rcases hs with (hnull | hsame) | hempty
  · rw [Bool.not_eq_false'] at hnull
    rcases fitsField_cases hv with ⟨ho, rfl⟩ | ⟨-, vs, rfl, -⟩ | ⟨-, h⟩
    · rw [FieldSpec.standard, ho]
      rfl
    · cases hnull
    · unfold isNull at hnull
      split at hnull
      · rw [fits, Bool.and_eq_true] at h
        rcases Shape.takes_cases h.1 with ⟨_, _, -, h⟩ | ⟨_, _, -, h⟩ | ⟨_, -, h⟩ | ⟨_, -, h⟩ <;>
          cases h
      · cases hnull
  · rw [Bool.or_eq_false_iff, Bool.not_eq_false'] at hsame
    exact hsame.2
  · rw [Bool.or_eq_false_iff, Bool.not_eq_false'] at hempty
    have hl := hempty.2
    unfold isEmptyList at hl
    split at hl
    · rcases fitsField_cases hv with ⟨-, h⟩ | ⟨ho, -⟩ | ⟨-, h⟩
      · cases h
      · rw [FieldSpec.standard, ho]
        rfl
      · cases h
    · cases hl

theorem same_reread_plain (hm : m.Keeps test) {s : Shape} {j : Json} (h : fits test s (.plain j) = true) :
    (Value.plain j).same (reread m (.plain j)) = true := by
  rw [fits, Bool.and_eq_true] at h
  rcases Shape.takes_cases h.1 with ⟨b, n, -, rfl⟩ | ⟨b, x, -, rfl⟩ | ⟨b, -, rfl⟩ | ⟨t, -, rfl⟩
  · exact beq_self_eq_true n
  · exact hm x h.2
  · exact beq_self_eq_true b
  · exact beq_self_eq_true t

mutual

theorem same_reread (hm : m.Keeps test) (s : Shape) (v : Value) (h : fits test s v = true) :
    v.same (reread m v) = true := by
  match v with
  | .plain j => exact same_reread_plain hm h
  | .choice w => exact beq_self_eq_true w
  | .list _ => cases h
  | .record c es =>
    have hes := same_rereadEntries hm c.fields es (fits_record h).2
    simpa [reread, same] using hes

theorem same_rereadList (hm : m.Keeps test) (s : Shape) (vs : List Value)
    (h : fitsList test s vs = true) :
    sameList vs (rereadList m vs) = true := by
  match vs with
  | [] => rfl
  | v :: vs =>
    rw [fitsList, Bool.and_eq_true] at h
    rw [rereadList, sameList, same_reread hm s v h.1, same_rereadList hm s vs h.2]
    rfl

theorem same_rereadEntries (hm : m.Keeps test) (fs : List FieldSpec) (es : List (Bool × Value))
    (h : fitsEntries test fs es = true) : sameEntries es (rereadEntries m fs es) = true := by
  match fs, es with
  | [], [] => rfl
  | [], _ :: _ => cases h
  | _ :: _, [] => cases h
  | f :: fs, (given, v) :: es =>
    rw [fitsEntries_cons, Bool.and_eq_true] at h
    have hes := same_rereadEntries hm fs es h.2
    rw [rereadEntries]
    split
    · next hs =>
      have hv : v.same (reread m v) = true := by
        rcases fitsField_cases h.1 with ⟨-, rfl⟩ | ⟨-, vs, rfl, hvs⟩ | ⟨-, hv⟩
        · rfl
        · exact same_rereadList hm f.shape vs hvs
        · exact same_reread hm f.shape v hv
      simp [sameEntries, hes, hv]
    · next hs =>
      rw [Bool.not_eq_true] at hs
      simp [sameEntries, hes, same_standard h.1 hs]

end

end Same

end Value

namespace Record

variable {test : Json → Bool} {c : RecordClass} {r : Record}

def reread (m : Rereading) (r : Record) : Record :=
  ⟨r.recordClass, Value.rereadEntries m r.recordClass.fields r.entries⟩

theorem fits_iff : r.fits test c = true ↔
    r.recordClass = c ∧ Value.fitsEntries test r.recordClass.fields r.entries = true := by
  rw [fits, value, Value.fits, Bool.and_eq_true, decide_eq_true_eq, Shape.record.injEq]
  exact and_congr_left' eq_comm

theorem same_reread {m : Rereading} (hm : m.Keeps test) (h : r.fits test c = true) :
    r.same (r.reread m) = true :=
  Value.same_reread hm (.record c) r.value h

end Record

end NetDesc
