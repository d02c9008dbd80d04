import NetDesc.Proofs.Record.Json
import NetDesc.Stream.Reader
import NetDesc.Stream.Writer

namespace NetDesc

open Decimal Json

/-- How deep lists and objects are nested in the data of a record. -/
def RecordClass.rank : RecordClass → Nat
  | .filler => 1
  | .blobShape => 2
  | _ => 4

def Shape.rank : Shape → Nat
  | .record c => c.rank
  | _ => 0

def FieldSpec.rank (f : FieldSpec) : Nat :=
  match f.occurrence with
  | .repeated => f.shape.rank + 1
  | _ => f.shape.rank

theorem RecordClass.rank_field (c : RecordClass) {f : FieldSpec} (hf : f ∈ c.fields) :
    f.rank + 1 ≤ c.rank := by
  have h : every.all (fun c => c.fields.all fun f => decide (f.rank + 1 ≤ c.rank)) = true := by
    decide +kernel
  exact of_decide_eq_true (List.all_eq_true.mp (List.all_eq_true.mp h c c.mem_every) f hf)

theorem RecordClass.rank_le (c : RecordClass) : c.rank ≤ Reader.depthLimit := by
  cases c <;> decide

namespace Value

variable {test : Json → Bool}

theorem FieldSpec.shape_rank_le (f : FieldSpec) : f.shape.rank ≤ f.rank := by
  unfold FieldSpec.rank
  split
  · exact Nat.le_succ _
  · exact Nat.le_refl _

theorem depth_plain {s : Shape} {j : Json} (h : s.takes j = true) : depth j = 0 := by
  rcases Shape.takes_cases h with ⟨_, _, -, rfl⟩ | ⟨_, _, -, rfl⟩ | ⟨_, -, rfl⟩ | ⟨_, -, rfl⟩ <;> rfl

mutual

theorem depth_toJson (s : Shape) (v : Value) (h : fits test s v = true) :
    depth v.toJson ≤ s.rank := by
  match v with
  | .plain j =>
    rw [fits, Bool.and_eq_true] at h
    rw [toJson, depth_plain h.1]
    exact Nat.zero_le _
  | .choice w => exact Nat.zero_le _
  | .list _ => cases h
  | .record c es =>
    obtain ⟨rfl, hes⟩ := fits_record h
    rw [toJson, depth]
    have hd := depth_toJsonFields (c.rank - 1) c.fields es
      (fun f hf => Nat.le_sub_one_of_lt (c.rank_field hf)) hes
    have hpos : 1 ≤ c.rank := by cases c <;> decide
    show _ ≤ c.rank
    omega

theorem depth_toJsonList (s : Shape) (vs : List Value) (h : fitsList test s vs = true) :
    depthList (toJsonList vs) ≤ s.rank := by
  match vs with
  | [] => exact Nat.zero_le _
  | v :: vs =>
    rw [fitsList, Bool.and_eq_true] at h
    exact Nat.max_le.mpr ⟨depth_toJson s v h.1, depth_toJsonList s vs h.2⟩

theorem depth_toJsonFields (d : Nat) (fs : List FieldSpec) (es : List (Bool × Value))
    (hd : ∀ f ∈ fs, f.rank ≤ d) (h : fitsEntries test fs es = true) :
    depthFields (toJsonFields fs es) ≤ d := by
  match fs, es with
  | [], [] => exact Nat.zero_le _
  | [], _ :: _ => cases h
  | _ :: _, [] => cases h
  | f :: fs, (given, v) :: es =>
    rw [fitsEntries_cons, Bool.and_eq_true] at h
    have hes := depth_toJsonFields d fs es (fun g hg => hd g (List.mem_cons_of_mem f hg)) h.2
    have hf := hd f (List.mem_cons_self ..)
    rw [toJsonFields]
    split
    · refine Nat.max_le.mpr ⟨Nat.le_trans ?_ hf, hes⟩
      rcases fitsField_cases h.1 with ⟨-, rfl⟩ | ⟨ho, vs, rfl, hvs⟩ | ⟨-, hv⟩
      · exact Nat.zero_le _
      · have hl := depth_toJsonList f.shape vs hvs
        rw [FieldSpec.rank, ho, toJson, depth]
        exact Nat.succ_le_succ hl
      · exact Nat.le_trans (depth_toJson f.shape v hv) (FieldSpec.shape_rank_le f)
    · exact hes

end

theorem toJsonFields_names (fs : List FieldSpec) (es : List (Bool × Value)) :
    ((toJsonFields fs es).map Prod.fst).Sublist (fs.map FieldSpec.name) := by
  induction fs generalizing es with
  | nil => cases es <;> exact .slnil
  | cons f fs ih =>
    cases es with
    | nil => exact List.nil_sublist _
    | cons e es =>
      rw [toJsonFields]
      split
      · exact (ih es).cons_cons f.name
      · exact (ih es).cons f.name

theorem isLasting_plain {s : Shape} {j : Json} (h : fits isNumeric s (.plain j) = true)
    (hw : j.isWritable = true) : j.isLasting = true := by
  rw [fits, Bool.and_eq_true] at h
  rcases Shape.takes_cases h.1 with ⟨_, _, -, rfl⟩ | ⟨_, _, -, rfl⟩ | ⟨_, -, rfl⟩ | ⟨_, -, rfl⟩
  · exact hw
  · exact h.2
  · rfl
  · rfl

mutual

theorem isLasting_toJson (s : Shape) (v : Value) (h : fits isNumeric s v = true)
    (hw : v.toJson.isWritable = true) : v.toJson.isLasting = true := by
  match v with
  | .plain j => exact isLasting_plain h hw
  | .choice w => rfl
  | .list _ => cases h
  | .record c es =>
    have hl := isLasting_toJsonFields c.fields es (fits_record h).2 hw
    have hn := c.nodup_fields.sublist (toJsonFields_names c.fields es)
    rw [toJson, isLasting, decide_eq_true hn, hl]
    rfl

theorem isLasting_toJsonList (s : Shape) (vs : List Value) (h : fitsList isNumeric s vs = true)
    (hw : isWritableList (toJsonList vs) = true) : isLastingList (toJsonList vs) = true := by
  match vs with
  | [] => rfl
  | v :: vs =>
    rw [fitsList, Bool.and_eq_true] at h
    rw [toJsonList, isWritableList, Bool.and_eq_true] at hw
    rw [toJsonList, isLastingList, isLasting_toJson s v h.1 hw.1, isLasting_toJsonList s vs h.2 hw.2]
    rfl

theorem isLasting_toJsonFields (fs : List FieldSpec) (es : List (Bool × Value))
    (h : fitsEntries isNumeric fs es = true) (hw : isWritableFields (toJsonFields fs es) = true) :
    isLastingFields (toJsonFields fs es) = true := by
  match fs, es with
  | [], [] => rfl
  | [], _ :: _ => cases h
  | _ :: _, [] => cases h
  | f :: fs, (given, v) :: es =>
    rw [fitsEntries_cons, Bool.and_eq_true] at h
    rw [toJsonFields] at hw ⊢
    by_cases he : f.emits given v = true
    · rw [if_pos he] at hw ⊢
      rw [isWritableFields, Bool.and_eq_true] at hw
      rw [isLastingFields, isLasting_toJsonFields fs es h.2 hw.2, Bool.and_true]
      rcases fitsField_cases h.1 with ⟨-, rfl⟩ | ⟨-, vs, rfl, hvs⟩ | ⟨-, hv⟩
      · rfl
      · exact isLasting_toJsonList f.shape vs hvs hw.1
      · exact isLasting_toJson f.shape v hv hw.1
    · rw [if_neg he] at hw ⊢
      exact isLasting_toJsonFields fs es h.2 hw

end

end Value

theorem Reader.recordOfText_render {c : RecordClass} {r : Record} (h : r.fits isNumeric c = true)
    (hw : (Json.object r.toJson).isWritable = true) :
    Reader.recordOfText c (Json.object r.toJson).render = .ok (r.reread .json) := by
  have hl : (Json.object r.toJson).isLasting = true := Value.isLasting_toJson (.record c) r.value h hw
  have hd : depth (.object r.toJson) ≤ Json.Reader.depthLimit :=
    Nat.le_trans (Value.depth_toJson (.record c) r.value h) c.rank_le
  have hne : (Json.object r.toJson).render.isEmpty = false := by
    rw [← Bool.not_eq_true, String.isEmpty_iff, ← String.toList_inj, render, String.toList_ofList]
    simp [write]
  rw [recordOfText, hne, if_neg (by decide), Json.parse?, read_render hl hd]
  simp only [Except.toOption, Record.ofJson_toJson h]
  rfl

end NetDesc
