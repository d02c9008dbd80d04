import NetDesc.Proofs.Json.RoundTrip
import NetDesc.Proofs.Record.Reread

namespace NetDesc

open Decimal

/-- Plain data keeps every number, and a list even where it is empty. -/
def Rereading.json : Rereading := ⟨id, true⟩

theorem Rereading.json_number : Rereading.json.number = id := rfl

theorem Rereading.keeps_json : Rereading.json.Keeps Json.isNumeric :=
  fun _ hx => Double.sameNumber_self (Bool.not_eq_true' _ ▸ hx)

theorem Rereading.keepsText_json : Rereading.json.KeepsText :=
  fun _ => rfl

namespace Record

def checkOne (s : Shape) : Json → Checked Value
  | .object fs => checkObject s fs fun c => checkFields c fs
  | j => oneFault (s.check j)

theorem checkItems_cons (s : Shape) (i : Nat) (j : Json) (js : List Json) :
    checkItems s i (j :: js) = addItem i (checkOne s j) (checkItems s (i + 1) js) := by
  cases j <;> rfl

theorem checkField_of_single {f : FieldSpec} {j : Json} (ho : f.occurrence ≠ .repeated)
    (hj : j ≠ .null) : checkField f j = checkOne f.shape j := by
  obtain ⟨name, s, occurrence⟩ := f
  cases occurrence with
  | once d => cases j <;> rfl
  | optional => cases j <;> first | rfl | exact absurd rfl hj
  | repeated => exact absurd rfl ho

theorem checkField_of_repeated {f : FieldSpec} (ho : f.occurrence = .repeated) (js : List Json) :
    checkField f (.list js) = (checkItems f.shape 0 js).map .list := by
  rw [checkField, ho]

end Record

namespace Value

open Record

variable {test : Json → Bool}

theorem toJson_ne_null {s : Shape} {v : Value} (h : fits test s v = true) : v.toJson ≠ .null := by
  cases v with
  | plain j =>
    rw [fits, Bool.and_eq_true] at h
    rintro rfl
    rcases Shape.takes_cases h.1 with ⟨_, _, -, h⟩ | ⟨_, _, -, h⟩ | ⟨_, -, h⟩ | ⟨_, -, h⟩ <;> cases h
  | choice w => rintro ⟨⟩
  | list vs => cases h
  | record c es => rintro ⟨⟩

theorem reread_json_plain (j : Json) : reread .json (.plain j) = .plain j := by
  cases j <;> rfl

theorem checkOne_plain {s : Shape} {j : Json} (h : s.takes j = true) :
    checkOne s j = .ok (.plain j) := by
  have hc := (s.takes_iff j).mp h
  rcases Shape.takes_cases h with ⟨_, _, -, rfl⟩ | ⟨_, _, -, rfl⟩ | ⟨_, -, rfl⟩ | ⟨_, -, rfl⟩ <;>
    simp only [checkOne, hc] <;> rfl

theorem checkOne_choice {s : Shape} {w : String} (h : fits test s (.choice w) = true) :
    checkOne s (.text w) = .ok (.choice w) := by
  cases s with
  | choice c =>
    have hw : c.members.contains w = true := h
    simp only [checkOne, Shape.check, Check.member, hw]
    rfl
  | _ => cases h

theorem shows_json (f : FieldSpec) (given : Bool) (v : Value) :
    shows .json f given v = f.emits given v := by
  rw [shows, Rereading.json, Bool.true_or, Bool.and_true]

mutual

theorem checkOne_toJson (s : Shape) (v : Value) (h : fits test s v = true) :
    checkOne s v.toJson = .ok (reread .json v) := by
  match v with
  | .plain j =>
    rw [fits, Bool.and_eq_true] at h
    rw [reread_json_plain]
    exact checkOne_plain h.1
  | .choice w => exact checkOne_choice h
  | .list _ => cases h
  | .record c es =>
    obtain ⟨rfl, hes⟩ := fits_record h
    have hr := checkFields_toJson c c.fields es (fun _ hf => hf) hes
    rw [toJson, checkOne, checkObject, hr, assemble_readEntries (length_of_fitsEntries hes)]
    rfl

theorem checkItems_toJson (s : Shape) (vs : List Value) (h : fitsList test s vs = true) (i : Nat) :
    checkItems s i (toJsonList vs) = .ok (rereadList .json vs) := by
  match vs with
  | [] => rfl
  | v :: vs =>
    rw [fitsList, Bool.and_eq_true] at h
    rw [toJsonList, checkItems_cons, checkOne_toJson s v h.1, checkItems_toJson s vs h.2]
    rfl

theorem checkFields_toJson (c : RecordClass) (fs : List FieldSpec) (es : List (Bool × Value))
    (hsub : ∀ f ∈ fs, f ∈ c.fields) (h : fitsEntries test fs es = true) :
    checkFields c (toJsonFields fs es) = readEntries .json fs es := by
  match fs, es with
  | [], [] => rfl
  | [], _ :: _ => cases h
  | _ :: _, [] => cases h
  | f :: fs, (given, v) :: es =>
    rw [fitsEntries_cons, Bool.and_eq_true] at h
    have hes := checkFields_toJson c fs es (fun g hg => hsub g (List.mem_cons_of_mem f hg)) h.2
    rw [toJsonFields, readEntries, shows_json]
    split
    · next he =>
      have hv : checkField f v.toJson = .ok (reread .json v) := by
        rcases fitsField_cases h.1 with ⟨-, rfl⟩ | ⟨ho, vs, rfl, hvs⟩ | ⟨ho, hv⟩
        · cases he
        · rw [toJson, checkField_of_repeated ho, checkItems_toJson f.shape vs hvs]
          rfl
        · rw [checkField_of_single ho (toJson_ne_null hv), checkOne_toJson f.shape v hv]
      rw [checkFields, c.field?_name (hsub f (List.mem_cons_self ..)), hes]
      simp only [hv]
    · exact hes

end

mutual

theorem toJson_reread (v : Value) : (reread .json v).toJson = v.toJson := by
  match v with
  | .plain j => rw [reread_json_plain]
  | .choice w => rfl
  | .list vs => rw [reread, toJson, toJson, toJson_rereadList vs]
  | .record c es =>
    rw [reread, toJson, toJson, toJsonFields_reread c c.fields es fun _ hf => hf]

theorem toJson_rereadList (vs : List Value) : toJsonList (rereadList .json vs) = toJsonList vs := by
  match vs with
  | [] => rfl
  | v :: vs => rw [rereadList, toJsonList, toJsonList, toJson_reread v, toJson_rereadList vs]

theorem toJsonFields_reread (c : RecordClass) (fs : List FieldSpec) (es : List (Bool × Value))
    (hsub : ∀ f ∈ fs, f ∈ c.fields) :
    toJsonFields fs (rereadEntries .json fs es) = toJsonFields fs es := by
  match fs, es with
  | [], [] => rfl
  | [], _ :: _ => rfl
  | _ :: _, [] => rfl
  | f :: fs, (given, v) :: es =>
    have hes := toJsonFields_reread c fs es fun g hg => hsub g (List.mem_cons_of_mem f hg)
    rw [rereadEntries, shows_json]
    split
    · next he =>
      rw [toJsonFields, toJsonFields, if_pos (emits_reread he), if_pos he, toJson_reread v, hes]
    · next he =>
      have hs := emits_standard (hsub f (List.mem_cons_self ..))
      rw [toJsonFields, toJsonFields, hs, if_neg he, hes]
      rfl

end

end Value

namespace Record

variable {test : Json → Bool} {c : RecordClass} {r : Record}

theorem ofJson_toJson (h : r.fits test c = true) :
    ofJson c (.object r.toJson) = .ok (r.reread .json) := by
  obtain ⟨rfl, hes⟩ := fits_iff.mp h
  have hr := Value.checkFields_toJson r.recordClass _ _ (fun _ hf => hf) hes
  rw [ofJson, toJson, hr, Value.assemble_readEntries (Value.length_of_fitsEntries hes)]
  rfl

theorem toJson_reread (r : Record) : (r.reread .json).toJson = r.toJson :=
  Value.toJsonFields_reread r.recordClass _ _ fun _ hf => hf

end Record

end NetDesc
