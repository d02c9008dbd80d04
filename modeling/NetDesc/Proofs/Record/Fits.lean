import NetDesc.Json.Writer
import NetDesc.Proofs.Outcome
import NetDesc.Record.Basic

namespace NetDesc

open Decimal

def Shape.takes : Shape → Json → Bool
  | .int b, .int n => (b.checkInt n).isOk
  | .float b, .float x => (b.checkFloat x).isOk
  | .bool, .bool _ => true
  | .text, .text _ => true
  | _, _ => false

namespace Value

mutual

/-- A value of a shape, all of whose plain data passes a test. -/
def fits (test : Json → Bool) (s : Shape) : Value → Bool
  | .plain j => s.takes j && test j
  | .choice w =>
    match s with
    | .choice c => c.members.contains w
    | _ => false
  | .list _ => false
  | .record c es => decide (s = .record c) && fitsEntries test c.fields es

def fitsItems (test : Json → Bool) (s : Shape) : Value → Bool
  | .list vs => fitsList test s vs
  | _ => false

def fitsList (test : Json → Bool) (s : Shape) : List Value → Bool
  | [] => true
  | v :: vs => fits test s v && fitsList test s vs

def fitsEntries (test : Json → Bool) : List FieldSpec → List (Bool × Value) → Bool
  | [], [] => true
  | f :: fs, (_, v) :: es =>
    (match f.occurrence with
      | .once _ => fits test f.shape v
      | .optional => v.isNull || fits test f.shape v
      | .repeated => fitsItems test f.shape v) && fitsEntries test fs es
  | _, _ => false

end

def fitsField (test : Json → Bool) (f : FieldSpec) (v : Value) : Bool :=
  match f.occurrence with
  | .once _ => fits test f.shape v
  | .optional => v.isNull || fits test f.shape v
  | .repeated => fitsItems test f.shape v

variable {test : Json → Bool}

theorem fitsEntries_cons {f : FieldSpec} {fs : List FieldSpec} {e : Bool × Value}
    {es : List (Bool × Value)} :
    fitsEntries test (f :: fs) (e :: es) = (fitsField test f e.2 && fitsEntries test fs es) := rfl

theorem fitsField_cases {f : FieldSpec} {v : Value} (h : fitsField test f v = true) :
    (f.occurrence = .optional ∧ v = .plain .null) ∨
      (f.occurrence = .repeated ∧ ∃ vs, v = .list vs ∧ fitsList test f.shape vs = true) ∨
      (f.occurrence ≠ .repeated ∧ fits test f.shape v = true) := by
  obtain ⟨name, s, occurrence⟩ := f
  cases occurrence with
  | once d => exact .inr (.inr ⟨by simp, h⟩)
  | optional =>
    rcases Bool.or_eq_true_iff.mp h with hnull | h
    · refine .inl ⟨rfl, ?_⟩
      unfold isNull at hnull
      split at hnull
      · rfl
      · cases hnull
    · exact .inr (.inr ⟨by simp, h⟩)
  | repeated =>
    cases v with
    | list vs => exact .inr (.inl ⟨rfl, vs, rfl, h⟩)
    | _ => cases h

theorem fits_record {s : Shape} {c : RecordClass} {es : List (Bool × Value)}
    (h : fits test s (.record c es) = true) :
    s = .record c ∧ fitsEntries test c.fields es = true := by
  rw [fits, Bool.and_eq_true, decide_eq_true_eq] at h
  exact h

section Weaker

variable {test' : Json → Bool}

-- What passes a test passes every weaker one, at every depth.
mutual

theorem fits_mono (ht : ∀ j, test j = true → test' j = true) (s : Shape) (v : Value)
    (h : fits test s v = true) : fits test' s v = true := by
  match v with
  | .plain j =>
    rw [fits, Bool.and_eq_true] at h ⊢
    exact ⟨h.1, ht j h.2⟩
  | .choice w => exact h
  | .list _ => cases h
  | .record c es =>
    rw [fits, Bool.and_eq_true] at h ⊢
    exact ⟨h.1, fitsEntries_mono ht c.fields es h.2⟩

theorem fitsList_mono (ht : ∀ j, test j = true → test' j = true) (s : Shape) (vs : List Value)
    (h : fitsList test s vs = true) : fitsList test' s vs = true := by
  match vs with
  | [] => rfl
  | v :: vs =>
    rw [fitsList, Bool.and_eq_true] at h ⊢
    exact ⟨fits_mono ht s v h.1, fitsList_mono ht s vs h.2⟩

theorem fitsEntries_mono (ht : ∀ j, test j = true → test' j = true) (fs : List FieldSpec)
    (es : List (Bool × Value)) (h : fitsEntries test fs es = true) : fitsEntries test' fs es = true := by
  match fs, es with
  | [], [] => rfl
  | [], _ :: _ => cases h
  | _ :: _, [] => cases h
  | f :: fs, (given, v) :: es =>
    rw [fitsEntries_cons, Bool.and_eq_true] at h ⊢
    refine ⟨?_, fitsEntries_mono ht fs es h.2⟩
    obtain ⟨name, s, occurrence⟩ := f
    cases occurrence with
    | once d => exact fits_mono ht s v h.1
    | optional =>
      rcases Bool.or_eq_true_iff.mp h.1 with hn | hv
      · exact Bool.or_eq_true_iff.mpr (.inl hn)
      · exact Bool.or_eq_true_iff.mpr (.inr (fits_mono ht s v hv))
    | repeated =>
      match v with
      | .list vs => exact fitsList_mono ht s vs h.1
      | .plain _ => cases h.1
      | .choice _ => cases h.1
      | .record _ _ => cases h.1

end

theorem fitsField_mono (ht : ∀ j, test j = true → test' j = true) {f : FieldSpec} {v : Value}
    (h : fitsField test f v = true) : fitsField test' f v = true := by
  have hone : fitsEntries test [f] [(false, v)] = true := by
    rw [fitsEntries_cons, h]
    rfl
  have hmono := fitsEntries_mono ht [f] [(false, v)] hone
  rw [fitsEntries_cons, Bool.and_eq_true] at hmono
  exact hmono.1

theorem fitsEntries_standard {fs : List FieldSpec} (h : ∀ f ∈ fs, fitsField test f f.standard = true) :
    fitsEntries test fs (fs.map fun f => (false, f.standard)) = true := by
  induction fs with
  | nil => rfl
  | cons f fs ih =>
    rw [List.forall_mem_cons] at h
    rw [List.map_cons, fitsEntries_cons, h.1, ih h.2]
    rfl

end Weaker

end Value

namespace Bound

theorem checkInt_of_isOk {b : Bound} {n : Int} (h : (b.checkInt n).isOk = true) :
    b.checkInt n = .ok n := by
  have hcheck (c : Prop) [Decidable c] {e : FieldFault}
      (h : (if c then Except.ok n else .error e).isOk = true) :
      (if c then Except.ok n else .error e) = .ok n := by
    split at h
    · next hc => exact if_pos hc
    · cases h
  cases b with
  | any => rfl
  | positive => exact hcheck _ h
  | nonNegative => exact hcheck _ h
  | ratio => rfl

theorem isOk_nonNegative {n : Int} (h : 0 ≤ n) : (nonNegative.checkInt n).isOk = true := by
  rw [checkInt, if_pos h]
  rfl

theorem isOk_positive {n : Int} (h : 0 < n) : (positive.checkInt n).isOk = true := by
  rw [checkInt, if_pos h]
  rfl

theorem checkFloat_of_isOk {b : Bound} {x : Double} (h : (b.checkFloat x).isOk = true) :
    b.checkFloat x = .ok x := by
  cases b with
  | any | positive | nonNegative => rfl
  | ratio =>
    simp only [checkFloat] at h ⊢
    split at h
    · cases h
    split at h
    · cases h
    · simp_all

end Bound

theorem Shape.takes_iff (s : Shape) (j : Json) :
    s.takes j = true ↔ s.check j = .ok (.plain j) := by
  constructor
  · intro h
    cases s with
    | int b =>
      cases j <;> try cases h
      next n => exact map_eq_ok.mpr ⟨n, Bound.checkInt_of_isOk h, rfl⟩
    | float b =>
      cases j <;> try cases h
      next x => exact map_eq_ok.mpr ⟨x, Bound.checkFloat_of_isOk h, rfl⟩
    | bool => cases j <;> first | rfl | cases h
    | text => cases j <;> first | rfl | cases h
    | choice c => cases h
    | record c => cases h
  · intro h
    cases s with
    | int b =>
      obtain ⟨n, hn, he⟩ := map_eq_ok.mp h
      cases he
      exact congrArg Except.isOk hn
    | float b =>
      obtain ⟨x, hx, he⟩ := map_eq_ok.mp h
      cases he
      exact congrArg Except.isOk hx
    | bool =>
      obtain ⟨b, -, he⟩ := map_eq_ok.mp h
      cases he
      rfl
    | text =>
      obtain ⟨t, -, he⟩ := map_eq_ok.mp h
      cases he
      rfl
    | choice c =>
      obtain ⟨w, -, he⟩ := map_eq_ok.mp h
      cases he
    | record c => cases h

theorem Shape.takes_cases {s : Shape} {j : Json} (h : s.takes j = true) :
    (∃ b n, s = .int b ∧ j = .int n) ∨ (∃ b x, s = .float b ∧ j = .float x) ∨
      (∃ b, s = .bool ∧ j = .bool b) ∨ ∃ t, s = .text ∧ j = .text t := by
  cases s with
  | int b =>
    cases j <;> try cases h
    next n => exact .inl ⟨b, n, rfl, rfl⟩
  | float b =>
    cases j <;> try cases h
    next x => exact .inr (.inl ⟨b, x, rfl, rfl⟩)
  | bool =>
    cases j with
    | bool b => exact .inr (.inr (.inl ⟨b, rfl, rfl⟩))
    | _ => cases h
  | text =>
    cases j with
    | text t => exact .inr (.inr (.inr ⟨t, rfl, rfl⟩))
    | _ => cases h
  | choice c => cases h
  | record c => cases h

def Record.fits (test : Json → Bool) (c : RecordClass) (r : Record) : Bool :=
  r.value.fits test (.record c)

theorem Record.fits_mono {test test' : Json → Bool} (ht : ∀ j, test j = true → test' j = true)
    {c : RecordClass} {r : Record} (h : r.fits test c = true) : r.fits test' c = true :=
  Value.fits_mono ht (.record c) r.value h

def Json.isNumeric : Json → Bool
  | .float x => !x.isNaN
  | _ => true

def Json.isSpelled : Json → Bool
  | .int n => !Decimal.isTooLong n.natAbs
  | _ => true

/-- No NaN, and no whole number with too many digits. -/
def Json.isWritten : Json → Bool
  | .float x => !x.isNaN
  | .int n => !Decimal.isTooLong n.natAbs
  | _ => true

theorem Json.isSpelled_of_isWritten {j : Json} (h : j.isWritten = true) : j.isSpelled = true := by
  cases j with
  | int n => exact h
  | _ => rfl

theorem Json.isWritable_int (n : Int) : (Json.int n).isWritable = !Decimal.isTooLong n.natAbs := by
  rw [isWritable, Decimal.isTooLong, ← decide_not]
  exact decide_eq_decide.mpr Nat.not_le.symm

theorem Json.isNumeric_of_isWritten {j : Json} (h : j.isWritten = true) : j.isNumeric = true := by
  cases j with
  | float x => exact h
  | _ => rfl

theorem find?_of_nodup {α β : Type} [BEq β] [LawfulBEq β] {g : α → β} {xs : List α}
    (hn : (xs.map g).Nodup) {x : α} (hx : x ∈ xs) : xs.find? (fun y => g y == g x) = some x := by
  induction xs with
  | nil => cases hx
  | cons y ys ih =>
    obtain ⟨hy, hn⟩ := List.nodup_cons.mp hn
    rcases List.mem_cons.mp hx with rfl | hx
    · simp
    · have hne : g y ≠ g x := fun he => hy (he ▸ List.mem_map_of_mem hx)
      simp [hne, ih hn hx]

namespace RecordClass

theorem mem_every (c : RecordClass) : c ∈ every := by
  cases c <;> decide

theorem nodup_fields (c : RecordClass) : (c.fields.map FieldSpec.name).Nodup := by
  have h : every.all (fun c => decide (c.fields.map FieldSpec.name).Nodup) = true := by
    decide +kernel
  exact of_decide_eq_true (List.all_eq_true.mp h c c.mem_every)

theorem fits_standard (c : RecordClass) :
    ∀ f ∈ c.fields, Value.fitsField Json.isWritten f f.standard = true := by
  have h : every.all (fun c =>
      c.fields.all fun f => Value.fitsField Json.isWritten f f.standard) = true := by
    decide +kernel
  exact List.all_eq_true.mp (List.all_eq_true.mp h c c.mem_every)

theorem same_standard (c : RecordClass) {f : FieldSpec} (hf : f ∈ c.fields) :
    f.standard.same f.standard = true := by
  have h : every.all (fun c => c.fields.all fun f => f.standard.same f.standard) = true := by
    decide +kernel
  exact List.all_eq_true.mp (List.all_eq_true.mp h c c.mem_every) f hf

theorem field?_name (c : RecordClass) {f : FieldSpec} (hf : f ∈ c.fields) :
    c.field? f.name = some f :=
  find?_of_nodup c.nodup_fields hf

end RecordClass

theorem Record.fits_standard (c : RecordClass) : (Record.standard c).fits Json.isWritten c = true := by
  have hentries := Value.fitsEntries_standard c.fits_standard
  exact Bool.and_eq_true_iff.mpr ⟨decide_eq_true rfl, hentries⟩

end NetDesc
