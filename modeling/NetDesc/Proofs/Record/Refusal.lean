import NetDesc.Proofs.Record.Decoded
import NetDesc.Stream.Reader

namespace NetDesc

def Failure.isDecoding : Failure → Bool
  | .unknown _ _ | .undecodable _ => true
  | _ => false

theorem Failure.isDecoding_ofFaults {faults : List Fault} (h : faults ≠ []) (place : String) :
    (Failure.ofFaults place faults).isDecoding = true := by
  unfold ofFaults
  split
  · rfl
  · cases faults with
    | nil => exact absurd rfl h
    | cons f faults => rfl

theorem exists_of_mapM_error {ε α β : Type} {f : α → Except ε β} {xs : List α} {e : ε}
    (h : xs.mapM f = .error e) : ∃ x ∈ xs, f x = .error e := by
  induction xs with
  | nil => cases h
  | cons x xs ih =>
    rw [List.mapM_cons] at h
    rcases bind_eq_error.mp h with h | ⟨y, -, h⟩
    · exact ⟨x, List.mem_cons_self .., h⟩
    · rcases bind_eq_error.mp h with h | ⟨ys, -, h⟩
      · obtain ⟨z, hz, he⟩ := ih h
        exact ⟨z, List.mem_cons_of_mem x hz, he⟩
      · cases h

namespace Checked

variable {α β : Type} {x : Checked α}

def Explained (x : Checked α) : Prop :=
  ∀ faults, x = .error faults → faults ≠ []

theorem explained_ok (a : α) : Explained (.ok a : Checked α) := by
  intro faults h
  cases h

theorem explained_error {faults : List Fault} (h : faults ≠ []) :
    Explained (.error faults : Checked α) := by
  rintro gs ⟨⟩
  exact h

theorem Explained.map (h : x.Explained) (g : α → β) : Explained (x.map g : Checked β) :=
  fun faults he => h faults (map_eq_error.mp he)

theorem explained_oneFault (r : Except FieldFault α) : Explained (oneFault r) := by
  cases r with
  | ok a => exact explained_ok a
  | error f => exact explained_error (List.cons_ne_nil _ _)

theorem Explained.addItem {i : Nat} {rest : Checked (List α)} (h : x.Explained)
    (hr : rest.Explained) : Explained (addItem i x rest) := by
  cases x with
  | ok a =>
    cases rest with
    | ok as => exact explained_ok _
    | error gs => exact explained_error (hr gs rfl)
  | error fs =>
    have hfs : fs.map (Fault.inside (.index i)) ≠ [] := by simpa using h fs rfl
    cases rest with
    | ok as => exact explained_error hfs
    | error gs => exact explained_error (List.append_ne_nil_of_left_ne_nil hfs gs)

theorem Explained.isDecoding (h : x.Explained) {place : String} {e : Failure}
    (he : x.mapError (Failure.ofFaults place) = .error e) : e.isDecoding = true := by
  cases x with
  | ok a => cases he
  | error faults =>
    cases he
    exact Failure.isDecoding_ofFaults (h faults rfl) place

end Checked

namespace Record

open Checked Value

section Assembling

variable {read : List (String × Checked Value)}

theorem explained_collect (h : ∀ p ∈ read, p.2.Explained) (fs : List FieldSpec) :
    Explained (collect read fs) := by
  induction fs with
  | nil => exact explained_ok []
  | cons f fs ih =>
    rw [collect]
    cases hl : read.lookup f.name with
    | none =>
      cases hrest : collect read fs with
      | ok es => exact explained_ok _
      | error gs => exact explained_error (ih gs hrest)
    | some checked =>
      obtain ⟨before, after, rfl, -⟩ := List.lookup_eq_some_iff.mp hl
      have hchecked : checked.Explained := h (f.name, checked) (by simp)
      cases checked with
      | ok v =>
        cases hrest : collect (before ++ (f.name, .ok v) :: after) fs with
        | ok es => exact explained_ok _
        | error gs => exact explained_error (ih gs hrest)
      | error fs' =>
        have hfs : fs'.map (Fault.inside (.field f.name)) ≠ [] := by simpa using hchecked fs' rfl
        cases hrest : collect (before ++ (f.name, .error fs') :: after) fs with
        | ok es => exact explained_error hfs
        | error gs => exact explained_error (List.append_ne_nil_of_left_ne_nil hfs gs)

theorem explained_assemble (h : ∀ p ∈ read, p.2.Explained) (c : RecordClass) :
    Explained (assemble c read) := by
  unfold assemble
  dsimp only
  cases hc : collect read c.fields with
  | error gs => exact explained_error (List.append_ne_nil_of_left_ne_nil (explained_collect h _ gs hc) _)
  | ok es =>
    dsimp only
    split
    · exact explained_ok _
    · next hu => exact explained_error (by simpa using hu)

theorem explained_checkObject {s : Shape} {fields : List (String × Json)}
    {read : RecordClass → List (String × Checked Value)} (h : ∀ c, ∀ p ∈ read c, p.2.Explained) :
    Explained (checkObject s fields read) := by
  unfold checkObject
  split
  · next c => exact (explained_assemble (h c) c).map value
  · exact explained_oneFault _

end Assembling

mutual

theorem explained_checkField (f : FieldSpec) (j : Json) : Explained (checkField f j) := by
  match j with
  | .list js =>
    rw [checkField]
    split
    · exact (explained_checkItems f.shape 0 js).map Value.list
    · exact explained_oneFault _
  | .object fs =>
    rw [checkField]
    split
    · exact explained_oneFault _
    · exact explained_checkObject fun c => explained_checkFields c fs
  | .null | .bool _ | .int _ | .float _ | .text _ | .brokenText _ | .brokenObject _ =>
    unfold checkField
    split
    · exact explained_ok _
    · exact explained_oneFault _
    · exact explained_oneFault _

theorem explained_checkItems (s : Shape) (i : Nat) (js : List Json) :
    Explained (checkItems s i js) := by
  match js with
  | [] => exact explained_ok []
  | j :: js =>
    have hrest := explained_checkItems s (i + 1) js
    match j with
    | .object fs =>
      exact (explained_checkObject fun c => explained_checkFields c fs).addItem hrest
    | .null | .bool _ | .int _ | .float _ | .text _ | .brokenText _ | .list _ | .brokenObject _ =>
      exact (explained_oneFault _).addItem hrest

theorem explained_checkFields (c : RecordClass) (fs : List (String × Json)) :
    ∀ p ∈ checkFields c fs, p.2.Explained := by
  match fs with
  | [] => exact List.forall_mem_nil _
  | (k, j) :: fs =>
    rw [checkFields, List.forall_mem_cons]
    refine ⟨?_, explained_checkFields c fs⟩
    dsimp only
    split
    · next f _ => exact explained_checkField f j
    · exact explained_ok _

end

theorem explained_ofJson (c : RecordClass) (j : Json) : Explained (ofJson c j) := by
  unfold ofJson
  split
  · next fs => exact explained_assemble (explained_checkFields c fs) c
  · exact explained_error (List.cons_ne_nil _ _)

theorem explained_itemsOfTexts (s : Shape) (i : Nat) (texts : List String) :
    Explained (itemsOfTexts s i texts) := by
  induction texts generalizing i with
  | nil => exact explained_ok []
  | cons t ts ih => exact (explained_oneFault _).addItem (ih (i + 1))

theorem explained_checkTexts (f : FieldSpec) (texts : List String) :
    ∀ p ∈ checkTexts f texts, p.2.Explained := by
  cases texts with
  | nil =>
    rw [checkTexts_nil]
    exact List.forall_mem_nil _
  | cons t ts =>
    by_cases ho : f.occurrence = .repeated
    · rw [checkTexts_of_repeated ho, List.forall_mem_singleton]
      exact (explained_itemsOfTexts f.shape 0 (t :: ts)).map Value.list
    · rw [checkTexts_of_single ho, List.forall_mem_singleton]
      exact explained_oneFault _

theorem explained_takeRecords (f : FieldSpec) (records : List Record) :
    ∀ p ∈ takeRecords f records, p.2.Explained := by
  cases records with
  | nil =>
    rw [takeRecords_nil]
    exact List.forall_mem_nil _
  | cons r rs =>
    by_cases ho : f.occurrence = .repeated
    · rw [takeRecords_of_repeated ho, List.forall_mem_singleton]
      exact explained_ok _
    · rw [takeRecords_of_single ho, List.forall_mem_singleton]
      exact explained_ok _

theorem explained_readChildren {f : FieldSpec} {children : List (String × Child)}
    {read : List (String × Checked Value)} (h : readChildren children f = .ok read) :
    ∀ p ∈ read, p.2.Explained := by
  by_cases hs : ∃ inner, f.shape = .record inner
  · obtain ⟨inner, hs⟩ := hs
    rw [readChildren_of_record _ hs] at h
    obtain ⟨rs, -, rfl⟩ := map_eq_ok.mp h
    exact explained_takeRecords f rs
  · rw [readChildren_of_text _ fun i hi => hs ⟨i, hi⟩] at h
    cases h
    exact explained_checkTexts f _

theorem isDecoding_ofNode (n : Node) : ∀ (c : RecordClass) (e : Failure), ofNode c n = .error e →
    e.isDecoding = true := by
  induction n using Node.inductionOn with
  | ind n ih =>
    intro c e h
    obtain ⟨name, value, valueType, children⟩ := n
    rw [ofNode, ofChildren] at h
    rcases bind_eq_error.mp h with h | ⟨read, hread, h⟩
    · obtain ⟨f, hf, h⟩ := exists_of_mapM_error h
      by_cases hs : ∃ inner, f.shape = .record inner
      · obtain ⟨inner, hs⟩ := hs
        rw [readChildren_of_record _ hs, childRecords_knownChildren (c.field?_name hf) hs] at h
        obtain ⟨m, hm, he⟩ := exists_of_mapM_error (map_eq_error.mp h)
        exact ih m (List.mem_filter.mp hm).1 inner e he
      · rw [readChildren_of_text _ fun i hi => hs ⟨i, hi⟩] at h
        cases h
    · refine (explained_assemble ?_ c).isDecoding h
      intro p hp
      obtain ⟨chunk, hchunk, hp⟩ := List.mem_flatten.mp hp
      obtain ⟨f, -, hchunk⟩ := (of_mapM hread).2 chunk hchunk
      exact explained_readChildren hchunk p hp

end Record

theorem Reader.isDecoding_recordOfText {c : RecordClass} {payload : String} {e : Failure}
    (h : recordOfText c payload = .error e) : e.isDecoding = true := by
  unfold recordOfText at h
  split at h
  · cases h
    rfl
  · next j _ => exact (Record.explained_ofJson c j).isDecoding h

end NetDesc
