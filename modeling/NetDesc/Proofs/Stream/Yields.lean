import NetDesc.Proofs.Stream.Mirror

namespace NetDesc

theorem Record.recordClass_assemble {c : RecordClass} {read : List (String × Checked Value)}
    {r : Record} (h : assemble c read = .ok r) : r.recordClass = c := by
  unfold assemble at h
  dsimp only at h
  split at h
  · split at h
    · cases h
      rfl
    · cases h
  · cases h

theorem Record.recordClass_ofJson {c : RecordClass} {j : Json} {r : Record}
    (h : ofJson c j = .ok r) : r.recordClass = c := by
  unfold ofJson at h
  split at h
  · exact recordClass_assemble h
  · cases h

namespace Reader

variable {α β : Type} {r : Reader α} {f : α → Reader β} {P : α → Prop} {Q : β → Prop}

def Yields (r : Reader α) (P : α → Prop) : Prop :=
  ∀ bs x rest, r.run bs = (.ok x, rest) → P x

theorem yields_pure {x : α} (h : P x) : (pure x : Reader α).Yields P := by
  intro bs y rest hr
  cases hr
  exact h

theorem yields_throw (e : Failure) : (throw e : Reader α).Yields P := by
  intro bs x rest hr
  cases hr

theorem yields_result {result : Result α} (h : ∀ x, result = .ok x → P x) :
    Yields (ExceptT.mk (pure result) : Reader α) P := by
  intro bs x rest hr
  exact h x (Prod.mk.inj hr).1

theorem Yields.bind (h : r.Yields P) (hf : ∀ x, P x → (f x).Yields Q) : (r >>= f).Yields Q := by
  intro bs y rest hr
  rw [run_bind] at hr
  split at hr
  · next x left hx => exact hf x (h bs x left hx) left y rest hr
  · cases hr

theorem yields_bind (hf : ∀ x, (f x).Yields Q) : (r >>= f).Yields Q := by
  have h : r.Yields fun _ => True := fun _ _ _ _ => trivial
  exact h.bind fun x _ => hf x

theorem Yields.times (h : r.Yields P) (n : Nat) : (times r n).Yields fun xs => ∀ x ∈ xs, P x := by
  induction n with
  | zero => exact yields_pure (List.forall_mem_nil P)
  | succ n ih =>
    refine h.bind fun x hx => ih.bind fun xs hxs => yields_pure ?_
    rw [List.forall_mem_cons]
    exact ⟨hx, hxs⟩

theorem Yields.list (h : r.Yields P) : (list r).Yields fun xs => ∀ x ∈ xs, P x := by
  exact yields_bind fun n => h.times n

theorem yields_record (c : RecordClass) : (record c).Yields fun r => r.recordClass = c := by
  refine yields_bind fun text => yields_result ?_
  intro r hr
  unfold recordOfText at hr
  split at hr
  · cases hr
  · next j _ =>
    cases hj : Record.ofJson c j with
    | error e =>
      rw [hj] at hr
      cases hr
    | ok s =>
      rw [hj] at hr
      cases hr
      exact Record.recordClass_ofJson hj

end Reader

end NetDesc
