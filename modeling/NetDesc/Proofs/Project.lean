import NetDesc.Project
import NetDesc.Proofs.Outcome

namespace NetDesc.Project

/-- A failure keeps the project as the statements before it made it. -/
abbrev Action (α : Type) := EStateM Failure Project α

namespace Action

variable {α β : Type} {p : Project}

def lift : Result α → Action α
  | .ok a => pure a
  | .error e => throw e

def sync (n : Node) : Action Node := do
  let b := (← get).dataset
  if b.name.isEmpty then
    let found ← lift (Network.readSources b n)
    modify fun p => { p with dataset := found }
    return n
  else lift (Network.applySources b n)

def tree (text : Option String) : Action (Option Node) :=
  match text.filter fun t => !t.isEmpty with
  | some t => do
    let n ← sync (← lift (parse t))
    return some n
  | none => return none

def setModel (text : Option String) : Action Unit := do
  let n ← tree text
  modify fun p => { p with model := n }

def setSolver (text : Option String) : Action Unit := do
  let n ← tree text
  modify fun p => { p with solver := n }

def setVariable (name : String) (value : Json) : Action Unit := do
  match (← get).solver with
  | none => return ()
  | some n =>
    let n ← lift (Solver.setVariable n name value)
    modify fun p => { p with solver := some n }

def setDataset (b : Binding) (resize : Bool) : Action Bool := do
  modify fun p => { p with dataset := b }
  let (model, resized) ← lift ((← get).reboundModel resize)
  modify fun p => { p with model }
  let solver ← lift ((← get).overriddenSolver)
  modify fun p => { p with solver }
  return resized

theorem run_lift (r : Result α) :
    (lift r).run p = match r with
      | .ok a => .ok a p
      | .error e => .error e p := by
  cases r <;> rfl

theorem run_tree (text : Option String) :
    (tree text).run p = match p.syncText text with
      | .ok r => .ok r.1 { p with dataset := r.2 }
      | .error e => .error e p := by
  unfold tree syncText
  cases text.filter fun t => !t.isEmpty with
  | none => rfl
  | some t =>
    simp only [Project.sync, sync, run_bind, run_lift, run_get]
    cases parse t with
    | error e => rfl
    | ok n =>
      by_cases hb : p.dataset.name.isEmpty = true
      · simp only [ok_bind, hb, if_true, run_bind, run_lift]
        cases Network.readSources p.dataset n <;> rfl
      · simp only [ok_bind, hb]
        cases Network.applySources p.dataset n <;> rfl

theorem run_setModel (text : Option String) :
    (setModel text).run p = match p.setModel text with
      | .ok q => .ok () q
      | .error e => .error e p := by
  rw [setModel, run_bind, run_tree, Project.setModel]
  cases p.syncText text <;> rfl

theorem run_setSolver (text : Option String) :
    (setSolver text).run p = match p.setSolver text with
      | .ok q => .ok () q
      | .error e => .error e p := by
  rw [setSolver, run_bind, run_tree, Project.setSolver]
  cases p.syncText text <;> rfl

theorem run_setVariable (name : String) (value : Json) :
    (setVariable name value).run p = match p.setVariable name value with
      | .ok q => .ok () q
      | .error e => .error e p := by
  simp only [setVariable, Project.setVariable, run_bind, run_get]
  cases p.solver with
  | none => rfl
  | some n =>
    simp only [run_bind, run_lift]
    cases Solver.setVariable n name value <;> rfl

theorem run_setDataset (b : Binding) (resize : Bool) :
    (setDataset b resize).run p = match p.setDataset b resize with
      | (q, .ok resized) => .ok resized q
      | (q, .error e) => .error e q := by
  simp only [setDataset, Project.setDataset, run_bind, run_modify, run_get, run_lift]
  cases Project.reboundModel { p with dataset := b } resize with
  | error e => rfl
  | ok r =>
    cases hs : Project.overriddenSolver { p with dataset := b, model := r.1 } <;>
      simp only [hs, run_pure]

end Action

inductive Operation where
  | setModel (text : Option String)
  | setSolver (text : Option String)
  | setVariable (name : String) (value : Json)
  | setDataset (b : Option Binding) (resize : Bool)

namespace Operation

def action : Operation → Action Unit
  | .setModel text => Action.setModel text
  | .setSolver text => Action.setSolver text
  | .setVariable name value => Action.setVariable name value
  | .setDataset none _ => pure ()
  | .setDataset (some b) resize => do
    let _ ← Action.setDataset b resize

def next (op : Operation) (p : Project) : Project :=
  match op.action.run p with
  | .ok _ q => q
  | .error _ q => q

end Operation

inductive Reachable : Project → Prop where
  | new (name : String) (settings : Settings) (dataset : Binding) :
    Reachable { name, settings, dataset }
  | next {p : Project} (h : Reachable p) (op : Operation) : Reachable (op.next p)

section Failing

variable {p q : Project} {op : Operation} {e : Failure}

theorem run_action_setDataset (b : Binding) (resize : Bool) :
    (Operation.setDataset (some b) resize).action.run p = match p.setDataset b resize with
      | (q, .ok _) => .ok () q
      | (q, .error e) => .error e q := by
  rw [Operation.action, run_bind, Action.run_setDataset]
  rcases p.setDataset b resize with ⟨q, r⟩
  cases r <;> rfl

theorem overrides_setDataset (b : Binding) (resize : Bool) :
    (p.setDataset b resize).1.onModel = p.onModel ∧
      (p.setDataset b resize).1.onSolver = p.onSolver := by
  unfold setDataset
  dsimp only
  split
  · exact ⟨rfl, rfl⟩
  split <;> exact ⟨rfl, rfl⟩

theorem eq_of_setVariable {name : String} {value : Json} (h : p.setVariable name value = .ok q) :
    ∃ solver, q = { p with solver } := by
  unfold setVariable at h
  split at h
  · cases h
    exact ⟨_, rfl⟩
  · obtain ⟨n, -, rfl⟩ := map_eq_ok.mp h
    exact ⟨some n, rfl⟩

theorem overrides_setVariable {name : String} {value : Json} (h : p.setVariable name value = .ok q) :
    q.onModel = p.onModel ∧ q.onSolver = p.onSolver := by
  obtain ⟨solver, rfl⟩ := eq_of_setVariable h
  exact ⟨rfl, rfl⟩

theorem overrides_next (op : Operation) (p : Project) :
    (op.next p).onModel = p.onModel ∧ (op.next p).onSolver = p.onSolver := by
  unfold Operation.next
  cases op with
  | setModel text =>
    rw [Operation.action, Action.run_setModel, Project.setModel]
    cases p.syncText text <;> exact ⟨rfl, rfl⟩
  | setSolver text =>
    rw [Operation.action, Action.run_setSolver, Project.setSolver]
    cases p.syncText text <;> exact ⟨rfl, rfl⟩
  | setVariable name value =>
    rw [Operation.action, Action.run_setVariable]
    cases h : p.setVariable name value with
    | error e => exact ⟨rfl, rfl⟩
    | ok q => exact overrides_setVariable h
  | setDataset b resize =>
    cases b with
    | none => exact ⟨rfl, rfl⟩
    | some b =>
      have ho := overrides_setDataset (p := p) b resize
      rw [run_action_setDataset]
      rcases hr : p.setDataset b resize with ⟨q, r⟩
      rw [hr] at ho
      cases r <;> exact ho

theorem Reachable.overrides (h : Reachable p) : p.onModel = none ∧ p.onSolver = none := by
  induction h with
  | new name settings dataset => exact ⟨rfl, rfl⟩
  | next h op ih =>
    obtain ⟨hm, hs⟩ := overrides_next op _
    exact ⟨hm.trans ih.1, hs.trans ih.2⟩

theorem overriddenSolver_of_none (hs : p.onSolver = none) : overriddenSolver p = .ok p.solver := by
  rw [overriddenSolver, hs]
  cases p.solver <;> rfl

theorem setDataset_eq_error {b : Binding} {resize : Bool} (hm : p.onModel = none)
    (hs : p.onSolver = none) (h : p.setDataset b resize = (q, .error e)) :
    q = { p with dataset := b } ∧
      ∃ m, p.model = some m ∧ Network.rebind b resize m = .error e := by
  unfold setDataset at h
  dsimp only at h
  split at h
  · next f hf =>
    cases h
    refine ⟨rfl, ?_⟩
    unfold reboundModel at hf
    dsimp only at hf
    split at hf
    · cases hf
    · next m hpm =>
      refine ⟨m, hpm, ?_⟩
      cases hr : Network.rebind b resize m with
      | error f =>
        rw [hr, error_bind] at hf
        cases hf
        rfl
      | ok r =>
        rw [hr, hm] at hf
        cases hf
  · next model resized hf =>
    have hsolver : overriddenSolver { p with dataset := b, model } = .ok p.solver :=
      overriddenSolver_of_none hs
    rw [hsolver] at h
    cases h

theorem run_action_eq_error (hm : p.onModel = none) (hs : p.onSolver = none)
    (h : op.action.run p = .error e q) :
    (q = p ∧ ∀ b resize, op ≠ .setDataset (some b) resize) ∨
      ∃ b resize m, op = .setDataset (some b) resize ∧ q = { p with dataset := b } ∧
        p.model = some m ∧ Network.rebind b resize m = .error e := by
  cases op with
  | setModel text =>
    rw [Operation.action, Action.run_setModel] at h
    split at h
    · cases h
    · cases h
      exact .inl ⟨rfl, by simp⟩
  | setSolver text =>
    rw [Operation.action, Action.run_setSolver] at h
    split at h
    · cases h
    · cases h
      exact .inl ⟨rfl, by simp⟩
  | setVariable name value =>
    rw [Operation.action, Action.run_setVariable] at h
    split at h
    · cases h
    · cases h
      exact .inl ⟨rfl, by simp⟩
  | setDataset b resize =>
    cases b with
    | none => cases h
    | some b =>
      rw [run_action_setDataset] at h
      split at h
      · cases h
      · next hr =>
        cases h
        obtain ⟨hq, m, hpm, hf⟩ := setDataset_eq_error hm hs hr
        exact .inr ⟨b, resize, m, rfl, hq, hpm, hf⟩

/-- A failed operation of a project without overrides changes neither model nor solver. It changes
the dataset only where binding one fails since the model cannot be bound to it, and then the new one
stays. -/
theorem unchanged_of_failed (hp : Reachable p) (h : op.action.run p = .error e q) :
    q.model = p.model ∧ q.solver = p.solver ∧
      (q.dataset = p.dataset ↔ ∀ b resize, op = .setDataset (some b) resize → b = p.dataset) ∧
      ∀ b resize, op = .setDataset (some b) resize →
        q.dataset = b ∧ ∃ m, p.model = some m ∧ Network.rebind b resize m = .error e := by
  obtain ⟨hm, hs⟩ := hp.overrides
  rcases run_action_eq_error hm hs h with ⟨rfl, hop⟩ | ⟨b, resize, m, rfl, rfl, hpm, hf⟩
  · exact ⟨rfl, rfl, ⟨fun _ b resize ho => absurd ho (hop b resize), fun _ => rfl⟩,
      fun b resize ho => absurd ho (hop b resize)⟩
  · refine ⟨rfl, rfl, ⟨?_, fun ho => ho b resize rfl⟩, ?_⟩
    · rintro hd c resize' ho
      cases ho
      exact hd
    · rintro c resize' ho
      cases ho
      exact ⟨rfl, m, hpm, hf⟩

end Failing

def unsized : String :=
  "layer \x7b type: \"Data\" include \x7b phase: TRAIN \x7d data_param \x7b source: \"a\" batch_size: x \x7d \x7d"

def unsizedProject : Project :=
  (Operation.setModel (some unsized)).next { name := "net" }

theorem reachable_unsizedProject : Reachable unsizedProject :=
  .next (.new "net" .standard {}) _

theorem run_unsizedProject : ∃ e q,
    (Operation.setDataset (some { name := "d" }) false).action.run unsizedProject = .error e q ∧
      q.dataset.name ≠ unsizedProject.dataset.name := by
  have h : failsWith (Operation.setDataset (some { name := "d" }) false).action unsizedProject
      (fun _ q => decide (q.dataset.name ≠ unsizedProject.dataset.name)) = true := by
    decide +kernel
  obtain ⟨e, q, hr, hq⟩ := exists_of_failsWith h
  exact ⟨e, q, hr, of_decide_eq_true hq⟩

theorem unchanged_of_failed_unsized : ∃ e q,
    (Operation.setDataset (some { name := "d" }) false).action.run unsizedProject = .error e q ∧
      q.model = unsizedProject.model ∧ q.solver = unsizedProject.solver ∧
      q.dataset = { name := "d" } := by
  obtain ⟨e, q, h, -⟩ := run_unsizedProject
  obtain ⟨hmodel, hsolver, -, hdataset⟩ := unchanged_of_failed reachable_unsizedProject h
  exact ⟨e, q, h, hmodel, hsolver, (hdataset _ _ rfl).1⟩

theorem failed_setDataset_binds : Reachable unsizedProject ∧ ∃ e q,
    (Operation.setDataset (some { name := "d" }) false).action.run unsizedProject = .error e q ∧
      ¬ (q.dataset = unsizedProject.dataset ∧ q.model = unsizedProject.model ∧
        q.solver = unsizedProject.solver) := by
  obtain ⟨e, q, h, hname⟩ := run_unsizedProject
  refine ⟨reachable_unsizedProject, e, q, h, ?_⟩
  rintro ⟨hdataset, -⟩
  exact hname (congrArg Binding.name hdataset)

end NetDesc.Project
