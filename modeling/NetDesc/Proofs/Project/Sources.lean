import NetDesc.Proofs.Network.Sources
import NetDesc.Proofs.Network.Training
import NetDesc.Proofs.Project

/-!
A project's model stays on the sources of its dataset, however model, solver and dataset change in
turn, unless the model could not be bound to a new dataset. What is made of it for training is on
these sources too, but for the data layers that are made up.
-/

namespace NetDesc

namespace Network

theorem name_recordUse (b : Binding) (u : SourceUse) : (recordUse b u).name = b.name := by
  unfold recordUse
  split
  · unfold Binding.renameSource
    split <;> rfl
  · rfl

theorem name_foldl_recordUse (b : Binding) (us : List SourceUse) :
    (us.foldl recordUse b).name = b.name := by
  induction us generalizing b with
  | nil => rfl
  | cons u us ih =>
    rw [List.foldl_cons, ih]
    exact name_recordUse b u

theorem name_readSources {b d : Binding} {n : Node} (h : readSources b n = .ok d) :
    d.name = b.name := by
  obtain ⟨uses, -, h⟩ := bind_eq_ok.mp h
  cases h
  exact name_foldl_recordUse b _

end Network

namespace Project

open Network Node

def IsSynced (p : Project) : Prop :=
  p.dataset.name ≠ "" → ∀ m, p.model = some m → OnSources p.dataset m

section Steps

variable {p q : Project} {text : Option String}

theorem syncText_eq_ok {n : Option Node} {d : Binding} (h : p.syncText text = .ok (n, d)) :
    d.name = p.dataset.name ∧
      (p.dataset.name ≠ "" → d = p.dataset ∧ ∀ m, n = some m → OnSources p.dataset m) := by
  unfold syncText at h
  split at h
  · obtain ⟨r, hr, he⟩ := map_eq_ok.mp h
    cases he
    obtain ⟨m, -, hr⟩ := bind_eq_ok.mp hr
    split at hr
    · next hname =>
      obtain ⟨d, hd, hr⟩ := bind_eq_ok.mp hr
      cases hr
      refine ⟨name_readSources hd, ?_⟩
      intro hne
      exact absurd (String.isEmpty_iff.mp hname) hne
    · obtain ⟨m, hm, hr⟩ := bind_eq_ok.mp hr
      cases hr
      refine ⟨rfl, ?_⟩
      intro _
      refine ⟨rfl, ?_⟩
      intro m' hm'
      cases hm'
      exact onSources_applySources hm
  · cases h
    refine ⟨rfl, ?_⟩
    intro _
    refine ⟨rfl, ?_⟩
    intro m hm
    cases hm

theorem isSynced_setModel (h : p.setModel text = .ok q) : IsSynced q := by
  obtain ⟨⟨n, d⟩, hr, rfl⟩ := map_eq_ok.mp h
  obtain ⟨hd, hn⟩ := syncText_eq_ok hr
  intro hname m hm
  rw [hd] at hname
  obtain ⟨rfl, hs⟩ := hn hname
  exact hs m hm

theorem isSynced_setSolver (hp : IsSynced p) (h : p.setSolver text = .ok q) : IsSynced q := by
  obtain ⟨⟨n, d⟩, hr, rfl⟩ := map_eq_ok.mp h
  obtain ⟨hd, hn⟩ := syncText_eq_ok hr
  intro hname
  -- Only a dataset without a name takes names from a solver.
  rw [hd] at hname
  obtain ⟨rfl, -⟩ := hn hname
  exact hp hname

theorem dataset_next_setModel (hname : p.dataset.name ≠ "") (text : Option String) :
    ((Operation.setModel text).next p).dataset = p.dataset := by
  rw [Operation.next, Operation.action, Action.run_setModel]
  cases h : p.setModel text with
  | error e => rfl
  | ok q =>
    obtain ⟨⟨n, d⟩, hr, rfl⟩ := map_eq_ok.mp h
    exact ((syncText_eq_ok hr).2 hname).1

theorem dataset_setDataset (b : Binding) (resize : Bool) :
    (p.setDataset b resize).1.dataset = b := by
  unfold setDataset
  dsimp only
  split
  · rfl
  · split <;> rfl

theorem dataset_next_setDataset (b : Binding) (resize : Bool) :
    ((Operation.setDataset (some b) resize).next p).dataset = b := by
  have hd := dataset_setDataset (p := p) b resize
  rw [Operation.next, run_action_setDataset]
  rcases hr : p.setDataset b resize with ⟨q, r⟩
  rw [hr] at hd
  cases r with
  | ok resized => exact hd
  | error e => exact hd

theorem setDataset_eq_ok {b : Binding} {resize resized : Bool} (hm : p.onModel = none)
    (hs : p.onSolver = none) (h : p.setDataset b resize = (q, .ok resized)) :
    q.dataset = b ∧ q.solver = p.solver ∧ ((p.model = none ∧ q.model = none) ∨
      ∃ m n, p.model = some m ∧ rebind b resize m = .ok (n, resized) ∧ q.model = some n) := by
  unfold setDataset at h
  dsimp only at h
  split at h
  · cases h
  · next model resized' hf =>
    have hsolver : overriddenSolver { p with dataset := b, model } = .ok p.solver :=
      overriddenSolver_of_none hs
    rw [hsolver] at h
    cases h
    refine ⟨rfl, rfl, ?_⟩
    unfold reboundModel at hf
    dsimp only at hf
    split at hf
    · next hnone =>
      cases hf
      exact .inl ⟨hnone, rfl⟩
    · next m hsome =>
      obtain ⟨⟨n, changed⟩, hr, hf⟩ := bind_eq_ok.mp hf
      rw [hm] at hf
      cases hf
      exact .inr ⟨m, n, hsome, hr, rfl⟩

theorem isSynced_setDataset {b : Binding} {resize resized : Bool} (hm : p.onModel = none)
    (hs : p.onSolver = none) (h : p.setDataset b resize = (q, .ok resized)) : IsSynced q := by
  obtain ⟨hd, -, ⟨-, hnone⟩ | ⟨m, n, -, hr, hn⟩⟩ := setDataset_eq_ok hm hs h
  · intro _ m hsome
    rw [hnone] at hsome
    cases hsome
  · intro _ m' hsome
    rw [hn] at hsome
    cases hsome
    rw [hd]
    exact onSources_rebind hr

theorem isSynced_next (hm : p.onModel = none) (hs : p.onSolver = none) (hp : IsSynced p)
    {op : Operation}
    (hop : ∀ b resize, op = .setDataset b resize → ∃ q, op.action.run p = .ok () q) :
    IsSynced (op.next p) := by
  unfold Operation.next
  cases op with
  | setModel text =>
    rw [Operation.action, Action.run_setModel]
    cases h : p.setModel text with
    | error e => exact hp
    | ok q => exact isSynced_setModel h
  | setSolver text =>
    rw [Operation.action, Action.run_setSolver]
    cases h : p.setSolver text with
    | error e => exact hp
    | ok q => exact isSynced_setSolver hp h
  | setVariable name value =>
    rw [Operation.action, Action.run_setVariable]
    cases h : p.setVariable name value with
    | error e => exact hp
    | ok q =>
      obtain ⟨solver, rfl⟩ := eq_of_setVariable h
      exact hp
  | setDataset b resize =>
    cases b with
    | none => exact hp
    | some b =>
      obtain ⟨q, hq⟩ := hop (some b) resize rfl
      rw [hq]
      rw [run_action_setDataset] at hq
      split at hq
      · next hr =>
        cases hq
        exact isSynced_setDataset hm hs hr
      · cases hq

end Steps

/-- Projects without overrides in which no dataset failed to be bound, or none since the model was
last assigned. -/
inductive Settled : Project → Prop where
  | new (name : String) (settings : Settings) (dataset : Binding) :
    Settled { name, settings, dataset }
  | next {p : Project} (h : Settled p) (op : Operation)
    (hop : ∀ b resize, op = .setDataset b resize → ∃ q, op.action.run p = .ok () q) :
    Settled (op.next p)
  | assigned {p q : Project} (h : Reachable p) (text : Option String)
    (hq : p.setModel text = .ok q) : Settled q

section Runs

variable {p q : Project}

theorem Settled.overrides (h : Settled p) : p.onModel = none ∧ p.onSolver = none := by
  induction h with
  | new name settings dataset => exact ⟨rfl, rfl⟩
  | next h op hop ih =>
    obtain ⟨hm, hs⟩ := overrides_next op _
    exact ⟨hm.trans ih.1, hs.trans ih.2⟩
  | assigned h text hq =>
    obtain ⟨r, -, rfl⟩ := map_eq_ok.mp hq
    exact h.overrides

theorem Settled.isSynced (h : Settled p) : IsSynced p := by
  induction h with
  | new name settings dataset =>
    intro _ m hm
    cases hm
  | next h op hop ih =>
    obtain ⟨hm, hs⟩ := h.overrides
    exact isSynced_next hm hs ih hop
  | assigned h text hq => exact isSynced_setModel hq

/-- A data layer for training or tests reads the primary dataset or, where its block says so, the
second one, and if a source is bound there that has a name then the layer has that name. -/
theorem model_onSources (hp : Settled p) (hname : p.dataset.name ≠ "") {m : Node}
    (hm : p.model = some m) :
    ∀ l ∈ layers m, ∀ kind phase block source, IsFed l kind phase block →
      block.findChild "source" = some source →
      ∃ primary, isPrimary block = .ok primary ∧
        ∀ d, (if primary then some p.dataset else p.dataset.target) = some d →
          (d.sourceFor phase).name ≠ "" → source.value = some (d.sourceFor phase).name :=
  hp.isSynced hname m hm

def twoSides : String :=
  "layer \x7b type: \"Data\" include \x7b phase: TRAIN \x7d data_param \x7b source: \"a\" \x7d \x7d " ++
    "layer \x7b type: \"Data\" include \x7b phase: TEST \x7d " ++
    "data_param \x7b source: \"b\" primary_data: false \x7d \x7d"

def pair : Binding :=
  { name := "pair", training := { name := "t" }, testing := { name := "v" },
    target := some { testing := { name := "s" } } }

def pairProject : Project :=
  (Operation.setDataset (some pair) false).next ((Operation.setModel (some twoSides)).next { name := "net" })

def secondBlock : Node :=
  block "data_param" [leaf "source" "s" .string, leaf "primary_data" "false" .bool]

def secondLayer : Node :=
  block "layer" [leaf "type" "Data" .string, block "include" [leaf "phase" "TEST" .unknown], secondBlock]

def pairModel : Node :=
  root [block "layer" [leaf "type" "Data" .string, block "include" [leaf "phase" "TRAIN" .unknown],
    block "data_param" [leaf "source" "t" .string]], secondLayer]

theorem run_pair : ∃ q,
    (Operation.setDataset (some pair) false).action.run
        ((Operation.setModel (some twoSides)).next { name := "net" }) = .ok () q ∧
      q.model = some pairModel := by
  have hok : runsTo (Operation.setDataset (some pair) false).action
      ((Operation.setModel (some twoSides)).next { name := "net" })
      (fun _ q => decide (q.model = some pairModel)) = true := by
    decide +kernel
  obtain ⟨_, q, hq, hm⟩ := exists_of_runsTo hok
  exact ⟨q, hq, of_decide_eq_true hm⟩

theorem settled_pairProject : Settled pairProject := by
  obtain ⟨q, hq, -⟩ := run_pair
  refine .next (.next (.new "net" .standard {}) _ ?_) _ ?_
  · intro b resize he
    cases he
  · intro b resize _
    exact ⟨q, hq⟩

theorem model_pairProject : pairProject.model = some pairModel := by
  obtain ⟨q, hq, hm⟩ := run_pair
  rw [pairProject, Operation.next, hq]
  exact hm

theorem isFed_secondLayer : IsFed secondLayer .data .test secondBlock where
  ofKind := LayerKind.ofNode_of_findValue rfl
  feeds := .inl rfl
  inPhase := parsePhase_name .test
  phased := .inr rfl
  hasBlock := rfl

theorem model_onSources_pair :
    Settled pairProject ∧ pairProject.dataset.name ≠ "" ∧ pairProject.model = some pairModel ∧
      ∃ primary, isPrimary secondBlock = .ok primary ∧
        ∀ d, (if primary then some pairProject.dataset else pairProject.dataset.target) = some d →
          (d.sourceFor .test).name ≠ "" → some "s" = some (d.sourceFor .test).name := by
  have hname : pairProject.dataset.name ≠ "" := by
    rw [pairProject, dataset_next_setDataset]
    decide
  have hl : secondLayer ∈ layers pairModel := by decide +kernel
  exact ⟨settled_pairProject, hname, model_pairProject,
    model_onSources settled_pairProject hname model_pairProject secondLayer hl
      .data .test secondBlock (leaf "source" "s" .string) isFed_secondLayer (by decide +kernel)⟩

end Runs

section Training

variable {p : Project}

/-- Each primary data layer of the model for training was in the model and names the source that the
dataset has for its phase, or it was made up, since no layer that trains brings in the samples of its
phase, and then it has no name for its source. -/
theorem trainingModel_onSources (hp : Settled p) (hname : p.dataset.name ≠ "")
    (htrain : p.dataset.training.name ≠ "") (htest : p.dataset.testing.name ≠ "") {native : Bool}
    {r : Node} (h : p.trainingModel native = .ok (some r)) :
    ∃ m, p.model = some m ∧
      ∀ l ∈ layers r, ∀ kind phase block source, IsFed l kind phase block →
        isPrimary block = .ok true → block.findChild "source" = some source →
        (l ∈ layers m ∧ source.value = some (p.dataset.sourceFor phase).name) ∨
          (l = dataLayer (layerKey m) p.name phase native "" p.settings ∧ source.value = some "" ∧
            ∀ k ∈ layers m, Trains k → ¬ Feeds phase k) := by
  unfold trainingModel at h
  cases hm : p.model with
  | none =>
    rw [hm] at h
    cases h
  | some m =>
    rw [hm] at h
    obtain ⟨r', hr, h⟩ := map_eq_ok.mp h
    cases h
    refine ⟨m, rfl, ?_⟩
    intro l hl kind phase block source hfed hprimary hs
    rcases isFed_forTraining hr hl hfed with hl | ⟨rfl, hnone⟩
    · left
      obtain ⟨primary, hp', hsource⟩ := hp.isSynced hname m hm l hl kind phase block source hfed hs
      rw [hprimary] at hp'
      cases hp'
      refine ⟨hl, hsource p.dataset rfl ?_⟩
      rcases hfed.phased with rfl | rfl
      · exact htrain
      · exact htest
    · right
      obtain ⟨-, hv⟩ := isFed_dataLayer hfed
      rw [findValue, hs] at hv
      exact ⟨rfl, hv, hnone⟩

end Training

def halfFed : String :=
  "layer \x7b type: \"Data\" include \x7b phase: TRAIN \x7d data_param \x7b source: \"a\" \x7d \x7d"

def halfFedProject : Project :=
  (Operation.setModel (some halfFed)).next { name := "net", dataset := pair }

theorem dataset_halfFedProject : halfFedProject.dataset = pair :=
  dataset_next_setModel (by decide +kernel) (some halfFed)

theorem names_halfFedProject : halfFedProject.dataset.name ≠ "" ∧
    halfFedProject.dataset.training.name ≠ "" ∧ halfFedProject.dataset.testing.name ≠ "" := by
  rw [dataset_halfFedProject]
  decide

theorem settled_halfFedProject : Settled halfFedProject := by
  refine .next (.new "net" .standard pair) _ ?_
  intro b resize he
  cases he

def madeUpBlock : Node :=
  block "data_param" [leaf "source" "" .string, leaf "batch_size" "16" .numeric,
    leaf "backend" "IMAGEDB" .unknown, leaf "enable_random_selection" "true" .bool]

def madeUp : Node :=
  dataLayer "layer" "net" .test false "" .standard

theorem isFed_madeUp : IsFed madeUp .data .test madeUpBlock where
  ofKind := LayerKind.ofNode_of_findValue (findValue_type_dataLayer ..)
  feeds := .inl rfl
  inPhase := parsePhase_name .test
  phased := .inr rfl
  hasBlock := rfl

theorem trainingModel_halfFedProject :
    ∃ r, halfFedProject.trainingModel false = .ok (some r) ∧ madeUp ∈ layers r := by
  have hok : (halfFedProject.trainingModel false).toOption.any
      (fun o => o.any fun r => decide (madeUp ∈ layers r)) = true := by
    decide +kernel
  obtain ⟨o, ho, hr⟩ := exists_ok hok
  cases o with
  | none => cases hr
  | some r => exact ⟨r, ho, of_decide_eq_true hr⟩

theorem trainingModel_onSources_halfFed :
    halfFedProject.dataset.name ≠ "" ∧ halfFedProject.dataset.training.name ≠ "" ∧
      halfFedProject.dataset.testing.name ≠ "" ∧
      ∃ r m, halfFedProject.trainingModel false = .ok (some r) ∧ halfFedProject.model = some m ∧
        ∀ l ∈ layers r, ∀ kind phase block source, IsFed l kind phase block →
          isPrimary block = .ok true → block.findChild "source" = some source →
          (l ∈ layers m ∧ source.value = some (halfFedProject.dataset.sourceFor phase).name) ∨
            (l = dataLayer (layerKey m) halfFedProject.name phase false "" halfFedProject.settings ∧
              source.value = some "" ∧
              ∀ k ∈ layers m, Trains k → ¬ Feeds phase k) := by
  obtain ⟨hname, htrain, htest⟩ := names_halfFedProject
  obtain ⟨r, hr, -⟩ := trainingModel_halfFedProject
  obtain ⟨m, hm, hall⟩ := trainingModel_onSources settled_halfFedProject hname htrain htest hr
  exact ⟨hname, htrain, htest, r, m, hr, hm, hall⟩

theorem trainingModel_without_source :
    Settled halfFedProject ∧ halfFedProject.dataset.name ≠ "" ∧
      halfFedProject.dataset.training.name ≠ "" ∧ halfFedProject.dataset.testing.name ≠ "" ∧
      ∃ r, halfFedProject.trainingModel false = .ok (some r) ∧
        ¬ ∀ l ∈ layers r, ∀ kind phase block source, IsFed l kind phase block →
          isPrimary block = .ok true → block.findChild "source" = some source →
          source.value = some (halfFedProject.dataset.sourceFor phase).name := by
  obtain ⟨r, hr, hl⟩ := trainingModel_halfFedProject
  obtain ⟨hname, htrain, htest⟩ := names_halfFedProject
  refine ⟨settled_halfFedProject, hname, htrain, htest, r, hr, ?_⟩
  intro hall
  have hv := hall madeUp hl .data .test madeUpBlock (leaf "source" "" .string) isFed_madeUp
    (by rfl) (by decide +kernel)
  have hne : (some "" : Option String) ≠ some (pair.sourceFor .test).name := by decide +kernel
  rw [dataset_halfFedProject] at hv
  exact hne hv

end Project

end NetDesc
