import Mathlib.Data.List.Forall2
import Mathlib.Data.List.ReduceOption
import NetDesc.Proofs.Network.Sources

namespace NetDesc.Network

open Node

def modifySource (kind : LayerKind) (f : Node → Node) (l : Node) : Node :=
  l.modifyChild (sourceBlockName kind) fun block => block.modifyChild "source" f

def spellAsString (c : Node) : Node :=
  { c with valueType := .string }

def SourceUse.given? (u : SourceUse) : Option String :=
  (some u.name).filter fun name => !name.isEmpty

def SourceUse.renamed (b : Binding) (u : SourceUse) : SourceUse :=
  { u with name := (boundName? b u).getD u.name }

def writeName (b : Binding) : Option SourceUse → Node → Node
  | none, l => l
  | some u, l =>
    match boundName? b u with
    | none => l
    | some name => modifySource u.kind (fun c => c.withValue name .string) l

/-- The same source of a dataset, which is its training source for all phases but tests. -/
def SourceUse.Shares (u v : SourceUse) : Prop :=
  u.primary = v.primary ∧ (u.phase = .test ↔ v.phase = .test)

section Uses

variable {b : Binding} {l block source : Node} {u v : SourceUse} {kind : LayerKind} {f g : Node → Node}

theorem sourceUse?_eq_some (h : sourceUse? l = .ok (some u)) :
    ∃ block source, IsFed l u.kind u.phase block ∧ block.findChild "source" = some source ∧
      isPrimary block = .ok u.primary ∧ u.name = source.value.getD "" := by
  obtain ⟨kind, hk, h⟩ := bind_eq_ok.mp h
  dsimp only at h
  split at h
  · next block source hblock hsource =>
    obtain ⟨phase, hp, h⟩ := bind_eq_ok.mp h
    split at h
    · next hphase =>
      obtain ⟨primary, hprimary, h⟩ := bind_eq_ok.mp h
      cases h
      split at hblock
      · next hdata =>
        rw [if_pos hdata, hblock, Option.bind_some] at hsource
        have hfeeds := LayerKind.isData_iff.mp hdata
        exact ⟨block, source, ⟨hk, hfeeds, hp, hphase, hblock⟩, hsource, hprimary, rfl⟩
      · cases hblock
    · cases h
  · cases h

theorem sourceUse?_eq (h : IsFed l u.kind u.phase block) (hs : block.findChild "source" = some source)
    (hp : isPrimary block = .ok u.primary) (hn : u.name = source.value.getD "") :
    sourceUse? l = .ok (some u) := by
  simp only [sourceUse?, h.ofKind, ok_bind, h.isData, if_true, h.hasBlock, Option.bind_some, hs,
    h.inPhase, if_pos h.phased, hp, ← hn]
  rfl

theorem modifySource_modifySource (hg : ∀ c, (g c).name = c.name) :
    modifySource kind f (modifySource kind g l) = modifySource kind (f ∘ g) l := by
  have hblock : ∀ c : Node, (c.modifyChild "source" g).name = c.name := fun c => rfl
  rw [modifySource, modifySource, modifyChild_modifyChild hblock]
  apply modifyChild_congr
  intro block _
  exact modifyChild_modifyChild hg

theorem modifySource_congr (h : ∀ block source, l.findChild (sourceBlockName kind) = some block →
    block.findChild "source" = some source → f source = g source) :
    modifySource kind f l = modifySource kind g l := by
  apply modifyChild_congr
  intro block hblock
  apply modifyChild_congr
  intro source hsource
  exact h block source hblock hsource

theorem sourceUse?_modifySource (h : sourceUse? l = .ok (some u)) (name : String) (t : ValueType) :
    sourceUse? (modifySource u.kind (fun c => c.withValue name t) l) =
      .ok (some { u with name := name }) := by
  obtain ⟨block, source, hfed, hs, hp, -⟩ := sourceUse?_eq_some h
  have hsource : ∀ c : Node, (c.withValue name t).name = c.name := fun c => rfl
  have hblock : ∀ c : Node, (c.modifyChild "source" fun c => c.withValue name t).name = c.name :=
    fun c => rfl
  have hinner := isInner_sourceBlockName u.kind
  have hmodified : IsFed (modifySource u.kind (fun c => c.withValue name t) l) u.kind u.phase
      (block.modifyChild "source" fun c => c.withValue name t) := by
    constructor
    · exact (ofNode_modifyChild hblock hinner).trans hfed.ofKind
    · exact hfed.feeds
    · exact (includePhase_modifyChild hblock hinner).trans hfed.inPhase
    · exact hfed.phased
    · rw [modifySource, findChild_modifyChild hblock, hfed.hasBlock]
      rfl
  have hwritten : (block.modifyChild "source" fun c => c.withValue name t).findChild "source" =
      some (source.withValue name t) := by
    rw [findChild_modifyChild hsource, hs]
    rfl
  refine sourceUse?_eq (u := { u with name := name }) hmodified hwritten ?_ rfl
  rw [isPrimary_congr (findChildren_modifyChild hsource (by decide)), hp]

theorem applyToLayer_eq {use : Option SourceUse} (h : sourceUse? l = .ok use) :
    applyToLayer b l = .ok (writeName b use l) := by
  rw [applyToLayer, h, ok_bind]
  cases use with
  | none => rfl
  | some u =>
    cases hb : boundName? b u <;> simp only [writeName, hb] <;> rfl

theorem name_writeName (b : Binding) (use : Option SourceUse) (l : Node) :
    (writeName b use l).name = l.name := by
  cases use with
  | none => rfl
  | some u =>
    rw [writeName]
    cases boundName? b u <;> rfl

theorem sourceUse?_writeName {use : Option SourceUse} (h : sourceUse? l = .ok use) :
    sourceUse? (writeName b use l) = .ok (use.map (SourceUse.renamed b)) := by
  cases use with
  | none => exact h
  | some u =>
    rw [writeName, Option.map_some, SourceUse.renamed]
    cases boundName? b u with
    | none => exact h
    | some name => exact sourceUse?_modifySource h name .string

theorem writeName_writeName {b₁ b₂ : Binding} {use : Option SourceUse}
    (hb : ∀ u, (boundName? b₁ u).isSome → (boundName? b₂ u).isSome) :
    writeName b₂ (use.map (SourceUse.renamed b₁)) (writeName b₁ use l) = writeName b₂ use l := by
  cases use with
  | none => rfl
  | some u =>
    have hkeep : boundName? b₂ (u.renamed b₁) = boundName? b₂ u := rfl
    rw [Option.map_some, writeName, writeName, writeName, hkeep]
    cases h₁ : boundName? b₁ u with
    | none => rfl
    | some name₁ =>
      obtain ⟨name₂, h₂⟩ := Option.isSome_iff_exists.mp (hb u (by rw [h₁]; rfl))
      rw [h₂]
      exact modifySource_modifySource fun c => rfl

theorem SourceUse.given?_of_empty (h : u.name = "") : u.given? = none := by
  rw [given?, h]
  rfl

theorem SourceUse.given?_of_ne (h : u.name ≠ "") : u.given? = some u.name := by
  rw [given?, Option.filter_eq_some_iff]
  simpa using h

theorem writeName_given {use : Option SourceUse} (h : sourceUse? l = .ok use)
    (hb : ∀ u, use = some u → boundName? b u = u.given?) :
    writeName b use l = l ∨ ∃ kind, writeName b use l = modifySource kind spellAsString l := by
  cases use with
  | none => exact .inl rfl
  | some u =>
    by_cases hname : u.name = ""
    · left
      rw [writeName, hb u rfl, SourceUse.given?_of_empty hname]
    · right
      refine ⟨u.kind, ?_⟩
      rw [writeName, hb u rfl, SourceUse.given?_of_ne hname]
      obtain ⟨block, source, hfed, hs, -, hvalue⟩ := sourceUse?_eq_some h
      apply modifySource_congr
      intro block' source' hblock' hs'
      obtain rfl : block = block' := Option.some.inj (hfed.hasBlock.symm.trans hblock')
      obtain rfl : source = source' := Option.some.inj (hs.symm.trans hs')
      cases hv : source.value with
      | none =>
        rw [hv] at hvalue
        exact absurd hvalue hname
      | some value =>
        rw [hv] at hvalue
        rw [Node.withValue, spellAsString, hvalue, hv]
        rfl

end Uses

section Reading

variable {b : Binding} {u v : SourceUse}

theorem boundName?_eq (b : Binding) (u : SourceUse) : boundName? b u =
    ((if u.primary then some b else b.target).map fun d => (d.sourceFor u.phase).name).filter
      fun name => !name.isEmpty := rfl

theorem sourceFor_renameSource {p q : Phase} (h : p = .test ↔ q = .test) (name : String) :
    ((b.renameSource q name).sourceFor p).name = name := by
  by_cases hq : q = .test
  · simp [Binding.renameSource, Binding.sourceFor, hq, h.mpr hq]
  · have hp : p ≠ .test := fun he => hq (h.mp he)
    simp [Binding.renameSource, Binding.sourceFor, hq, hp]

theorem sourceFor_renameSource_of_not {p q : Phase} (h : ¬ (p = .test ↔ q = .test)) (name : String) :
    (b.renameSource q name).sourceFor p = b.sourceFor p := by
  by_cases hq : q = .test
  · have hp : p ≠ .test := fun hp => h (iff_of_true hp hq)
    simp [Binding.renameSource, Binding.sourceFor, hq, hp]
  · have hp : p = .test := Decidable.byContradiction fun hp => h (iff_of_false hp hq)
    simp [Binding.renameSource, Binding.sourceFor, hq, hp]

theorem target_renameSource (p : Phase) (name : String) : (b.renameSource p name).target = b.target := by
  unfold Binding.renameSource
  split <;> rfl

theorem boundName?_recordUse (h : u.Shares v) : boundName? (recordUse b v) u = v.given? := by
  rw [boundName?_eq, recordUse, SourceUse.given?, h.1]
  by_cases hv : v.primary = true
  · rw [if_pos hv, if_pos hv, Option.map_some, sourceFor_renameSource h.2]
  · rw [if_neg hv, if_neg hv, Option.map_some, sourceFor_renameSource h.2]

theorem boundName?_secondary (hu : u.primary = false) :
    ((some ((secondary b).sourceFor u.phase).name).filter fun name => !name.isEmpty) =
      boundName? b u := by
  rw [boundName?_eq, hu, secondary]
  cases b.target with
  | some d => rfl
  | none =>
    have hname : ∀ name : String, (({ name := name } : Binding).sourceFor u.phase).name = "" := by
      intro name
      unfold Binding.sourceFor
      split <;> rfl
    rw [Option.getD_none, hname]
    rfl

theorem boundName?_recordUse_of_not (h : ¬ u.Shares v) :
    boundName? (recordUse b v) u = boundName? b u := by
  by_cases hp : u.primary = v.primary
  · have hphase : ¬ (u.phase = .test ↔ v.phase = .test) := fun ht => h ⟨hp, ht⟩
    by_cases hv : v.primary = true
    · rw [boundName?_eq, boundName?_eq, recordUse, hp, if_pos hv, if_pos hv, if_pos hv,
        Option.map_some, Option.map_some, sourceFor_renameSource_of_not hphase]
    · have hu : u.primary = false := by rw [hp, Bool.eq_false_iff]; exact hv
      rw [← boundName?_secondary (b := b) hu, boundName?_eq, recordUse, if_neg hv, hp, if_neg hv,
        Option.map_some, sourceFor_renameSource_of_not hphase]
  · by_cases hv : v.primary = true
    · have hu : ¬ u.primary = true := fun hu => hp (hu.trans hv.symm)
      rw [boundName?_eq, boundName?_eq, recordUse, if_pos hv, if_neg hu, if_neg hu,
        target_renameSource]
    · have hu : u.primary = true := by
        rw [Bool.not_eq_true] at hv
        simpa [hv] using hp
      rw [boundName?_eq, boundName?_eq, recordUse, if_neg hv, if_pos hu, if_pos hu]
      rfl

theorem boundName?_foldl_recordUse {us : List SourceUse} {name? : Option String}
    (hall : ∀ v ∈ us, u.Shares v → v.given? = name?)
    (h : boundName? b u = name? ∨ ∃ v ∈ us, u.Shares v) :
    boundName? (us.foldl recordUse b) u = name? := by
  induction us generalizing b with
  | nil =>
    rcases h with h | ⟨v, hv, -⟩
    · exact h
    · cases hv
  | cons v us ih =>
    rw [List.foldl_cons]
    apply ih fun w hw => hall w (List.mem_cons_of_mem v hw)
    by_cases hs : u.Shares v
    · left
      rw [boundName?_recordUse hs]
      exact hall v (List.mem_cons_self ..) hs
    · rcases h with h | ⟨w, hw, hsw⟩
      · left
        rw [boundName?_recordUse_of_not hs, h]
      · right
        rcases List.mem_cons.mp hw with rfl | hw
        · exact absurd hsw hs
        · exact ⟨w, hw, hsw⟩

end Reading

section Laws

variable {b : Binding} {n : Node} {uses : List (Option SourceUse)}

structure Using (n : Node) (ps : List (Node × Option SourceUse)) : Prop where
  fst : ps.map Prod.fst = layers n
  snd : ∀ p ∈ ps, sourceUse? p.1 = .ok p.2

def writeNames (b : Binding) (n : Node) (ps : List (Node × Option SourceUse)) : Node :=
  withLayers n ((ps.map fun p => writeName b p.2 p.1).map some)

def written (b : Binding) (p : Node × Option SourceUse) : Node × Option SourceUse :=
  (writeName b p.2 p.1, p.2.map (SourceUse.renamed b))

variable {ps : List (Node × Option SourceUse)}

theorem using_of_mapM (h : (layers n).mapM sourceUse? = .ok uses) :
    ∃ ps, Using n ps ∧ ps.map Prod.snd = uses := by
  obtain ⟨ps, hfst, hsnd, hall⟩ := zip_of_mapM h
  exact ⟨ps, ⟨hfst, hall⟩, hsnd⟩

theorem Using.mapM (h : Using n ps) : (layers n).mapM sourceUse? = .ok (ps.map Prod.snd) := by
  rw [← h.fst]
  exact mapM_map_of_ok h.snd

theorem Using.name (h : Using n ps) : ∀ l ∈ ps.map fun p => writeName b p.2 p.1,
    l.name = layerKey n := by
  intro l hl
  obtain ⟨p, hp, rfl⟩ := List.mem_map.mp hl
  rw [name_writeName]
  apply name_of_mem_layers
  rw [← h.fst]
  exact List.mem_map_of_mem hp

theorem Using.length (h : Using n ps) :
    (ps.map fun p => writeName b p.2 p.1).length = (layers n).length := by
  rw [← h.fst, List.length_map, List.length_map]

theorem applySources_eq (b : Binding) (h : Using n ps) : applySources b n = .ok (writeNames b n ps) := by
  rw [applySources, ← h.fst, mapM_map_of_ok fun p hp => applyToLayer_eq (h.snd p hp)]
  rfl

theorem readSources_eq (b : Binding) (h : Using n ps) :
    readSources b n = .ok ((ps.map Prod.snd).reduceOption.foldl recordUse b) := by
  rw [readSources, h.mapM]
  rfl

theorem Using.layers_writeNames (b : Binding) (h : Using n ps) :
    Network.layers (writeNames b n ps) = ps.map fun p => writeName b p.2 p.1 :=
  layers_withLayers h.name h.length

theorem Using.written (b : Binding) (h : Using n ps) :
    Using (writeNames b n ps) (ps.map (written b)) where
  fst := by
    rw [h.layers_writeNames, List.map_map]
    rfl
  snd := by
    intro p hp
    obtain ⟨q, hq, rfl⟩ := List.mem_map.mp hp
    exact sourceUse?_writeName (h.snd q hq)

theorem Using.phase (h : Using n ps) {u : SourceUse} (hu : some u ∈ ps.map Prod.snd) :
    u.phase = .train ∨ u.phase = .test := by
  obtain ⟨p, hp, he⟩ := List.mem_map.mp hu
  obtain ⟨block, source, hfed, -⟩ := sourceUse?_eq_some (he ▸ h.snd p hp)
  exact hfed.phased

theorem Using.eq_of_shares (h : Using n ps) {u v : SourceUse} (hu : some u ∈ ps.map Prod.snd)
    (hv : some v ∈ ps.map Prod.snd) (hs : u.Shares v) : u.primary = v.primary ∧ u.phase = v.phase := by
  refine ⟨hs.1, ?_⟩
  have htest := hs.2
  rcases h.phase hu with hp | hp <;> rcases h.phase hv with hq | hq <;> simp [hp, hq] at htest ⊢

theorem writeNames_writeNames (h : Using n ps) {b₁ b₂ : Binding}
    (hb : ∀ u, (boundName? b₁ u).isSome → (boundName? b₂ u).isSome) :
    writeNames b₂ (writeNames b₁ n ps) (ps.map (written b₁)) = writeNames b₂ n ps := by
  have hpairs : ((ps.map (written b₁)).map fun p => writeName b₂ p.2 p.1) =
      ps.map fun p => writeName b₂ p.2 p.1 := by
    rw [List.map_map]
    apply List.map_congr_left
    intro p _
    exact writeName_writeName hb
  rw [writeNames, hpairs, writeNames, withLayers_withLayers _ h.name h.length, writeNames]

theorem boundName?_written (h : Using n ps) (b₀ : Binding) {u : SourceUse} {name : String}
    (hu : some u ∈ ps.map Prod.snd) (hb : boundName? b u = some name) :
    boundName? (((ps.map (written b)).map Prod.snd).reduceOption.foldl recordUse b₀) u =
      some name := by
  have hmem {v : SourceUse} : v ∈ ((ps.map (written b)).map Prod.snd).reduceOption ↔
      ∃ w, some w ∈ ps.map Prod.snd ∧ w.renamed b = v := by
    rw [List.reduceOption_mem_iff, List.map_map, List.mem_map]
    constructor
    · rintro ⟨p, hp, he⟩
      obtain ⟨w, hw, rfl⟩ := Option.map_eq_some_iff.mp he
      exact ⟨w, hw ▸ List.mem_map_of_mem hp, rfl⟩
    · rintro ⟨w, hw, rfl⟩
      obtain ⟨p, hp, he⟩ := List.mem_map.mp hw
      exact ⟨p, hp, by simp [written, he]⟩
  apply boundName?_foldl_recordUse
  · intro v hv hs
    obtain ⟨w, hw, rfl⟩ := hmem.mp hv
    obtain ⟨hprimary, hphase⟩ := h.eq_of_shares hu hw hs
    have hbw : boundName? b w = some name := by
      rw [← hb, boundName?_eq, boundName?_eq, hprimary, hphase]
    have hname : (w.renamed b).name = name := by
      rw [SourceUse.renamed, hbw]
      rfl
    have hne : name ≠ "" := by
      simpa using (Option.filter_eq_some_iff.mp hb).2
    rw [SourceUse.given?_of_ne (by rwa [hname]), hname]
  · right
    exact ⟨u.renamed b, hmem.mpr ⟨u, hu, rfl⟩, rfl, Iff.rfl⟩

theorem boundName?_read (h : Using n ps) (b₀ : Binding)
    (hone : ∀ u v, some u ∈ ps.map Prod.snd → some v ∈ ps.map Prod.snd → u.primary = v.primary →
      u.phase = v.phase → u.name = v.name) {u : SourceUse} (hu : some u ∈ ps.map Prod.snd) :
    boundName? ((ps.map Prod.snd).reduceOption.foldl recordUse b₀) u = u.given? := by
  apply boundName?_foldl_recordUse
  · intro v hv hs
    rw [List.reduceOption_mem_iff] at hv
    obtain ⟨hprimary, hphase⟩ := h.eq_of_shares hu hv hs
    rw [SourceUse.given?, SourceUse.given?, hone u v hu hv hprimary hphase]
  · right
    exact ⟨u, List.reduceOption_mem_iff.mpr hu, rfl, Iff.rfl⟩

/-- A name that is written for a source in use is read again; where the uses of each source agree,
writing what was read changes no value, but at most how it is spelled; a dataset that binds every
source that another one bound before overwrites it, as if it had come alone; and so writing a dataset
twice is writing it once. -/
theorem sourceNames_lens (h : (layers n).mapM sourceUse? = .ok uses) :
    (∀ b b₀, ∃ m r, applySources b n = .ok m ∧ readSources b₀ m = .ok r ∧
      ∀ u, some u ∈ uses → ∀ name, boundName? b u = some name → boundName? r u = some name) ∧
    (∀ b₀, (∀ u v, some u ∈ uses → some v ∈ uses → u.primary = v.primary → u.phase = v.phase →
        u.name = v.name) →
      ∃ r m, readSources b₀ n = .ok r ∧ applySources r n = .ok m ∧
        m = withLayers n ((layers m).map some) ∧
        List.Forall₂ (fun l l' => l' = l ∨ ∃ kind, l' = modifySource kind spellAsString l)
          (layers n) (layers m)) ∧
    (∀ b₁ b₂, (∀ u, (boundName? b₁ u).isSome → (boundName? b₂ u).isSome) →
      ∃ m₁ m, applySources b₁ n = .ok m₁ ∧ applySources b₂ m₁ = .ok m ∧
        applySources b₂ n = .ok m) ∧
    ∀ b, ∃ m, applySources b n = .ok m ∧ applySources b m = .ok m := by
  obtain ⟨ps, hps, rfl⟩ := using_of_mapM h
  have htwice {b₁ b₂ : Binding} (hb : ∀ u, (boundName? b₁ u).isSome → (boundName? b₂ u).isSome) :
      applySources b₂ (writeNames b₁ n ps) = .ok (writeNames b₂ n ps) := by
    rw [applySources_eq b₂ (hps.written b₁), writeNames_writeNames hps hb]
  refine ⟨?_, ?_, ?_, ?_⟩
  · intro b b₀
    exact ⟨_, _, applySources_eq b hps, readSources_eq b₀ (hps.written b), fun u hu name hb =>
      boundName?_written hps b₀ hu hb⟩
  · intro b₀ hone
    refine ⟨_, _, readSources_eq b₀ hps, applySources_eq _ hps, ?_, ?_⟩
    · rw [hps.layers_writeNames, writeNames]
    · rw [hps.layers_writeNames, ← hps.fst, List.forall₂_map_left_iff,
        List.forall₂_map_right_iff, List.forall₂_same]
      intro p hp
      apply writeName_given (hps.snd p hp)
      intro u hu
      exact boundName?_read hps b₀ hone (hu ▸ List.mem_map_of_mem hp)
  · intro b₁ b₂ hb
    exact ⟨_, _, applySources_eq b₁ hps, htwice hb, applySources_eq b₂ hps⟩
  · intro b
    exact ⟨_, applySources_eq b hps, htwice fun u hu => hu⟩

end Laws

def mixedReaders : Node :=
  root [block "layer" [leaf "type" "Data" .string, block "include" [leaf "phase" "TRAIN" .unknown],
      block "data_param" [leaf "source" "a" .string]],
    block "layer" [leaf "type" "Data" .string, block "include" [leaf "phase" "TEST" .unknown],
      block "data_param" [leaf "primary_data" "false" .bool, leaf "source" "5" .numeric]]]

theorem sourceNames_lens_mixedReaders :
    (∃ m r, applySources { training := { name := "t" }, target := some { testing := { name := "v" } } }
        mixedReaders = .ok m ∧ readSources {} m = .ok r ∧
      boundName? r ⟨.data, true, .train, "a"⟩ = some "t" ∧
      boundName? r ⟨.data, false, .test, "5"⟩ = some "v") ∧
    (∃ r m, readSources {} mixedReaders = .ok r ∧ applySources r mixedReaders = .ok m ∧
      List.Forall₂ (fun l l' => l' = l ∨ ∃ kind, l' = modifySource kind spellAsString l)
        (layers mixedReaders) (layers m)) ∧
    ∃ m₁ m, applySources { training := { name := "t" } } mixedReaders = .ok m₁ ∧
      applySources { training := { name := "w" } } m₁ = .ok m ∧
      applySources { training := { name := "w" } } mixedReaders = .ok m := by
  have huses : ∃ uses, (layers mixedReaders).mapM sourceUse? = .ok uses ∧
      uses = [some ⟨.data, true, .train, "a"⟩, some ⟨.data, false, .test, "5"⟩] := by
    decide +kernel
  obtain ⟨uses, hok, rfl⟩ := huses
  obtain ⟨hput, hget, htwice, -⟩ := sourceNames_lens hok
  refine ⟨?_, ?_, ?_⟩
  · obtain ⟨m, r, hm, hr, hnames⟩ := hput
      { training := { name := "t" }, target := some { testing := { name := "v" } } } {}
    exact ⟨m, r, hm, hr, hnames _ (by simp) "t" rfl, hnames _ (by simp) "v" rfl⟩
  · obtain ⟨r, m, hr, hm, -, hsame⟩ := hget {} (by
      intro u v hu hv hprimary _
      simp only [List.mem_cons, Option.some.injEq, List.not_mem_nil, or_false] at hu hv
      rcases hu with rfl | rfl <;> rcases hv with rfl | rfl <;> simp at hprimary ⊢)
    exact ⟨r, m, hr, hm, hsame⟩
  · apply htwice
    intro u hu
    unfold boundName? at hu ⊢
    by_cases hp : u.primary = true <;> by_cases ht : u.phase = .test <;>
      simp [hp, ht, Binding.sourceFor] at hu ⊢

end NetDesc.Network
