import NetDesc.Network.Rebinding
import NetDesc.Network.Sources
import NetDesc.Proofs.Network.Training

namespace NetDesc.Network

open Node

structure IsFed (l : Node) (kind : LayerKind) (phase : Phase) (block : Node) : Prop where
  ofKind : LayerKind.ofNode l = .ok kind
  feeds : kind = .data ∨ kind = .batchData ∨ kind = .tripletData
  inPhase : includePhase l = .ok phase
  phased : phase = .train ∨ phase = .test
  hasBlock : l.findChild (sourceBlockName kind) = some block

def IsBound (b : Binding) (l : Node) : Prop :=
  ∀ kind phase block source, IsFed l kind phase block → block.findChild "source" = some source →
    ∃ primary, isPrimary block = .ok primary ∧
      ∀ d, (if primary then some b else b.target) = some d → (d.sourceFor phase).name ≠ "" →
        source.value = some (d.sourceFor phase).name

def OnSources (b : Binding) (n : Node) : Prop :=
  ∀ l ∈ layers n, IsBound b l

theorem IsFed.isData {l block : Node} {kind : LayerKind} {phase : Phase}
    (h : IsFed l kind phase block) : kind.isData = true := by
  rcases h.feeds with rfl | rfl | rfl <;> rfl

theorem sourceBlockName_cases (kind : LayerKind) :
    sourceBlockName kind = "batch_data_param" ∨ sourceBlockName kind = "data_param" := by
  unfold sourceBlockName
  split
  · exact .inl rfl
  · exact .inr rfl

def IsInner (name : String) : Prop :=
  name ≠ "type" ∧ name ≠ "name" ∧ name ≠ "include"

theorem isInner_sourceBlockName (kind : LayerKind) : IsInner (sourceBlockName kind) := by
  rcases sourceBlockName_cases kind with hk | hk <;> rw [hk] <;> simp [IsInner]

section Edits

variable {l : Node} {name : String} {f : Node → Node}

theorem ofNode_modifyChild (hf : ∀ c, (f c).name = c.name) (hn : IsInner name) :
    LayerKind.ofNode (l.modifyChild name f) = LayerKind.ofNode l := by
  rw [LayerKind.ofNode, LayerKind.ofNode, findValue_modifyChild_of_ne hf hn.1,
    findValue_modifyChild_of_ne hf hn.2.1]

theorem includePhase_modifyChild (hf : ∀ c, (f c).name = c.name) (hn : IsInner name) :
    includePhase (l.modifyChild name f) = includePhase l := by
  simp only [includePhase, findChild_modifyChild_of_ne hf hn.2.2]

theorem IsFed.of_modifyChild {kind : LayerKind} {phase : Phase} {block : Node}
    (hf : ∀ c, (f c).name = c.name) (hn : IsInner name)
    (h : IsFed (l.modifyChild name f) kind phase block) :
    ∃ before, IsFed l kind phase before ∧
      block = if sourceBlockName kind = name then f before else before := by
  have hk := h.ofKind
  have hp := h.inPhase
  have hb := h.hasBlock
  rw [ofNode_modifyChild hf hn] at hk
  rw [includePhase_modifyChild hf hn] at hp
  by_cases hs : sourceBlockName kind = name
  · rw [← hs, findChild_modifyChild hf] at hb
    obtain ⟨before, hbefore, rfl⟩ := Option.map_eq_some_iff.mp hb
    refine ⟨before, ⟨hk, h.feeds, hp, h.phased, hbefore⟩, ?_⟩
    rw [if_pos hs]
  · rw [findChild_modifyChild_of_ne hf (Ne.symm hs)] at hb
    refine ⟨block, ⟨hk, h.feeds, hp, h.phased, hb⟩, ?_⟩
    rw [if_neg hs]

structure KeepsSource (f : Node → Node) : Prop where
  name : ∀ c, (f c).name = c.name
  source : ∀ c, (f c).findChild "source" = c.findChild "source"
  primary : ∀ c, isPrimary (f c) = isPrimary c

theorem isPrimary_congr {a b : Node} (h : a.findChildren "primary_data" = b.findChildren "primary_data") :
    isPrimary a = isPrimary b := by
  simp only [isPrimary, findBools, readScalars, findValues, h]

theorem keepsSource_setValue (hs : name ≠ "source") (hp : name ≠ "primary_data") (value : String)
    (t : Option ValueType) : KeepsSource fun c => c.setValue name value t := by
  constructor
  · intro c
    exact name_setValue
  · intro c
    exact findChild_setValue_of_ne hs c value t
  · intro c
    apply isPrimary_congr
    exact findChildren_setValue hp c value t

theorem keepsSource_modifyChild (hs : name ≠ "source") (hp : name ≠ "primary_data")
    (hf : ∀ c, (f c).name = c.name) : KeepsSource fun c => c.modifyChild name f := by
  constructor
  · intro c
    rfl
  · intro c
    exact findChild_modifyChild_of_ne hf hs
  · intro c
    apply isPrimary_congr
    exact findChildren_modifyChild hf hp

theorem IsBound.modifyChild {b : Binding} (hf : KeepsSource f) (hn : IsInner name)
    (h : IsBound b l) : IsBound b (l.modifyChild name f) := by
  intro kind phase block source hfed hs
  obtain ⟨before, hbefore, rfl⟩ := hfed.of_modifyChild hf.name hn
  by_cases hb : sourceBlockName kind = name
  · rw [if_pos hb] at hs ⊢
    rw [hf.source] at hs
    rw [hf.primary]
    exact h kind phase before source hbefore hs
  · rw [if_neg hb] at hs ⊢
    exact h kind phase before source hbefore hs

theorem isBound_modifyChild {b : Binding} {kind : LayerKind} (hf : ∀ c, (f c).name = c.name)
    (hk : LayerKind.ofNode l = .ok kind)
    (h : ∀ phase block, IsFed l kind phase block → ∃ primary, isPrimary (f block) = .ok primary ∧
      ∀ d, (if primary then some b else b.target) = some d → (d.sourceFor phase).name ≠ "" →
        (f block).findValue "source" = some (d.sourceFor phase).name) :
    IsBound b (l.modifyChild (sourceBlockName kind) f) := by
  intro kind' phase block source hfed hs
  obtain ⟨before, hbefore, rfl⟩ := hfed.of_modifyChild hf (isInner_sourceBlockName kind)
  obtain rfl : kind = kind' := Except.ok.inj (hk.symm.trans hbefore.ofKind)
  obtain ⟨primary, hprimary, hsource⟩ := h phase before hbefore
  rw [if_pos rfl] at hs ⊢
  refine ⟨primary, hprimary, ?_⟩
  intro d hd hname
  have hv := hsource d hd hname
  rwa [findValue, hs] at hv

end Edits

section Writing

variable {b : Binding} {l l' n m block source : Node} {kind : LayerKind} {phase : Phase}

theorem sourceUse?_of_isFed (h : IsFed l kind phase block)
    (hs : block.findChild "source" = some source) {u : Option SourceUse}
    (hu : sourceUse? l = .ok u) :
    ∃ primary, isPrimary block = .ok primary ∧
      u = some ⟨kind, primary, phase, source.value.getD ""⟩ := by
  simp only [sourceUse?, h.ofKind, ok_bind, h.isData, if_true, h.hasBlock, Option.bind_some, hs,
    h.inPhase, if_pos h.phased] at hu
  obtain ⟨primary, hp, hu⟩ := bind_eq_ok.mp hu
  cases hu
  exact ⟨primary, hp, rfl⟩

theorem ofNode_of_sourceUse? {u : SourceUse} (hu : sourceUse? l = .ok (some u)) :
    LayerKind.ofNode l = .ok u.kind := by
  obtain ⟨kind, hk, hu⟩ := bind_eq_ok.mp hu
  dsimp only at hu
  split at hu
  · obtain ⟨phase, -, hu⟩ := bind_eq_ok.mp hu
    split at hu
    · obtain ⟨primary, -, hu⟩ := bind_eq_ok.mp hu
      cases hu
      exact hk
    · cases hu
  · cases hu

theorem source_of_sourceUse? {u : SourceUse} (h : IsFed l kind phase block)
    (hu : sourceUse? l = .ok (some u)) : ∃ source, block.findChild "source" = some source := by
  cases hs : block.findChild "source" with
  | some source => exact ⟨source, rfl⟩
  | none =>
    simp only [sourceUse?, h.ofKind, ok_bind, h.isData, if_true, h.hasBlock, Option.bind_some, hs] at hu
    cases hu

theorem boundName?_eq_none {u : SourceUse} (h : boundName? b u = none) {d : Binding}
    (hd : (if u.primary then some b else b.target) = some d) : (d.sourceFor u.phase).name = "" := by
  rw [boundName?, hd, Option.map_some, Option.filter_eq_none_iff] at h
  simpa using h _ rfl

theorem boundName?_eq_some {u : SourceUse} {name : String} (h : boundName? b u = some name)
    {d : Binding} (hd : (if u.primary then some b else b.target) = some d) :
    (d.sourceFor u.phase).name = name := by
  rw [boundName?, hd, Option.map_some, Option.filter_eq_some_iff] at h
  exact Option.some.inj h.1

theorem isBound_applyToLayer (h : applyToLayer b l = .ok l') : IsBound b l' := by
  obtain ⟨use, hu, h⟩ := bind_eq_ok.mp h
  cases use with
  | none =>
    cases h
    intro kind phase block source hfed hs
    obtain ⟨primary, -, he⟩ := sourceUse?_of_isFed hfed hs hu
    cases he
  | some u =>
    cases hb : boundName? b u with
    | none =>
      simp only [hb] at h
      cases h
      intro kind phase block source hfed hs
      obtain ⟨primary, hprimary, he⟩ := sourceUse?_of_isFed hfed hs hu
      cases he
      refine ⟨primary, hprimary, ?_⟩
      intro d hd hname
      exact absurd (boundName?_eq_none hb hd) hname
    | some name =>
      simp only [hb] at h
      cases h
      have hf : ∀ c : Node, (c.withValue name .string).name = c.name := fun c => rfl
      have hg : ∀ c : Node, (c.modifyChild "source" fun c => c.withValue name .string).name = c.name :=
        fun c => rfl
      apply isBound_modifyChild hg (ofNode_of_sourceUse? hu)
      intro phase block hfed
      -- The layer names a source, or there would be no use of one.
      obtain ⟨source, hs⟩ := source_of_sourceUse? hfed hu
      obtain ⟨primary, hprimary, he⟩ := sourceUse?_of_isFed hfed hs hu
      obtain rfl : u.primary = primary := congrArg SourceUse.primary (Option.some.inj he)
      obtain rfl : u.phase = phase := congrArg SourceUse.phase (Option.some.inj he)
      refine ⟨u.primary, ?_, ?_⟩
      · rw [← hprimary]
        apply isPrimary_congr
        exact findChildren_modifyChild hf (by decide)
      · intro d hd hname
        rw [findValue, findChild_modifyChild hf, hs, boundName?_eq_some hb hd]
        rfl

theorem name_applyToLayer (h : applyToLayer b l = .ok l') : l'.name = l.name := by
  obtain ⟨use, -, h⟩ := bind_eq_ok.mp h
  split at h
  · cases h
    rfl
  · split at h <;> cases h <;> rfl

theorem onSources_applySources (h : applySources b n = .ok m) : OnSources b m := by
  obtain ⟨ls, hls, h⟩ := bind_eq_ok.mp h
  cases h
  obtain ⟨hlength, hstep⟩ := of_mapM hls
  intro l' hl'
  rw [layers_withLayers _ hlength] at hl'
  · obtain ⟨l, -, ha⟩ := hstep l' hl'
    exact isBound_applyToLayer ha
  · intro l' hl'
    obtain ⟨l, hl, ha⟩ := hstep l' hl'
    exact (name_applyToLayer ha).trans (name_of_mem_layers hl)

end Writing

section Rebinding

variable {b : Binding} {l l' n m block : Node} {kind : LayerKind} {phase : Phase} {r : Rebound}

theorem feed?_eq_some_iff {slot : Phase} {primary : Bool} {batch : Option Int} :
    feed? kind l = .ok (some ⟨slot, primary, batch⟩) ↔
      ∃ block phase sizes, l.findChild (sourceBlockName kind) = some block ∧
        includePhase l = .ok phase ∧ phase ≠ .none ∧ slot = (if phase = .test then .test else .train) ∧
        isPrimary block = .ok primary ∧
        (if primary then block.findInts "batch_size" else .ok []) = .ok sizes ∧ batch = sizes.head? := by
  constructor
  · intro h
    unfold feed? at h
    split at h
    · cases h
    next block hblock =>
    obtain ⟨phase, hphase, h⟩ := bind_eq_ok.mp h
    split at h
    · cases h
    next hnone =>
    obtain ⟨primary, hprimary, h⟩ := bind_eq_ok.mp h
    cases primary with
    | true =>
      obtain ⟨sizes, hsizes, h⟩ := bind_eq_ok.mp h
      cases h
      exact ⟨block, phase, sizes, hblock, hphase, hnone, rfl, hprimary, hsizes, rfl⟩
    | false =>
      cases h
      exact ⟨block, phase, [], hblock, hphase, hnone, rfl, hprimary, rfl, rfl⟩
  · rintro ⟨block, phase, sizes, hblock, hphase, hnone, rfl, hprimary, hsizes, rfl⟩
    simp only [feed?, hblock, hphase, ok_bind, if_neg hnone, hprimary]
    cases primary with
    | true => exact bind_eq_ok.mpr ⟨sizes, hsizes, rfl⟩
    | false =>
      cases hsizes
      rfl

theorem feed?_batch_iff {slot : Phase} {primary : Bool} {size : Int} :
    feed? kind l = .ok (some ⟨slot, primary, some size⟩) ↔ primary = true ∧
      ∃ block phase sizes, l.findChild (sourceBlockName kind) = some block ∧
        includePhase l = .ok phase ∧ phase ≠ .none ∧ slot = (if phase = .test then .test else .train) ∧
        isPrimary block = .ok true ∧ block.findInts "batch_size" = .ok (size :: sizes) := by
  rw [feed?_eq_some_iff]
  constructor
  · rintro ⟨block, phase, sizes, hblock, hphase, hnone, hslot, hprimary, hsizes, hsize⟩
    obtain ⟨rest, rfl⟩ := List.head?_eq_some_iff.mp hsize.symm
    cases primary with
    | true => exact ⟨rfl, block, phase, rest, hblock, hphase, hnone, hslot, hprimary, hsizes⟩
    | false => cases hsizes
  · rintro ⟨rfl, block, phase, sizes, hblock, hphase, hnone, hslot, hprimary, hsizes⟩
    exact ⟨block, phase, _, hblock, hphase, hnone, hslot, hprimary, hsizes, rfl⟩

theorem feed?_of_isFed (h : IsFed l kind phase block) {feed : Option Feed}
    (hf : feed? kind l = .ok feed) :
    ∃ primary batch, isPrimary block = .ok primary ∧ feed = some ⟨phase, primary, batch⟩ := by
  have hnone : phase ≠ .none := by rcases h.phased with rfl | rfl <;> simp
  have hslot : (if phase = .test then Phase.test else .train) = phase := by
    rcases h.phased with rfl | rfl <;> rfl
  simp only [feed?, h.hasBlock, h.inPhase, ok_bind, if_neg hnone, hslot] at hf
  obtain ⟨primary, hp, hf⟩ := bind_eq_ok.mp hf
  have hsizes : ∃ sizes : List Int, feed = some ⟨phase, primary, sizes.head?⟩ := by
    split at hf
    · obtain ⟨sizes, -, hf⟩ := bind_eq_ok.mp hf
      cases hf
      exact ⟨sizes, rfl⟩
    · cases hf
      exact ⟨[], rfl⟩
  obtain ⟨sizes, rfl⟩ := hsizes
  exact ⟨primary, sizes.head?, hp, rfl⟩

theorem recrop_eq_ok {height : Nat} (h : recrop height l = .ok l') :
    l' = l ∨ (Decimal.isTooLong height = false ∧ l' = l.modifyChild "transform_param" fun t =>
      t.setValue "crop_size" (toString height) (some .numeric)) := by
  unfold recrop at h
  split at h
  · cases h
    exact .inl rfl
  · obtain ⟨crops, -, h⟩ := bind_eq_ok.mp h
    split at h
    · split at h
      · split at h
        · cases h
        · next hshort =>
          cases h
          exact .inr ⟨Bool.eq_false_iff.mpr hshort, rfl⟩
      · cases h
        exact .inl rfl
    · cases h
      exact .inl rfl

theorem isBound_of_feed? (hk : LayerKind.ofNode l = .ok kind) {feed : Option Feed}
    (hf : feed? kind l = .ok feed) :
    IsBound b (match feed.bind (Feed.source? b) with
      | some s => l.modifyChild (sourceBlockName kind) fun block =>
        block.setValue "source" s.name (some .string)
      | none => l) := by
  cases hs : feed.bind (Feed.source? b) with
  | none =>
    intro kind' phase block source hfed _
    obtain rfl : kind = kind' := Except.ok.inj (hk.symm.trans hfed.ofKind)
    obtain ⟨primary, batch, hprimary, rfl⟩ := feed?_of_isFed hfed hf
    refine ⟨primary, hprimary, ?_⟩
    intro d hd
    rw [Option.bind_some, Feed.source?, hd] at hs
    cases hs
  | some s =>
    apply isBound_modifyChild (fun c => name_setValue) hk
    intro phase block hfed
    obtain ⟨primary, batch, hprimary, rfl⟩ := feed?_of_isFed hfed hf
    refine ⟨primary, ?_, ?_⟩
    · rw [← hprimary]
      apply isPrimary_congr
      exact findChildren_setValue (by decide) ..
    · intro d hd _
      rw [Option.bind_some, Feed.source?, hd] at hs
      cases hs
      exact findValue_setValue ..

theorem isBound_rebindData (hk : LayerKind.ofNode l = .ok kind) (h : rebindData b kind l = .ok r) :
    IsBound b r.layer ∧ r.layer.name = l.name := by
  obtain ⟨feed, hf, h⟩ := bind_eq_ok.mp h
  obtain ⟨cropped, hc, h⟩ := bind_eq_ok.mp h
  cases h
  have hbound := isBound_of_feed? (b := b) hk hf
  constructor
  · rcases recrop_eq_ok hc with rfl | ⟨-, rfl⟩
    · exact hbound
    · apply hbound.modifyChild (keepsSource_setValue (by decide) (by decide) ..)
      simp [IsInner]
  · have hname : cropped.name = (match feed.bind (Feed.source? b) with
        | some s => l.modifyChild (sourceBlockName kind) fun block =>
          block.setValue "source" s.name (some .string)
        | none => l).name := by
      rcases recrop_eq_ok hc with rfl | ⟨-, rfl⟩ <;> rfl
    rw [hname]
    split <;> rfl

theorem isBound_rebindLayer (h : rebindLayer b l = .ok r) :
    IsBound b r.layer ∧ r.layer.name = l.name := by
  obtain ⟨kind, hk, h⟩ := bind_eq_ok.mp h
  split at h
  · exact isBound_rebindData hk h
  · next hd =>
    cases h
    refine ⟨?_, rfl⟩
    intro kind' phase block source hfed
    obtain rfl : kind = kind' := Except.ok.inj (hk.symm.trans hfed.ofKind)
    exact absurd hfed.isData hd

def OnKey (b : Binding) (key : String) (r : Rebound) : Prop :=
  IsBound b r.layer ∧ r.layer.name = key

theorem OnKey.setBatch {key : String} (h : OnKey b key r) (size : Int) :
    OnKey b key (r.setBatch size) := by
  refine ⟨?_, h.2⟩
  apply h.1.modifyChild (keepsSource_setValue (by decide) (by decide) ..)
  exact isInner_sourceBlockName r.kind

theorem OnKey.setOutput {key : String} (h : OnKey b key r) (count : Nat) :
    OnKey b key (r.setOutput count) := by
  refine ⟨?_, h.2⟩
  have hf : ∀ c : Node, (c.withValue (toString count) .numeric).name = c.name := fun c => rfl
  apply h.1.modifyChild (keepsSource_modifyChild (by decide) (by decide) hf)
  simp [IsInner]

theorem onKey_raiseBatch {key : String} {rs : List Rebound} (h : ∀ r ∈ rs, OnKey b key r) :
    ∀ r ∈ raiseBatch rs, OnKey b key r := by
  intro r hr
  unfold raiseBatch at hr
  dsimp only at hr
  split at hr
  · split at hr
    · rcases mem_modifyLast hr with hr | ⟨s, hs, rfl⟩
      · exact h r hr
      · exact (h s (List.mem_reverse.mp (List.mem_of_find?_eq_some hs))).setBatch _
    · exact h r hr
  · exact h r hr

theorem length_raiseBatch (rs : List Rebound) : (raiseBatch rs).length = rs.length := by
  unfold raiseBatch
  dsimp only
  split
  · split
    · exact length_modifyLast rs
    · rfl
  · rfl

theorem map_beforeLoss (rs : List Rebound) : (beforeLoss rs).map Prod.fst = rs := by
  induction rs with
  | nil => rfl
  | cons r rs ih => rw [beforeLoss, List.map_cons, ih]

theorem beforeLoss_map {g : Rebound × Bool → Rebound} (hg : ∀ s, (g s).kind = s.1.kind)
    (rs : List Rebound) :
    beforeLoss ((beforeLoss rs).map g) = (beforeLoss rs).map fun s => (g s, s.2) := by
  induction rs with
  | nil => rfl
  | cons r rs ih =>
    have hnext : (((beforeLoss rs).map g).head?.any fun s => s.kind.isLoss) =
        rs.head?.any fun s => s.kind.isLoss := by
      cases rs with
      | nil => rfl
      | cons s rs => simp only [beforeLoss, List.map_cons, List.head?_cons, Option.any_some, hg]
    rw [beforeLoss, List.map_cons, beforeLoss, ih, hnext, List.map_cons]

theorem getElem?_beforeLoss (rs : List Rebound) (i : Nat) :
    (beforeLoss rs)[i]? = rs[i]?.map fun r => (r, rs[i + 1]?.any fun s => s.kind.isLoss) := by
  induction rs generalizing i with
  | nil => rfl
  | cons r rs ih =>
    cases i with
    | zero => rw [beforeLoss, List.head?_eq_getElem?]; rfl
    | succ i => rw [beforeLoss, List.getElem?_cons_succ, List.getElem?_cons_succ, ih]; rfl

theorem beforeLoss_mapped (g : Rebound → Rebound) (hg : ∀ r, (g r).kind = r.kind) (rs : List Rebound) :
    beforeLoss (rs.map g) = (beforeLoss rs).map (Prod.map g id) := by
  conv => lhs; rw [← map_beforeLoss rs, List.map_map]
  exact beforeLoss_map (fun s => hg s.1) rs

theorem onSources_withLayers {rs : List Rebound} (h : ∀ r ∈ rs, OnKey b (layerKey n) r)
    (hl : rs.length = (layers n).length) :
    OnSources b (withLayers n (rs.map fun r => some r.layer)) := by
  have hmap : (rs.map fun r => some r.layer) = (rs.map Rebound.layer).map some := by
    rw [List.map_map]
    rfl
  intro l hmem
  rw [hmap, layers_withLayers] at hmem
  · obtain ⟨r, hr, rfl⟩ := List.mem_map.mp hmem
    exact (h r hr).1
  · intro l hl
    obtain ⟨r, hr, rfl⟩ := List.mem_map.mp hl
    exact (h r hr).2
  · rw [List.length_map, hl]

theorem onSources_rebind {resize resized : Bool} (h : rebind b resize n = .ok (m, resized)) :
    OnSources b m := by
  obtain ⟨rs, hrs, h⟩ := bind_eq_ok.mp h
  obtain ⟨hlength, hstep⟩ := of_mapM hrs
  have hkey : ∀ r ∈ raiseBatch rs, OnKey b (layerKey n) r := by
    apply onKey_raiseBatch
    intro r hr
    obtain ⟨l, hl, hr⟩ := hstep r hr
    obtain ⟨hbound, hname⟩ := isBound_rebindLayer hr
    exact ⟨hbound, hname.trans (name_of_mem_layers hl)⟩
  have hbefore : ∀ s ∈ beforeLoss (raiseBatch rs), OnKey b (layerKey n) s.1 := by
    intro s hs
    apply hkey
    rw [← map_beforeLoss (raiseBatch rs)]
    exact List.mem_map_of_mem hs
  have hcount : (beforeLoss (raiseBatch rs)).length = (layers n).length := by
    rw [← List.length_map Prod.fst, map_beforeLoss, length_raiseBatch, hlength]
  dsimp only at h
  split at h
  · split at h <;> cases h
    apply onSources_withLayers
    · intro r hr
      obtain ⟨s, hs, rfl⟩ := List.mem_map.mp hr
      split
      · exact (hbefore s hs).setOutput _
      · exact hbefore s hs
    · rw [List.length_map, hcount]
  · cases h
    have hmap : ((beforeLoss (raiseBatch rs)).map fun r => some r.1.layer) =
        ((beforeLoss (raiseBatch rs)).map Prod.fst).map fun r => some r.layer := by
      rw [List.map_map]
      rfl
    rw [hmap]
    apply onSources_withLayers
    · rw [map_beforeLoss]
      exact hkey
    · rw [List.length_map, hcount]

end Rebinding

section Training

variable {n r l block : Node} {settings : Settings} {name source : String} {native : Bool}
  {kind : LayerKind} {phase p : Phase}

theorem isFed_dataLayer {key : String}
    (h : IsFed (dataLayer key name p native source settings) kind phase block) :
    phase = p ∧ block.findValue "source" = some source := by
  have hk := h.ofKind
  rw [LayerKind.ofNode_of_findValue (findValue_type_dataLayer ..)] at hk
  cases hk
  have hp := h.inPhase
  have hb := h.hasBlock
  have hinclude : includePhase (dataLayer key name p native source settings) = .ok p := by
    rw [includePhase, findChild_eq_head?, findChildren_dataLayer _ _ _ _ _ _ _ (.inl rfl), if_pos rfl]
    simp [findValue, findChild, Node.block, leaf, parsePhase_name]
  rw [hinclude] at hp
  cases hp
  refine ⟨rfl, ?_⟩
  simp [dataLayer, nameData, dataFields, sourceBlockName, findChild, modifyChild, modifyFirst,
    Node.insert, insertAt, Node.block, leaf] at hb
  rw [← hb]
  simp [findValue, findChild]

theorem not_isFed_toLoss : ¬ IsFed (toLoss settings l) kind phase block := by
  intro h
  have hk := h.ofKind
  rw [LayerKind.ofNode_of_findValue (findValue_toLoss ..)] at hk
  cases hk
  simpa using h.feeds

theorem not_isFed_accuracyLayer {key bottom : String} :
    ¬ IsFed (accuracyLayer key bottom settings) kind phase block := by
  intro h
  have hk := h.ofKind
  rw [ofNode_accuracyLayer] at hk
  cases hk
  simpa using h.feeds

theorem not_feeds_of_any {scanned : List (Traits × Node)} (hm : scanned.map Prod.snd = layers n)
    (ht : ∀ s ∈ scanned, traits s.2 = .ok s.1)
    (h : ((staying scanned).map Prod.fst).any (Traits.feeds phase) = false) :
    ∀ k ∈ layers n, Trains k → ¬ Feeds phase k := by
  intro k hk htrains hfeeds
  rw [← hm] at hk
  obtain ⟨s, hs, rfl⟩ := List.mem_map.mp hk
  have hstay := mem_staying hs (ht s hs) htrains
  obtain ⟨t, hst, hf⟩ := hfeeds
  obtain rfl : s.1 = t := Except.ok.inj ((ht s hs).symm.trans hst)
  have hany := List.any_eq_false.mp h s.1 (List.mem_map_of_mem hstay)
  exact hany (Traits.feeds_iff.mpr hf)

theorem isFed_forTraining (h : forTraining settings name native n = .ok r) (hl : l ∈ layers r)
    (hfed : IsFed l kind phase block) :
    l ∈ layers n ∨ (l = dataLayer (layerKey n) name phase native "" settings ∧
      ∀ k ∈ layers n, Trains k → ¬ Feeds phase k) := by
  obtain ⟨scanned, hm, ht, -, hr⟩ := layers_completed h
  rw [hr] at hl
  rcases List.mem_append.mp hl with hl | hl
  · rcases mem_withData.mp hl with hl | ⟨hnone, rfl⟩ | ⟨hnone, rfl⟩
    · obtain ⟨s, hs, rfl | ⟨-, rfl⟩⟩ := mem_withLoss hl
      · left
        rw [← hm]
        exact List.mem_map_of_mem (List.mem_filter.mp hs).1
      · exact absurd hfed not_isFed_toLoss
    · obtain ⟨rfl, -⟩ := isFed_dataLayer hfed
      exact .inr ⟨rfl, not_feeds_of_any hm ht hnone⟩
    · obtain ⟨rfl, -⟩ := isFed_dataLayer hfed
      exact .inr ⟨rfl, not_feeds_of_any hm ht hnone⟩
  · obtain ⟨b, rfl⟩ := accuracyFor?_eq_some (Option.mem_toList.mp hl)
    exact absurd hfed not_isFed_accuracyLayer

end Training

end NetDesc.Network
