import NetDesc.Layer.Stream
import NetDesc.Proofs.Layer.Tree
import NetDesc.Proofs.Stream.Yields

namespace NetDesc.Layer

def IsLegal (kind : LayerKind) (p : Slot × Record) : Prop :=
  p.1 ∈ kind.legalSlots ∧ p.2.recordClass = p.1.recordClass

def HasLegalSlots (l : Layer) : Prop :=
  ∀ p ∈ l.params, IsLegal l.kind p

section Filling

variable {kind : LayerKind} {params : List (Slot × Record)} {s t : Slot} {r : Record}

theorem lookup_putParam :
    (putParam params s r).lookup t = if t = s then some r else params.lookup t := by
  rw [putParam_eq_arrange, lookup_arrange]

theorem isSome_putParam (h : (params.lookup t).isSome = true) :
    ((putParam params s r).lookup t).isSome = true := by
  rw [lookup_putParam]
  split
  · rfl
  · exact h

theorem legal_putParam (h : ∀ p ∈ params, IsLegal kind p) (hs : IsLegal kind (s, r)) :
    ∀ p ∈ putParam params s r, IsLegal kind p := by
  intro p hp
  rcases mem_putParam hp with rfl | hp
  · exact hs
  · exact h p hp

theorem legal_foldl {added : List (Slot × Record)} (h : ∀ p ∈ params, IsLegal kind p)
    (ha : ∀ p ∈ added, IsLegal kind p) :
    ∀ p ∈ added.foldl (fun ps p => putParam ps p.1 p.2) params, IsLegal kind p := by
  induction added generalizing params with
  | nil => exact h
  | cons q added ih =>
    rw [List.forall_mem_cons] at ha
    exact ih (legal_putParam h ha.1) ha.2

theorem legal_dropParam (h : ∀ p ∈ params, IsLegal kind p) :
    ∀ p ∈ dropParam params s, IsLegal kind p := by
  intro p hp
  exact h p (List.mem_of_mem_filter hp)

theorem isSome_fill {f : Slot → Record} (slots : List Slot)
    (h : t ∈ slots ∨ (params.lookup t).isSome = true) :
    ((slots.foldl (fun ps s => putParam ps s (f s)) params).lookup t).isSome = true := by
  induction slots generalizing params with
  | nil => exact h.resolve_left List.not_mem_nil
  | cons s slots ih =>
    apply ih
    by_cases ht : t = s
    · right
      rw [lookup_putParam, if_pos ht]
      rfl
    · rcases h with h | h
      · exact .inl ((List.mem_cons.mp h).resolve_left ht)
      · exact .inr (isSome_putParam h)

end Filling

section Making

variable {kind : LayerKind} {params ps : List (Slot × Record)} {l : Layer} {n : Node}

theorem legal_create (kind : LayerKind) (name : String) : (create kind name).HasLegalSlots := by
  intro p hp
  obtain ⟨hs, hf⟩ := fits_params_create kind p hp
  exact ⟨hs, (Record.fits_iff.mp hf).1⟩

theorem isSome_param_create (name : String) {s : Slot} (hs : s ∈ kind.spec.slots) :
    ((create kind name).params.lookup s).isSome = true :=
  isSome_fill kind.spec.slots (.inl hs)

theorem recordClass_ofNode {c : RecordClass} {r : Record} (h : Record.ofNode c n = .ok r) :
    r.recordClass = c := by
  obtain ⟨name, value, valueType, children⟩ := n
  rw [Record.ofNode, Record.ofChildren] at h
  obtain ⟨read, -, h⟩ := bind_eq_ok.mp h
  cases ha : Record.assemble c read.flatten with
  | error e =>
    rw [ha] at h
    cases h
  | ok s =>
    rw [ha] at h
    cases h
    exact Record.recordClass_assemble ha

theorem of_readSlots {P : List (Slot × Record) → Prop}
    (hput : ∀ params s r n, s ∈ kind.legalSlots → Record.ofNode s.recordClass n = .ok r → P params →
      P (putParam params s r))
    {nodes : List Node} (hp : P params) (h : (readSlots kind params nodes).2 = .ok ps) : P ps := by
  induction nodes generalizing params with
  | nil =>
    cases h
    exact hp
  | cons n nodes ih =>
    unfold readSlots at h
    split at h
    · exact ih hp h
    · next s _ =>
      split at h
      · exact ih hp h
      · next hc =>
        split at h
        · next r hr =>
          have hs : s ∈ kind.legalSlots := by simpa using hc
          exact ih (hput params s r n hs hr hp) h
        · cases h

theorem of_ofNode {P : List (Slot × Record) → Prop} (h : ofNode n = .ok l)
    (hput : ∀ params s r n, s ∈ l.kind.legalSlots → Record.ofNode s.recordClass n = .ok r →
      P params → P (putParam params s r))
    (hcreate : P (create l.kind l.name).params) : P l.params := by
  rw [ofNode, decode] at h
  split at h
  · cases h
  · next m hm =>
    obtain ⟨ps, hps, rfl⟩ := map_eq_ok.mp h
    obtain ⟨-, hparams, -⟩ := of_readFields hm
    have hm' : P m.params := by
      rw [hparams]
      exact hcreate
    exact of_readSlots hput hm' hps

theorem legal_ofNode (h : ofNode n = .ok l) : l.HasLegalSlots := by
  apply of_ofNode (P := fun params => ∀ p ∈ params, IsLegal l.kind p) h
  · intro params s r m hs hr hp
    exact legal_putParam hp ⟨hs, recordClass_ofNode hr⟩
  · exact legal_create l.kind l.name

theorem isSome_param_ofNode (h : ofNode n = .ok l) {s : Slot} (hs : s ∈ l.kind.spec.slots) :
    (l.param? s).isSome = true := by
  unfold param?
  apply of_ofNode (P := fun params => (params.lookup s).isSome = true) h
  · intro params t r m _ _ hp
    exact isSome_putParam hp
  · exact isSome_param_create l.name hs

theorem yields_readParam (kind : LayerKind) : (readParam kind).Yields (IsLegal kind) := by
  refine Reader.yields_bind fun s => ?_
  split
  · exact (Reader.yields_throw (P := fun _ => False) _).bind fun _ h => h.elim
  · next hc =>
    have hs : s ∈ kind.legalSlots := by simpa using hc
    refine (Reader.yields_record s.recordClass).bind fun r hr => ?_
    exact Reader.yields_pure ⟨hs, hr⟩

theorem yields_read : read.Yields HasLegalSlots := by
  refine Reader.yields_bind fun kind => ?_
  refine Reader.yields_bind fun name => ?_
  refine Reader.yields_bind fun bottom => ?_
  refine Reader.yields_bind fun top => ?_
  refine Reader.yields_bind fun phase => ?_
  refine Reader.yields_bind fun lossWeight => ?_
  refine Reader.yields_bind fun parameters => ?_
  refine Reader.yields_bind fun blobs => ?_
  refine Reader.yields_bind fun propagateDown => ?_
  refine Reader.yields_bind fun includeRules => ?_
  refine Reader.yields_bind fun excludeRules => ?_
  refine Reader.yields_bind fun limits => ?_
  refine (yields_readParam kind).list.bind fun params hparams => ?_
  exact Reader.yields_pure (legal_foldl (List.forall_mem_nil _) hparams)

theorem legal_ofBytes {bs : Bytes} (h : ofBytes bs = .ok l) : l.HasLegalSlots :=
  yields_read bs l (Reader.run read bs).2 (Prod.ext h rfl)

end Making

/-- A failure keeps the layer as the statements before it made it. -/
abbrev Action (α : Type) := EStateM Failure Layer α

namespace Action

variable {l : Layer}

def setParam (slotName : String) (r : Option Record) : Action Unit := do
  match Slot.ofName? slotName with
  | none => throw (.unknown "parameter block" slotName)
  | some s =>
    let kind := (← get).kind
    if !kind.legalSlots.contains s then
      throw (.undecodable (.illegalSlot s.name kind.name))
    else
      match r with
      | none => modify fun l => { l with params := dropParam l.params s }
      | some r =>
        if r.recordClass = s.recordClass then
          modify fun l => { l with params := putParam l.params s r }
        else
          throw (.undecodable (.wrongRecord s.name s.recordClass.name r.recordClass.name))

def share (o : Layer) (s : Slot) : Action Unit :=
  match o.param? s with
  | some r => modify fun l => { l with params := putParam l.params s r }
  | none => pure ()

def copyDefaults (other : Option Layer) : Action Unit := do
  match other with
  | none => pure ()
  | some o =>
    let kind := (← get).kind
    if o.kind ≠ kind then throw (.otherKind o.kind.name kind.name)
    else
      modify fun l => { l with includeRules := o.includeRules }
      modify fun l => { l with excludeRules := o.excludeRules }
      modify fun l => { l with parameters := o.parameters }
      forM (sharedSlots kind) (share o)

def next (x : Action Unit) (l : Layer) : Layer :=
  match x.run l with
  | .ok _ m => m
  | .error _ m => m

theorem run_setParam (slotName : String) (r : Option Record) :
    (setParam slotName r).run l = match l.setParam slotName r with
      | .ok m => .ok () m
      | .error e => .error e l := by
  unfold setParam Layer.setParam
  cases Slot.ofName? slotName with
  | none => rfl
  | some s =>
    simp only [run_bind, run_get]
    split
    · rfl
    · cases r with
      | none => rfl
      | some r =>
        simp only
        split
        · rfl
        · rfl

theorem run_share (o : Layer) (slots : List Slot) :
    (forM slots (share o)).run l = .ok () { l with
      params := slots.foldl (fun ps s =>
        match o.param? s with
        | some r => putParam ps s r
        | none => ps) l.params } := by
  induction slots generalizing l with
  | nil => rfl
  | cons s slots ih =>
    rw [List.forM_cons, run_bind, List.foldl_cons, share]
    cases o.param? s with
    | none => exact ih
    | some r => exact ih

theorem run_copyDefaults (other : Option Layer) :
    (copyDefaults other).run l = match l.copyDefaults other with
      | .ok m => .ok () m
      | .error e => .error e l := by
  unfold copyDefaults Layer.copyDefaults
  cases other with
  | none => rfl
  | some o =>
    simp only [run_bind, run_get]
    split
    · rfl
    · simp only [run_bind, run_modify]
      exact run_share o (sharedSlots l.kind)

end Action

section Changing

variable {l m o : Layer} {slotName : String} {r : Option Record} {other : Option Layer}

theorem legal_setParam (hl : l.HasLegalSlots) (h : l.setParam slotName r = .ok m) :
    m.HasLegalSlots := by
  unfold setParam at h
  split at h
  · cases h
  · next s _ =>
    split at h
    · cases h
    · next hc =>
      have hs : s ∈ l.kind.legalSlots := by simpa using hc
      cases r with
      | none =>
        cases h
        exact legal_dropParam hl
      | some r =>
        dsimp only at h
        split at h
        · next hr =>
          cases h
          exact legal_putParam hl ⟨hs, hr⟩
        · cases h

theorem legal_foldl_share {kind : LayerKind} {params : List (Slot × Record)} (slots : List Slot)
    (hk : o.kind = kind) (ho : o.HasLegalSlots) (h : ∀ p ∈ params, IsLegal kind p) :
    ∀ p ∈ slots.foldl (fun ps s =>
      match o.param? s with
      | some r => putParam ps s r
      | none => ps) params, IsLegal kind p := by
  induction slots generalizing params with
  | nil => exact h
  | cons s slots ih =>
    rw [List.foldl_cons]
    apply ih
    split
    · next r hr =>
      -- What is legal in the other layer is legal here, since the kinds are the same.
      have hs : IsLegal kind (s, r) := hk ▸ ho (s, r) (mem_of_lookup hr)
      exact legal_putParam h hs
    · exact h

theorem legal_copyDefaults (hl : l.HasLegalSlots) (ho : ∀ o, other = some o → o.HasLegalSlots)
    (h : l.copyDefaults other = .ok m) : m.HasLegalSlots := by
  unfold copyDefaults at h
  cases other with
  | none =>
    cases h
    exact hl
  | some o =>
    dsimp only at h
    split at h
    · cases h
    · next hk =>
      cases h
      exact legal_foldl_share (sharedSlots l.kind) (not_not.mp hk) (ho o rfl) hl

theorem next_setParam : Action.next (Action.setParam slotName r) l =
    match l.setParam slotName r with
    | .ok m => m
    | .error _ => l := by
  rw [Action.next, Action.run_setParam]
  cases l.setParam slotName r <;> rfl

theorem next_copyDefaults : Action.next (Action.copyDefaults other) l =
    match l.copyDefaults other with
    | .ok m => m
    | .error _ => l := by
  rw [Action.next, Action.run_copyDefaults]
  cases l.copyDefaults other <;> rfl

end Changing

/-- The layers that are made or read, and those that they become, whether a change fails or not. -/
inductive Obtained : Layer → Prop where
  | create (kind : LayerKind) (name : String) : Obtained (create kind name)
  | ofNode {n : Node} {l : Layer} (h : ofNode n = .ok l) : Obtained l
  | ofBytes {bs : Bytes} {l : Layer} (h : ofBytes bs = .ok l) : Obtained l
  | setParam {l : Layer} (h : Obtained l) (slotName : String) (r : Option Record) :
    Obtained (Action.next (Action.setParam slotName r) l)
  | copyDefaults {l : Layer} (h : Obtained l) {other : Option Layer}
    (ho : ∀ o, other = some o → Obtained o) :
    Obtained (Action.next (Action.copyDefaults other) l)
  | clone {l : Layer} (h : Obtained l) (keepBlobs : Bool) : Obtained (l.clone keepBlobs)

section Obtaining

variable {l : Layer}

theorem Obtained.hasLegalSlots (h : Obtained l) : l.HasLegalSlots := by
  induction h with
  | create kind name => exact legal_create kind name
  | ofNode h => exact legal_ofNode h
  | ofBytes h => exact legal_ofBytes h
  | setParam h slotName r ih =>
    rw [next_setParam]
    split
    · next m hm => exact legal_setParam ih hm
    · exact ih
  | copyDefaults h ho ih iho =>
    rw [next_copyDefaults]
    split
    · next m hm => exact legal_copyDefaults ih iho hm
    · exact ih
  | clone h keepBlobs ih =>
    unfold Layer.clone
    split
    · exact ih
    · exact ih

/-- Only legal slots are filled, each with a record of its class; a change that fails leaves the
layer as it was, and a layer that is read from a tree has the slots of its kind. -/
theorem legal_of_obtained (h : Obtained l) :
    (∀ p ∈ l.params, p.1 ∈ l.kind.legalSlots ∧ p.2.recordClass = p.1.recordClass) ∧
      (∀ slotName r e m, (Action.setParam slotName r).run l = .error e m → m = l) ∧
      (∀ other e m, (Action.copyDefaults other).run l = .error e m → m = l) ∧
      (∀ n, ofNode n = .ok l → ∀ s ∈ l.kind.spec.slots, (l.param? s).isSome = true) := by
  refine ⟨h.hasLegalSlots, ?_, ?_, ?_⟩
  · intro slotName r e m hm
    rw [Action.run_setParam] at hm
    split at hm
    · cases hm
    · cases hm
      rfl
  · intro other e m hm
    rw [Action.run_copyDefaults] at hm
    split at hm
    · cases hm
    · cases hm
      rfl
  · intro n hn s hs
    exact isSome_param_ofNode hn hs

end Obtaining

def dataNode : Node :=
  .block "layer" [.leaf "type" "Data" .string, .block "data_param" [.leaf "source" "a" .string],
    .block "relu_param" []]

def fillRelu : Action Unit :=
  Action.setParam "relu_param" (some (.standard .relu))

def copyRelu : Action Unit :=
  Action.copyDefaults (some (create .relu "relu"))

theorem legal_of_obtained_data : ∃ l, Obtained l ∧ ofNode dataNode = .ok l ∧
    (∀ p ∈ l.params, p.1 ∈ l.kind.legalSlots ∧ p.2.recordClass = p.1.recordClass) ∧
    (∃ e m, fillRelu.run l = .error e m ∧ m = l) ∧ (∃ e m, copyRelu.run l = .error e m ∧ m = l) ∧
    ∀ s ∈ l.kind.spec.slots, (l.param? s).isSome = true := by
  have hok : (ofNode dataNode).toOption.any (fun l =>
      failsWith fillRelu l (fun _ _ => true) && failsWith copyRelu l fun _ _ => true) = true := by
    decide +kernel
  obtain ⟨l, hl, hfails⟩ := exists_ok hok
  obtain ⟨hslots, hset, hcopy, hdefaults⟩ := legal_of_obtained (.ofNode hl)
  obtain ⟨hfill, hshare⟩ := Bool.and_eq_true_iff.mp hfails
  obtain ⟨e, m, hm, -⟩ := exists_of_failsWith hfill
  obtain ⟨e', m', hm', -⟩ := exists_of_failsWith hshare
  exact ⟨l, .ofNode hl, hl, hslots, ⟨e, m, hm, hset _ _ e m hm⟩, ⟨e', m', hm', hcopy _ e' m' hm'⟩,
    hdefaults dataNode hl⟩

end NetDesc.Layer
