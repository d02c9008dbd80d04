import NetDesc.Proofs.Layer.Slots
import NetDesc.Proofs.Record.Json

namespace NetDesc

namespace Layer

/-- All numbers pass a test, every record is one of its class as the checks leave it, and only legal
slots are filled. What is never written stands at its default. -/
structure Fits (test : Json → Bool) (l : Layer) : Prop where
  lossWeight : ∀ x ∈ l.lossWeight, test (.float x) = true
  parameters : ∀ r ∈ l.parameters, r.fits test .paramSpec = true
  blobs : ∀ r ∈ l.blobs, r.fits test .blob = true
  includeRules : ∀ r ∈ l.includeRules, r.fits test .stateRule = true
  excludeRules : ∀ r ∈ l.excludeRules, r.fits test .stateRule = true
  limits : (l.maxBottomCount.map Prod.fst).Nodup
  arranged : IsArranged l.params
  params : ∀ p ∈ l.params, p.1 ∈ l.kind.legalSlots ∧ p.2.fits test p.1.recordClass = true
  solverCount : l.solverCount = 1
  solverRank : l.solverRank = 0

theorem Fits.mono {test test' : Json → Bool} (ht : ∀ j, test j = true → test' j = true) {l : Layer}
    (h : l.Fits test) : l.Fits test' :=
  { h with
    lossWeight := fun x hx => ht _ (h.lossWeight x hx)
    parameters := fun r hr => Record.fits_mono ht (h.parameters r hr)
    blobs := fun r hr => Record.fits_mono ht (h.blobs r hr)
    includeRules := fun r hr => Record.fits_mono ht (h.includeRules r hr)
    excludeRules := fun r hr => Record.fits_mono ht (h.excludeRules r hr)
    params := fun p hp => ⟨(h.params p hp).1, Record.fits_mono ht (h.params p hp).2⟩ }

theorem nodup_maxBottom (kind : LayerKind) : (kind.spec.maxBottom.map Prod.fst).Nodup := by
  cases kind <;> decide

theorem isArranged_nil : IsArranged [] :=
  List.nil_sublist _

theorem isArranged_fill (kind : LayerKind) {params : List (Slot × Record)} (h : IsArranged params)
    (slots : List Slot) :
    IsArranged (slots.foldl (fun ps s => putParam ps s (standardRecord kind s)) params) := by
  induction slots generalizing params with
  | nil => exact h
  | cons s slots ih =>
    refine ih ?_
    dsimp only
    rw [putParam_eq_arrange]
    exact isArranged_arrange _

theorem isArranged_create (kind : LayerKind) (name : String) :
    IsArranged (create kind name).params :=
  isArranged_fill kind isArranged_nil kind.spec.slots

theorem fits_standardRecord (kind : LayerKind) (s : Slot) :
    (standardRecord kind s).fits Json.isWritten s.recordClass = true := by
  unfold standardRecord
  split
  · next h =>
    rw [h.2]
    decide +kernel
  · exact Record.fits_standard s.recordClass

theorem forall_fill {P : Slot × Record → Prop} (kind : LayerKind) {slots : List Slot}
    (hs : ∀ s ∈ slots, P (s, standardRecord kind s)) {params : List (Slot × Record)}
    (h : ∀ p ∈ params, P p) :
    ∀ p ∈ slots.foldl (fun ps s => putParam ps s (standardRecord kind s)) params, P p := by
  induction slots generalizing params with
  | nil => exact h
  | cons s slots ih =>
    rw [List.forall_mem_cons] at hs
    apply ih hs.2
    intro p hp
    rcases mem_putParam hp with rfl | hp
    · exact hs.1
    · exact h p hp

theorem fits_params_create (kind : LayerKind) : ∀ p ∈ (create kind "").params,
    p.1 ∈ kind.legalSlots ∧ p.2.fits Json.isWritten p.1.recordClass = true := by
  refine forall_fill kind (fun s hs => ⟨?_, fits_standardRecord kind s⟩) (List.forall_mem_nil _)
  exact List.mem_append_left _ hs

theorem keys_create (kind : LayerKind) (name : String) :
    (create kind name).params.map Prod.fst ⊆ kind.spec.slots := by
  intro s hs
  obtain ⟨p, hp, rfl⟩ := List.mem_map.mp hs
  have hkeys := forall_fill (P := fun p => p.1 ∈ kind.spec.slots) kind (fun s hs => hs)
    (List.forall_mem_nil _)
  exact hkeys p hp

theorem fits_create_of {test : Json → Bool} (kind : LayerKind) (name : String)
    (h : ∀ p ∈ (create kind "").params,
      p.1 ∈ kind.legalSlots ∧ p.2.fits test p.1.recordClass = true) :
    (create kind name).Fits test where
  lossWeight _ h := by cases h
  parameters _ h := by cases h
  blobs _ h := by cases h
  includeRules _ h := by cases h
  excludeRules _ h := by cases h
  limits := nodup_maxBottom kind
  arranged := isArranged_create kind name
  params := h
  solverCount := rfl
  solverRank := rfl

theorem fits_create (kind : LayerKind) (name : String) : (create kind name).Fits Json.isNumeric :=
  fits_create_of kind name fun p hp => (fits_params_create kind p hp).imp_right
    (Record.fits_mono fun _ => Json.isNumeric_of_isWritten)

def rereadParams (m : Rereading) (params : List (Slot × Record)) : List (Slot × Record) :=
  params.map fun p => (p.1, p.2.reread m)

theorem keys_rereadParams (m : Rereading) (params : List (Slot × Record)) :
    (rereadParams m params).map Prod.fst = params.map Prod.fst := by
  rw [rereadParams, List.map_map]
  rfl

def reread (m : Rereading) (l : Layer) : Layer :=
  { l with
    lossWeight := l.lossWeight.map m.number
    parameters := l.parameters.map (Record.reread m)
    blobs := l.blobs.map (Record.reread m)
    includeRules := l.includeRules.map (Record.reread m)
    excludeRules := l.excludeRules.map (Record.reread m)
    params := rereadParams m l.params }

variable {m : Rereading} {test : Json → Bool}

theorem sameRecords_reread (hm : m.Keeps test) {c : RecordClass} {rs : List Record}
    (h : ∀ r ∈ rs, r.fits test c = true) : sameRecords rs (rs.map (Record.reread m)) = true := by
  induction rs with
  | nil => rfl
  | cons r rs ih =>
    have hr : r.value.same (r.reread m).value = true :=
      Record.same_reread hm (h r (List.mem_cons_self ..))
    have hrs := ih fun s hs => h s (List.mem_cons_of_mem r hs)
    exact Bool.and_eq_true_iff.mpr ⟨hr, hrs⟩

theorem sameParams_reread (hm : m.Keeps test) {params : List (Slot × Record)}
    (h : ∀ p ∈ params, p.2.fits test p.1.recordClass = true) :
    sameParams params (rereadParams m params) = true := by
  induction params with
  | nil => rfl
  | cons p ps ih =>
    have hp := Record.same_reread hm (h p (List.mem_cons_self ..))
    have hps := ih fun q hq => h q (List.mem_cons_of_mem p hq)
    simpa [sameParams, rereadParams, hp] using hps

theorem sameWeights_reread (hm : m.Keeps test) {xs : List Decimal.Double}
    (h : ∀ x ∈ xs, test (.float x) = true) : sameWeights xs (xs.map m.number) = true := by
  induction xs with
  | nil => rfl
  | cons x xs ih =>
    have hx := hm x (h x (List.mem_cons_self ..))
    have hxs := ih fun y hy => h y (List.mem_cons_of_mem x hy)
    exact Bool.and_eq_true_iff.mpr ⟨hx, hxs⟩

theorem sameLimits_self {limits : List (Phase × Int)} (h : (limits.map Prod.fst).Nodup) :
    sameLimits limits limits = true := by
  have hn : (([] : List (Phase × Int)).map Prod.fst).Nodup := List.nodup_nil
  have hs := sameLimits_foldl_putLimit hn h (List.nil_subset _)
  rwa [foldl_putLimit_nil h] at hs

theorem same_reread (hm : m.Keeps test) {l : Layer} (h : l.Fits test) {limits : List (Phase × Int)}
    (hl : sameLimits l.maxBottomCount limits = true) :
    l.same { l.reread m with maxBottomCount := limits } = true := by
  simp only [same, reread, sameWeights_reread hm h.lossWeight, sameRecords_reread hm h.parameters,
    sameRecords_reread hm h.blobs, sameRecords_reread hm h.includeRules,
    sameRecords_reread hm h.excludeRules, hl, sameParams_reread hm fun p hp => (h.params p hp).2,
    beq_self_eq_true, Bool.and_self]

end Layer

end NetDesc
