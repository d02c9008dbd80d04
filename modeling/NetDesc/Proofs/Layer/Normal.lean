import NetDesc.Proofs.Layer.Legal
import NetDesc.Proofs.Record.Decoded

namespace NetDesc.Layer

open Decimal

section Fields

variable {n : Node} {l : Layer}

structure ReadFrom (n : Node) (l : Layer) : Prop where
  kind : LayerKind.ofNode n = .ok l.kind
  phase : (n.findValue "phase").mapM parsePhase = .ok l.phase
  lossWeight : n.findDoubles "loss_weight" = .ok l.lossWeight
  propagateDown : n.findBools "propagate_down" = .ok l.propagateDown
  parameters : (n.findChildren "param").mapM (Record.ofNode .paramSpec) = .ok l.parameters
  blobs : (n.findChildren "blobs").mapM (Record.ofNode .blob) = .ok l.blobs
  includeRules : (n.findChildren "include").mapM (Record.ofNode .stateRule) = .ok l.includeRules
  excludeRules : (n.findChildren "exclude").mapM (Record.ofNode .stateRule) = .ok l.excludeRules
  limits : readLimits l.kind.spec.maxBottom (n.findChildren "max_bottom_count") =
    .ok l.maxBottomCount
  solverCount : l.solverCount = 1
  solverRank : l.solverRank = 0

theorem readFrom_of_readFields (h : readFields n = .ok l) : ReadFrom n l := by
  obtain ⟨kind, hk, h⟩ := bind_eq_ok.mp h
  obtain ⟨phase, hphase, h⟩ := bind_eq_ok.mp h
  obtain ⟨lossWeight, hweight, h⟩ := bind_eq_ok.mp h
  obtain ⟨parameters, hparameters, h⟩ := bind_eq_ok.mp h
  obtain ⟨blobs, hblobs, h⟩ := bind_eq_ok.mp h
  obtain ⟨propagateDown, hdown, h⟩ := bind_eq_ok.mp h
  obtain ⟨includeRules, hinclude, h⟩ := bind_eq_ok.mp h
  obtain ⟨excludeRules, hexclude, h⟩ := bind_eq_ok.mp h
  obtain ⟨limits, hl, h⟩ := bind_eq_ok.mp h
  cases h
  exact ⟨hk, hphase, hweight, hdown, hparameters, hblobs, hinclude, hexclude, hl, rfl, rfl⟩

theorem readFrom_ofNode (h : ofNode n = .ok l) : ReadFrom n l := by
  rw [ofNode, decode] at h
  split at h
  · cases h
  · next m hm =>
    obtain ⟨ps, -, rfl⟩ := map_eq_ok.mp h
    exact { readFrom_of_readFields hm with }

theorem fits_of_mapM {c : RecordClass} {nodes : List Node} {rs : List Record}
    (h : nodes.mapM (Record.ofNode c) = .ok rs) : ∀ r ∈ rs, r.fits Json.isSpelled c = true := by
  intro r hr
  obtain ⟨m, -, hm⟩ := (of_mapM h).2 r hr
  exact Record.fits_ofNode m c r hm

end Fields

section Limits

/-- The limits of a layer that was read: first those of its kind, then the added ones. -/
structure GrowsFrom (start limits : List (Phase × Int)) : Prop where
  nodup : (limits.map Prod.fst).Nodup
  starts : start.map Prod.fst <+: limits.map Prod.fst
  short : ∀ p ∈ limits, isTooLong p.2.natAbs = false

variable {start limits ls : List (Phase × Int)}

theorem GrowsFrom.put (h : GrowsFrom start limits) (p : Phase) {n : Int}
    (hn : isTooLong n.natAbs = false) :
    GrowsFrom start (putLimit limits p n) where
  nodup := nodup_putLimit h.nodup
  starts := h.starts.trans keys_prefix_putLimit
  short := by
    intro q hq
    rcases mem_putLimit hq with rfl | hq
    · exact hn
    · exact h.short q hq

theorem short_of_findInts {n : Node} {name : String} {counts : List Int}
    (h : n.findInts name = .ok counts) :
    ∀ c ∈ counts, isTooLong c.natAbs = false := by
  intro c hc
  obtain ⟨text, -, hread⟩ := Node.text_of_readScalars h c hc
  exact isTooLong_of_readInt? hread

theorem growsFrom_of_readLimits {nodes : List Node} (hg : GrowsFrom start limits)
    (h : readLimits limits nodes = .ok ls) : GrowsFrom start ls := by
  induction nodes generalizing limits with
  | nil =>
    cases h
    exact hg
  | cons n nodes ih =>
    obtain ⟨counts, hc, h⟩ := bind_eq_ok.mp h
    split at h
    · next c _ _ =>
      obtain ⟨p, -, h⟩ := bind_eq_ok.mp h
      exact ih (hg.put p (short_of_findInts hc c (List.mem_cons_self ..))) h
    · exact ih hg h

theorem growsFrom_maxBottom (kind : LayerKind) :
    GrowsFrom kind.spec.maxBottom kind.spec.maxBottom where
  nodup := nodup_maxBottom kind
  starts := List.prefix_refl _
  short := by cases kind <;> decide +kernel

end Limits

section Records

variable {n : Node} {l : Layer}

theorem fits_params_ofNode (h : ofNode n = .ok l) : ∀ p ∈ l.params,
    p.1 ∈ l.kind.legalSlots ∧ p.2.fits Json.isSpelled p.1.recordClass = true := by
  apply of_ofNode (P := fun params => ∀ p ∈ params,
    p.1 ∈ l.kind.legalSlots ∧ p.2.fits Json.isSpelled p.1.recordClass = true) h
  · intro params s r m hs hr hp p hm
    rcases mem_putParam hm with rfl | hm
    · exact ⟨hs, Record.fits_ofNode m _ r hr⟩
    · exact hp p hm
  · exact fun p hp => (fits_params_create l.kind p hp).imp_right
      (Record.fits_mono fun _ => Json.isSpelled_of_isWritten)

theorem isArranged_ofNode (h : ofNode n = .ok l) : IsArranged l.params := by
  apply of_ofNode (P := IsArranged) h
  · intro params s r m _ _ _
    rw [putParam_eq_arrange]
    exact isArranged_arrange _
  · exact isArranged_create l.kind l.name

theorem fits_ofNode (h : ofNode n = .ok l) : l.Fits Json.isSpelled where
  lossWeight _ _ := rfl
  parameters := fits_of_mapM (readFrom_ofNode h).parameters
  blobs := fits_of_mapM (readFrom_ofNode h).blobs
  includeRules := fits_of_mapM (readFrom_ofNode h).includeRules
  excludeRules := fits_of_mapM (readFrom_ofNode h).excludeRules
  limits := (growsFrom_of_readLimits (growsFrom_maxBottom l.kind) (readFrom_ofNode h).limits).nodup
  arranged := isArranged_ofNode h
  params := fits_params_ofNode h
  solverCount := (readFrom_ofNode h).solverCount
  solverRank := (readFrom_ofNode h).solverRank

end Records

section Normal

theorem encode_ofNode {n : Node} {l : Layer} (h : ofNode n = .ok l) (name : String) :
    l.encode name = .ok (l.toNode name) := by
  have hg := growsFrom_of_readLimits (growsFrom_maxBottom l.kind) (readFrom_ofNode h).limits
  exact encode_of_fits (fits_ofNode h) hg.short name

theorem encode_normal {n : Node} {l : Layer} (h : ofNode n = .ok l) (name : String) :
    ∃ e m, l.encode name = .ok e ∧ decode e = ([], .ok m) ∧ m.encode name = .ok e := by
  have hf := fits_ofNode h
  have hg := growsFrom_of_readLimits (growsFrom_maxBottom l.kind) (readFrom_ofNode h).limits
  have hslots : l.kind.spec.slots ⊆ l.params.map Prod.fst := by
    intro s hs
    exact isSome_lookup_iff.mp (isSome_param_ofNode h hs)
  -- The limits of a new layer stand first among those that were read, so that none changes its place.
  have hread := decode_toNode hf hslots hg.short name
  rw [foldl_putLimit_of_starts hg.nodup hg.starts] at hread
  have hagain : (l.reread .tree).encode name = .ok ((l.reread .tree).toNode name) :=
    encode_ofNode (congrArg Prod.snd hread) name
  rw [toNode_reread Rereading.keepsText_tree hf name] at hagain
  exact ⟨_, l.reread .tree, encode_ofNode h name, hread, hagain⟩

def unrulyNode : Node :=
  .block "layer" [.block "relu_param" [], .leaf "loss_weight" "nan" .string,
    .block "inner_product_param" [.leaf "num_output" "+007.0" .string, .leaf "colour" "red" .string],
    .leaf "loss_weight" "-0.0" .numeric, .leaf "type" " INNER_product " .string,
    .block "max_bottom_count" [.leaf "count" "0_1" .string, .leaf "phase" "run" .string],
    .block "inner_product_param" [.leaf "axis" "1e2" .unknown, .leaf "axis" "2" .numeric]]

theorem encode_normal_unruly : ∃ l, ofNode unrulyNode = .ok l ∧
    ∃ e m, l.encode "layer" = .ok e ∧ decode e = ([], .ok m) ∧ m.encode "layer" = .ok e := by
  have hok : (ofNode unrulyNode).toOption.any (fun _ => true) = true := by
    decide +kernel
  obtain ⟨l, hl, -⟩ := exists_ok hok
  exact ⟨l, hl, encode_normal hl "layer"⟩

end Normal

end NetDesc.Layer
