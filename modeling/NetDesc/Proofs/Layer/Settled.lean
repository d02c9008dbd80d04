import NetDesc.Proofs.Layer.Legal

namespace NetDesc.Layer

variable {kind : LayerKind} {params ps : List (Slot × Record)} {nodes : List Node} {n : Node}
  {s t : Slot}

def slotRecords (s : Slot) (nodes : List Node) : Result (List Record) :=
  (nodes.filter fun n => n.name == s.name).mapM (Record.ofNode s.recordClass)

/-- What stands in a slot after some blocks: what the last one of its blocks is read as, but all of
them have to be read. -/
def settled (kind : LayerKind) (params : List (Slot × Record)) (nodes : List Node) (s : Slot) :
    Result (Option Record) :=
  if s ∈ kind.legalSlots then
    (slotRecords s nodes).map fun rs => rs.getLast?.or (params.lookup s)
  else .ok (params.lookup s)

theorem slotRecords_cons_of_ne (hn : Slot.ofName? n.name ≠ some s) :
    slotRecords s (n :: nodes) = slotRecords s nodes := by
  have hname : ¬ (n.name == s.name) = true := by
    rw [beq_iff_eq]
    intro he
    rw [he, Slot.ofName?_name] at hn
    exact hn rfl
  rw [slotRecords, List.filter_cons, if_neg hname]
  rfl

theorem slotRecords_cons (hn : Slot.ofName? n.name = some s) :
    slotRecords s (n :: nodes) = do
      let r ← Record.ofNode s.recordClass n
      let rs ← slotRecords s nodes
      return r :: rs := by
  have hname : (n.name == s.name) = true := beq_iff_eq.mpr (Slot.name_of_ofName? hn).symm
  rw [slotRecords, List.filter_cons, if_pos hname, List.mapM_cons]
  rfl

theorem settled_nil (s : Slot) : settled kind params [] s = .ok (params.lookup s) := by
  unfold settled
  split <;> rfl

theorem settled_cons_of_illegal (hn : ∀ s ∈ kind.legalSlots, Slot.ofName? n.name ≠ some s) (s : Slot) :
    settled kind params (n :: nodes) s = settled kind params nodes s := by
  unfold settled
  split
  · next hs => rw [slotRecords_cons_of_ne (hn s hs)]
  · rfl

theorem settled_cons_of_ok {r : Record} (hn : Slot.ofName? n.name = some t) (ht : t ∈ kind.legalSlots)
    (hr : Record.ofNode t.recordClass n = .ok r) (s : Slot) :
    settled kind params (n :: nodes) s = settled kind (putParam params t r) nodes s := by
  unfold settled
  rw [lookup_putParam]
  by_cases hs : s = t
  · subst hs
    rw [if_pos ht, if_pos ht, if_pos rfl, slotRecords_cons hn, hr, ok_bind]
    cases slotRecords s nodes with
    | error e => rfl
    | ok rs =>
      have hlast : ((r :: rs).getLast?).or (params.lookup s) = rs.getLast?.or (some r) := by
        rw [List.getLast?_cons]
        cases rs.getLast? <;> rfl
      exact congrArg Except.ok hlast
  · have hne : Slot.ofName? n.name ≠ some s := by
      rw [hn]
      exact fun h => hs (Option.some.inj h).symm
    rw [if_neg hs, slotRecords_cons_of_ne hne]

theorem readSlots_cons_of_error {e : Failure} (hn : Slot.ofName? n.name = some t)
    (ht : t ∈ kind.legalSlots) (hr : Record.ofNode t.recordClass n = .error e) :
    (readSlots kind params (n :: nodes)).2 = .error e := by
  have hc : ¬ (!kind.legalSlots.contains t) = true := by simpa using ht
  rw [readSlots, hn]
  dsimp only
  rw [if_neg hc, hr]

theorem readSlots_cons_of_illegal (hn : Slot.ofName? n.name = some t) (ht : t ∉ kind.legalSlots) :
    (readSlots kind params (n :: nodes)).2 = (readSlots kind params nodes).2 := by
  have hc : (!kind.legalSlots.contains t) = true := by simpa using ht
  rw [readSlots, hn]
  dsimp only
  rw [if_pos hc]

theorem readSlots_eq_ok_iff (hp : IsArranged params) :
    (readSlots kind params nodes).2 = .ok ps ↔
      IsArranged ps ∧ ∀ s, settled kind params nodes s = .ok (ps.lookup s) := by
  induction nodes generalizing params with
  | nil =>
    simp only [settled_nil, Except.ok.injEq]
    constructor
    · intro h
      cases h
      exact ⟨hp, fun _ => rfl⟩
    · rintro ⟨harranged, hlookup⟩
      refine congrArg Except.ok ?_
      rw [← arrange_lookup hp, ← arrange_lookup harranged]
      exact congrArg arrange (funext hlookup)
  | cons n nodes ih =>
    cases hn : Slot.ofName? n.name with
    | none =>
      rw [readSlots_cons_of_none hn, ih hp]
      simp only [settled_cons_of_illegal (n := n) fun s _ h => nomatch hn.symm.trans h]
    | some t =>
      by_cases ht : t ∈ kind.legalSlots
      · cases hr : Record.ofNode t.recordClass n with
        | ok r =>
          rw [readSlots_cons_of_ok hn ht hr, ih (putParam_eq_arrange .. ▸ isArranged_arrange _)]
          simp only [settled_cons_of_ok hn ht hr]
        | error e =>
          constructor
          · intro h
            rw [readSlots_cons_of_error hn ht hr] at h
            cases h
          · rintro ⟨-, hsettled⟩
            have hslot := hsettled t
            rw [settled, if_pos ht, slotRecords_cons hn, hr] at hslot
            cases hslot
      · have hillegal : ∀ s ∈ kind.legalSlots, Slot.ofName? n.name ≠ some s := by
          intro s hs h
          rw [hn] at h
          exact ht (Option.some.inj h ▸ hs)
        rw [readSlots_cons_of_illegal hn ht, ih hp]
        simp only [settled_cons_of_illegal hillegal]

theorem settled_ofNode {l : Layer} (h : ofNode n = .ok l) (s : Slot) :
    settled l.kind (create l.kind l.name).params n.children s = .ok (l.param? s) := by
  rw [ofNode, decode] at h
  split at h
  · cases h
  · next k hk =>
    obtain ⟨ps, hps, rfl⟩ := map_eq_ok.mp h
    obtain ⟨-, hparams, -⟩ := of_readFields hk
    rw [hparams] at hps
    exact ((readSlots_eq_ok_iff (isArranged_create _ _)).mp hps).2 s

theorem param?_of_ofNode {l : Layer} {block : Node} (h : ofNode n = .ok l)
    (hs : s ∈ l.kind.legalSlots) (hb : n.findChildren s.name = [block]) :
    ∃ r, Record.ofNode s.recordClass block = .ok r ∧ l.param? s = some r := by
  have hsettled := settled_ofNode h s
  have hrecords : slotRecords s n.children = [block].mapM (Record.ofNode s.recordClass) := by
    rw [← hb]
    rfl
  rw [settled, if_pos hs, hrecords, List.mapM_cons] at hsettled
  obtain ⟨rs, hrs, hlast⟩ := map_eq_ok.mp hsettled
  obtain ⟨r, hr, hrs⟩ := bind_eq_ok.mp hrs
  cases hrs
  exact ⟨r, hr, hlast.symm⟩

end NetDesc.Layer
