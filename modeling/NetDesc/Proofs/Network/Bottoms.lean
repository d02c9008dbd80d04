import NetDesc.Proofs.Network.Stripped

namespace NetDesc.Network

open Node

def runCount? (b : Node) : Option Int :=
  if (b.findValue "phase").bind Phase.parse? = some .run then
    (b.findValues "count").head?.bind Decimal.readInt?
  else none

def runCounts (l : Node) : List Int :=
  (l.findChildren "max_bottom_count").filterMap runCount?

/-- The bottoms that a layer keeps when it runs: a binary hash loses its last one, which is for labels,
and of the others as many stay as the first limit says. -/
def runBottoms (kind : LayerKind) (l : Node) : List Node :=
  let bottoms := l.findChildren "bottom"
  let count := if kind = .binaryHash then bottoms.length - 1 else bottoms.length
  bottoms.take (match (runCounts l).head? with
    | some c => min count (max c 0).toNat
    | none => count)

theorem parse?_of_parsePhase {text : String} {p : Phase} (h : parsePhase text = .ok p) :
    Phase.parse? text = some p := by
  rw [parsePhase] at h
  split at h
  · next q hq =>
    cases h
    exact hq
  · cases h

theorem runCount?_of_findValue {b : Node} (ht : b.findValue "phase" = none) : runCount? b = none := by
  rw [runCount?, ht]
  rfl

theorem runCount?_of_findInts {b : Node} {text : String} {p : Phase} {counts : List Int}
    (ht : b.findValue "phase" = some text) (hp : parsePhase text = .ok p)
    (hc : b.findInts "count" = .ok counts) :
    runCount? b = if p = .run then counts.head? else none := by
  rw [runCount?, ht, Option.bind_some, parse?_of_parsePhase hp, head?_readScalars hc]
  simp only [Option.some.injEq]

theorem runLimit?_eq_ok {blocks : List Node} {limit : Option Int}
    (h : runLimit? blocks = .ok limit) : limit = (blocks.filterMap runCount?).head? := by
  induction blocks with
  | nil =>
    cases h
    rfl
  | cons b blocks ih =>
    rw [runLimit?] at h
    cases ht : b.findValue "phase" with
    | none =>
      rw [ht] at h
      rw [List.filterMap_cons_none (runCount?_of_findValue ht)]
      exact ih h
    | some text =>
      rw [ht] at h
      obtain ⟨p, hp, h⟩ := bind_eq_ok.mp h
      split at h
      · next hrun =>
        obtain ⟨counts, hc, h⟩ := bind_eq_ok.mp h
        have hcount := runCount?_of_findInts ht hp hc
        rw [if_pos hrun] at hcount
        cases counts with
        | nil =>
          rw [List.filterMap_cons_none hcount]
          exact ih h
        | cons c counts =>
          cases h
          rw [List.filterMap_cons_some hcount]
          rfl
      · next hrun =>
        have hnone : runCount? b = none := by
          simp [runCount?, ht, parse?_of_parsePhase hp, hrun]
        rw [List.filterMap_cons_none hnone]
        exact ih h

theorem findChildren_keepBottoms (n : Nat) (l : Node) :
    (keepBottoms n l).findChildren "bottom" = (l.findChildren "bottom").take n :=
  filter_keepFirst_self _ n l.children

theorem findChildren_limited (kind : LayerKind) (l : Node) :
    (limited kind (runCounts l).head? l).findChildren "bottom" = runBottoms kind l := by
  have hkind : (if kind = .binaryHash then dropLastBottom l else l).findChildren "bottom" =
      (l.findChildren "bottom").take (if kind = .binaryHash
        then (l.findChildren "bottom").length - 1 else (l.findChildren "bottom").length) := by
    split
    · exact findChildren_keepBottoms _ l
    · exact List.take_length.symm
  rw [runBottoms, limited]
  cases (runCounts l).head? with
  | none => exact hkind
  | some c =>
    have hc : (max c 0).toNat = c.toNat := by omega
    dsimp only
    rw [Option.elim_some, findChildren_keepBottoms, hkind, List.take_take, hc, Nat.min_comm]

theorem findChildren_bottom_toSoftmax (l : Node) :
    (toSoftmax l).findChildren "bottom" =
      (l.findChildren "bottom").eraseP fun b => b.value == some "label" := by
  have hstay (cs : List Node) :
      (cs.filter fun c => c.name != "loss_weight" && c.name != "loss_param").filter
        (fun c => c.name == "bottom") = cs.filter fun c => c.name == "bottom" := by
    rw [List.filter_filter]
    refine List.filter_congr fun c _ => ?_
    by_cases hc : c.name = "bottom"
    · simp [hc]
    · simp [hc]
  have hlabel : hasNameValue "bottom" "label" =
      fun c => (c.value == some "label") && (c.name == "bottom") := by
    funext c
    exact Bool.and_comm ..
  have htype := findChildren_setValue (by decide : "type" ≠ "bottom") l LayerKind.softmax.name
    (some .string)
  rw [findChildren, children_toSoftmax, hstay, removeValue, dropMatching, if_pos rfl, hlabel,
    ← List.eraseP_filter, ← findChildren, htype]

def inferred (kind : LayerKind) (l : Node) : Node :=
  if kind = .softmaxWithLoss then toSoftmax (limited kind (runCounts l).head? l)
  else limited kind (runCounts l).head? l

theorem mem_settle {t : Traits} {l l' : Node} {o : Option Node} {hasSoftmax : Bool}
    (h : running t l = .ok o) (hl : l' ∈ settle hasSoftmax t o) :
    runLimit? (l.findChildren "max_bottom_count") = .ok (runCounts l).head? ∧
      l' = inferred t.kind l := by
  unfold settle at hl
  rcases running_cases h with ⟨-, rfl⟩ | ⟨-, limit, hlimit, rfl⟩
  · split at hl
    · split at hl <;> cases hl
    · cases hl
  · obtain rfl : limit = (runCounts l).head? := runLimit?_eq_ok hlimit
    refine ⟨hlimit, ?_⟩
    rw [inferred]
    split at hl
    · next hk =>
      rw [if_pos hk]
      split at hl
      · cases hl
      · exact (Option.some.inj hl).symm
    · next hk =>
      rw [if_neg hk]
      exact (Option.some.inj hl).symm

section Whole

variable {settings : Settings} {input : String} {shape : InputShape} {n r : Node}
  {transform : Option Node}

theorem inferred_layers (h : forRunning settings input shape n = .ok (r, transform)) :
    ∃ kept : List (Option Node), r.findChildren (layerKey n) = kept.filterMap id ∧
      List.Forall₂ (fun l o => ∃ kind, Becomes n kind l o ∧ ∀ l' ∈ o, l' = inferred kind l ∧
        runLimit? (l.findChildren "max_bottom_count") = .ok (runCounts l).head?) (layers n) kept := by
  obtain ⟨scanned, hm, hall, hr, -⟩ := forRunning_eq_ok h
  have hsoft := any_softmax_iff hm fun s hs => (hall s hs).1
  refine ⟨scanned.map fun s => settle (scanned.any fun l => l.1.kind = .softmax) s.1 s.2.2, ?_, ?_⟩
  · rw [hr, List.filterMap_map]
    rfl
  · rw [← hm, List.forall₂_map_left_iff, List.forall₂_map_right_iff, List.forall₂_same]
    intro s hs
    obtain ⟨ht, ho⟩ := hall s hs
    refine ⟨s.1.kind, becomes_settle ht ho hsoft, fun l' hl => ?_⟩
    obtain ⟨hlimit, he⟩ := mem_settle ho hl
    exact ⟨he, hlimit⟩

def bottomsLeft (kind : LayerKind) (l : Node) : List Node :=
  if kind = .softmaxWithLoss then (runBottoms kind l).eraseP fun b => b.value == some "label"
  else runBottoms kind l

theorem findChildren_inferred (kind : LayerKind) (l : Node) :
    (inferred kind l).findChildren "bottom" = bottomsLeft kind l := by
  rw [inferred, bottomsLeft]
  split
  · rw [findChildren_bottom_toSoftmax, findChildren_limited]
  · exact findChildren_limited kind l

/-- Of the bottoms of a layer that survives the first ones stay, as many as its kind and the first
limit for inference allow; a loss, now a softmax, loses its labels. -/
theorem forRunning_bottoms (h : forRunning settings input shape n = .ok (r, transform)) :
    ∃ kept : List (Option Node), r.findChildren (layerKey n) = kept.filterMap id ∧
      List.Forall₂ (fun l o => ∃ kind, Becomes n kind l o ∧
        ∀ l' ∈ o, l'.findChildren "bottom" = bottomsLeft kind l) (layers n) kept := by
  obtain ⟨kept, hr, hall⟩ := inferred_layers h
  refine ⟨kept, hr, hall.imp ?_⟩
  rintro l o ⟨kind, hb, hl⟩
  refine ⟨kind, hb, fun l' hl' => ?_⟩
  rw [(hl l' hl').1, findChildren_inferred]

end Whole

def limitedLoss : Node :=
  root [block "layer" [leaf "type" "SoftmaxWithLoss" .string, leaf "bottom" "ip" .string,
    leaf "bottom" "label" .string, leaf "bottom" "weights" .string,
    block "max_bottom_count" [leaf "phase" "RUN" .unknown, leaf "count" "2" .numeric],
    block "max_bottom_count" [leaf "phase" "RUN" .unknown, leaf "count" "0" .numeric]]]

theorem forRunning_bottoms_limitedLoss :
    ∃ r l, forRunning .standard "data" smallInput limitedLoss = .ok r ∧
      r.1.findChildren "layer" = [l] ∧ l.findChildren "bottom" = [leaf "bottom" "ip" .string] := by
  obtain ⟨r, hr, -⟩ : ∃ r, forRunning .standard "data" smallInput limitedLoss = .ok r ∧
      (r.1.findChild "layer").isSome = true := exists_ok (by decide +kernel)
  obtain ⟨kept, hlayers, hall⟩ := forRunning_bottoms hr
  obtain ⟨o, kept, ⟨kind, hb, hbottoms⟩, hnil, rfl⟩ := List.forall₂_cons_left_iff.mp hall
  obtain rfl := List.forall₂_nil_left_iff.mp hnil
  have hloss : LayerKind.ofNode (limitedLoss.children.head (by decide)) = .ok .softmaxWithLoss :=
    LayerKind.ofNode_of_findValue rfl
  obtain rfl : kind = .softmaxWithLoss := Except.ok.inj (hb.ofKind.symm.trans hloss)
  obtain ⟨l, rfl⟩ : ∃ l, o = some l := by
    refine hb.survives.mpr ?_
    rw [Survives, if_pos rfl]
    decide +kernel
  refine ⟨r, l, hr, hlayers, (hbottoms l rfl).trans ?_⟩
  decide +kernel

end NetDesc.Network
