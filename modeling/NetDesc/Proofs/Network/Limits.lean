import NetDesc.Proofs.Layer.Normal
import NetDesc.Proofs.Network.Bottoms

/-!
The limit for inference that a layer has once it is decoded, beside the one by which its bottoms are cut
when its network is stripped: of several limits the last one is decoded and the first one cuts, and the
limit that a kind has by itself is decoded and never cuts.
-/

namespace NetDesc.Network

open Node

theorem lookup_maxBottom (kind : LayerKind) :
    kind.spec.maxBottom.lookup .run = if kind = .knn then some 1 else none := by
  cases kind <;> rfl

theorem getLast?_or_some {α : Type} (x : α) (xs : List α) (o : Option α) :
    xs.getLast?.or (some x) = (x :: xs).getLast?.or o := by
  rw [List.getLast?_cons]
  cases xs.getLast? <;> rfl

theorem lookup_readLimits {blocks : List Node} {start limits : List (Phase × Int)}
    (h : Layer.readLimits start blocks = .ok limits) :
    limits.lookup .run = (blocks.filterMap runCount?).getLast?.or (start.lookup .run) := by
  induction blocks generalizing start with
  | nil =>
    cases h
    rfl
  | cons b blocks ih =>
    obtain ⟨counts, hc, h⟩ := bind_eq_ok.mp h
    cases ht : b.findValue "phase" with
    | none =>
      rw [ht] at h
      rw [List.filterMap_cons_none (runCount?_of_findValue ht)]
      exact ih h
    | some text =>
      rw [ht] at h
      cases counts with
      | nil =>
        have hnone : runCount? b = none := by
          rw [runCount?, head?_readScalars hc]
          split <;> rfl
        rw [List.filterMap_cons_none hnone]
        exact ih h
      | cons c counts =>
        obtain ⟨p, hp, h⟩ := bind_eq_ok.mp h
        have hcount := runCount?_of_findInts ht hp hc
        rw [ih h]
        by_cases hrun : p = .run
        · rw [if_pos hrun] at hcount
          rw [List.filterMap_cons_some hcount, hrun, Layer.lookup_putLimit_self]
          exact getLast?_or_some c _ _
        · rw [if_neg hrun] at hcount
          rw [List.filterMap_cons_none hcount, Layer.lookup_putLimit_of_ne (Ne.symm hrun)]

theorem lookup_ofNode {l : Node} {m : Layer} (h : Layer.ofNode l = .ok m) :
    m.maxBottomCount.lookup .run =
      (runCounts l).getLast?.or (if m.kind = .knn then some 1 else none) := by
  rw [lookup_readLimits (Layer.readFrom_ofNode h).limits, lookup_maxBottom]
  rfl

theorem length_bottomsLeft (kind : LayerKind) {l : Node} {first : Int}
    (h : (runCounts l).head? = some first) : ((bottomsLeft kind l).length : Int) ≤ max first 0 := by
  have hrun : ((runBottoms kind l).length : Int) ≤ max first 0 := by
    rw [runBottoms, h]
    dsimp only
    have hle := List.length_take_le (min (if kind = .binaryHash then
      (l.findChildren "bottom").length - 1 else (l.findChildren "bottom").length) (max first 0).toNat)
      (l.findChildren "bottom")
    omega
  rw [bottomsLeft]
  split
  · have hle := (List.eraseP_sublist (p := fun b : Node => b.value == some "label")
      (l := runBottoms kind l)).length_le
    omega
  · exact hrun

/-- The limit of a layer `l` once it is decoded as `m`, beside the one that cuts the bottoms of the layer
`l'` which `l` becomes. -/
structure ComparesLimits (l l' : Node) (m : Layer) : Prop where
  cut : runLimit? (l.findChildren "max_bottom_count") = .ok (runCounts l).head?
  decoded : m.maxBottomCount.lookup .run =
    (runCounts l).getLast?.or (if m.kind = .knn then some 1 else none)
  respects_iff : (∀ c, (runCounts l).head? = some c → m.maxBottomCount.lookup .run = some c) ↔
    (runCounts l).head? = (runCounts l).getLast?
  agrees_iff : (runCounts l).head? = m.maxBottomCount.lookup .run ↔
    (runCounts l).head? = (runCounts l).getLast? ∧ (m.kind = .knn → runCounts l ≠ [])
  bounded : ∀ first, (runCounts l).head? = some first → ∀ c, m.maxBottomCount.lookup .run = some c →
    first ≤ c → 0 ≤ c → ((l'.findChildren "bottom").length : Int) ≤ c

theorem comparesLimits {kind : LayerKind} {l : Node} {m : Layer} (hm : Layer.ofNode l = .ok m)
    (hcut : runLimit? (l.findChildren "max_bottom_count") = .ok (runCounts l).head?) :
    ComparesLimits l (inferred kind l) m := by
  have hdecoded := lookup_ofNode hm
  constructor
  · exact hcut
  · exact hdecoded
  · rw [hdecoded]
    cases hc : runCounts l with
    | nil => simp
    | cons c cs => simp [List.getLast?_cons, eq_comm]
  · rw [hdecoded]
    cases hc : runCounts l with
    | nil =>
      by_cases hk : m.kind = .knn
      · simp [hk]
      · simp [hk]
    | cons c cs => simp [List.getLast?_cons]
  · intro first hfirst c _ hle hc
    have hlen := length_bottomsLeft kind hfirst
    rw [findChildren_inferred]
    omega

section Whole

variable {settings : Settings} {input : String} {shape : InputShape} {n r : Node}
  {transform : Option Node}

/-- The bottoms of a layer that survives are cut by the first limit that its blocks set, and decoding
keeps the last one, or the one of its kind. Both limits are the same exactly if the first one set is
the last and a nearest-neighbour layer sets one, and the decoded limit holds for what is left wherever
the first one set is not above it. -/
theorem forRunning_limits (h : forRunning settings input shape n = .ok (r, transform)) :
    ∃ kept : List (Option Node), r.findChildren (layerKey n) = kept.filterMap id ∧
      List.Forall₂ (fun l o => ∃ kind, Becomes n kind l o ∧
        ∀ l' ∈ o, ∀ m, Layer.ofNode l = .ok m → ComparesLimits l l' m) (layers n) kept := by
  obtain ⟨kept, hr, hall⟩ := inferred_layers h
  refine ⟨kept, hr, hall.imp ?_⟩
  rintro l o ⟨kind, hb, hl⟩
  refine ⟨kind, hb, fun l' hl' m hm => ?_⟩
  obtain ⟨rfl, hcut⟩ := hl l' hl'
  exact comparesLimits hm hcut

end Whole

def limitedNeighbours : Node :=
  root [block "layer" [leaf "type" "Knn" .string, leaf "bottom" "ip" .string,
    leaf "bottom" "label" .string,
    block "max_bottom_count" [leaf "phase" "RUN" .unknown, leaf "count" "1" .numeric]]]

theorem forRunning_limits_neighbours :
    ∃ r l, forRunning .standard "data" smallInput limitedNeighbours = .ok r ∧
      r.1.findChildren "layer" = [l] ∧ ((l.findChildren "bottom").length : Int) ≤ 1 := by
  obtain ⟨r, hr, -⟩ : ∃ r, forRunning .standard "data" smallInput limitedNeighbours = .ok r ∧
      (r.1.findChild "layer").isSome = true := exists_ok (by decide +kernel)
  obtain ⟨kept, hlayers, hall⟩ := forRunning_limits hr
  obtain ⟨o, kept, ⟨kind, hb, hlimits⟩, hnil, rfl⟩ := List.forall₂_cons_left_iff.mp hall
  obtain rfl := List.forall₂_nil_left_iff.mp hnil
  have hknn : LayerKind.ofNode (limitedNeighbours.children.head (by decide)) = .ok .knn :=
    LayerKind.ofNode_of_findValue rfl
  obtain rfl : kind = .knn := Except.ok.inj (hb.ofKind.symm.trans hknn)
  obtain ⟨l, rfl⟩ : ∃ l, o = some l := by
    refine hb.survives.mpr ?_
    rw [Survives, if_neg (by decide)]
    decide +kernel
  obtain ⟨m, hm, hlookup⟩ : ∃ m, Layer.ofNode (limitedNeighbours.children.head (by decide)) = .ok m ∧
      m.maxBottomCount.lookup .run = some 1 := by
    decide +kernel
  have hfirst : (runCounts (limitedNeighbours.children.head (by decide))).head? = some 1 := by
    decide +kernel
  exact ⟨r, l, hr, hlayers,
    (hlimits l rfl m hm).bounded 1 hfirst 1 hlookup (by decide) (by decide)⟩

def unlimitedNeighbours : String :=
  "layer \x7b type: \"KNN\" bottom: \"ip\" bottom: \"label\" \x7d"

def twiceLimited : String :=
  "layer \x7b type: \"ReLU\" bottom: \"a\" bottom: \"b\" max_bottom_count \x7b phase: RUN count: 2 \x7d max_bottom_count \x7b phase: RUN count: 1 \x7d \x7d"

theorem forRunning_over_limit :
    (∃ n r, parse unlimitedNeighbours = .ok n ∧ forRunning .standard "data" smallInput n = .ok r ∧
      (∃ l ∈ layers n, ∃ m, Layer.ofNode l = .ok m ∧ m.maxBottomCount.lookup .run = some 1) ∧
      ∃ l ∈ layers r.1, (l.findChildren "bottom").length = 2) ∧
    ∃ n r, parse twiceLimited = .ok n ∧ forRunning .standard "data" smallInput n = .ok r ∧
      (∃ l ∈ layers n, (runLimit? (l.findChildren "max_bottom_count")).toOption = some (some 2) ∧
        ∃ m, Layer.ofNode l = .ok m ∧ m.maxBottomCount.lookup .run = some 1) ∧
      ∃ l ∈ layers r.1, (l.findChildren "bottom").length = 2 := by
  constructor
  · obtain ⟨n, r, hn, hr, hd⟩ := exists_forRunning unlimitedNeighbours String.toList_ofList
      (fun n r => decide
      ((∃ l ∈ layers n, ∃ m, Layer.ofNode l = .ok m ∧ m.maxBottomCount.lookup .run = some 1) ∧
        ∃ l ∈ layers r, (l.findChildren "bottom").length = 2)) (by decide +kernel)
    exact ⟨n, r, hn, hr, of_decide_eq_true hd⟩
  · obtain ⟨n, r, hn, hr, hd⟩ := exists_forRunning twiceLimited rfl (fun n r => decide
      ((∃ l ∈ layers n, (runLimit? (l.findChildren "max_bottom_count")).toOption = some (some 2) ∧
        ∃ m, Layer.ofNode l = .ok m ∧ m.maxBottomCount.lookup .run = some 1) ∧
        ∃ l ∈ layers r, (l.findChildren "bottom").length = 2)) (by decide +kernel)
    exact ⟨n, r, hn, hr, of_decide_eq_true hd⟩

end NetDesc.Network
