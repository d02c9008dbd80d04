import NetDesc.Proofs.Network.Rebound
import NetDesc.Proofs.Tree.RoundTrip

/-!
The batches of a network that is bound to a dataset. Tests keep theirs. Training is raised to the
size of the last tests, but only in the last layer that does not test, and so training may run on
smaller batches than tests still.
-/

namespace NetDesc.Network

open Node

def IsBatched (l : Node) (phase : Phase) (size : Int) : Prop :=
  ∃ kind block sizes, LayerKind.ofNode l = .ok kind ∧ kind.isData = true ∧
    includePhase l = .ok phase ∧ l.findChild (sourceBlockName kind) = some block ∧
    isPrimary block = .ok true ∧ block.findInts "batch_size" = .ok (size :: sizes)

instance (l : Node) (phase : Phase) (size : Int) : Decidable (IsBatched l phase size) :=
  decidable_of_iff (∃ kind, LayerKind.ofNode l = .ok kind ∧ kind.isData = true ∧
      (includePhase l).toOption = some phase ∧
      ∃ block ∈ l.findChild (sourceBlockName kind), (isPrimary block).toOption = some true ∧
        (block.findInts "batch_size").toOption.bind List.head? = some size) (by
    simp only [toOption_eq_some, Option.mem_def, Option.bind_eq_some_iff, List.head?_eq_some_iff]
    constructor
    · rintro ⟨kind, hk, hd, hphase, block, hblock, hprimary, sizes, hsizes, rest, rfl⟩
      exact ⟨kind, block, rest, hk, hd, hphase, hblock, hprimary, hsizes⟩
    · rintro ⟨kind, block, rest, hk, hd, hphase, hblock, hprimary, hsizes⟩
      exact ⟨kind, hk, hd, hphase, block, hblock, hprimary, _, hsizes, rest, rfl⟩)

/-- All phases but tests are in one slot. -/
def slotOf (phase : Phase) : Phase :=
  if phase = .test then .test else .train

def TakesSlot (slot : Phase) (l : Node) (size : Int) : Prop :=
  ∃ phase, phase ≠ .none ∧ slotOf phase = slot ∧ IsBatched l phase size

def IsLastIn (slot : Phase) (n : Node) (i : Nat) (size : Int) : Prop :=
  ∃ l, (layers n)[i]? = some l ∧ TakesSlot slot l size ∧
    ∀ j s, i < j → (layers n)[j]? = some s → ∀ other, ¬ TakesSlot slot s other

def TrainsAsTested (n : Node) : Prop :=
  ∀ l ∈ layers n, ∀ s ∈ layers n, ∀ x y, IsBatched l .train x → IsBatched s .test y → y ≤ x

def batchFields (l : Node) : List Node :=
  match LayerKind.ofNode l with
  | .ok kind => (l.findChild (sourceBlockName kind)).elim [] fun block =>
    block.findChildren "batch_size"
  | .error _ => []

def KeepsOrRaises (l l' : Node) : Prop :=
  batchFields l' = batchFields l ∨
    ∃ phase x y, phase ≠ .test ∧ IsBatched l phase x ∧ IsBatched l' phase y ∧ x < y

section Layer

variable {b : Binding} {l : Node} {r : Rebound} {phase slot : Phase} {size other : Int}

theorem Rebound.Describes.takesSlot_iff (h : r.Describes l) :
    TakesSlot slot l size ↔ r.batch? slot = some size := by
  constructor
  · rintro ⟨phase, hnone, rfl, kind, block, sizes, hk, hd, hphase, hblock, hprimary, hsizes⟩
    obtain rfl : r.kind = kind := Except.ok.inj (h.ofKind.symm.trans hk)
    have hfeed : feed? r.kind l = .ok (some ⟨slotOf phase, true, some size⟩) :=
      feed?_batch_iff.mpr ⟨rfl, block, phase, sizes, hblock, hphase, hnone, rfl, hprimary, hsizes⟩
    have hf : r.feed = some ⟨slotOf phase, true, some size⟩ :=
      Except.ok.inj ((h.feed hd).symm.trans hfeed)
    rw [Rebound.batch?, hf, Option.bind_some, if_pos rfl]
  · intro hr
    obtain ⟨hd, -, hfeed⟩ := h.feed?_of_batch? hr
    obtain ⟨-, block, phase, sizes, hblock, hphase, hnone, hslot, hprimary, hsizes⟩ :=
      feed?_batch_iff.mp hfeed
    exact ⟨phase, hnone, hslot.symm, r.kind, block, sizes, h.ofKind, hd, hphase, hblock, hprimary, hsizes⟩

theorem isBatched_iff (hp : phase ≠ .none) :
    IsBatched l phase size ↔ includePhase l = .ok phase ∧ TakesSlot (slotOf phase) l size := by
  constructor
  · intro h
    have hphase : includePhase l = .ok phase := by
      obtain ⟨kind, block, sizes, -, -, hphase, -⟩ := h
      exact hphase
    exact ⟨hphase, phase, hp, rfl, h⟩
  · rintro ⟨hphase, phase', -, -, h⟩
    have hphase' : includePhase l = .ok phase' := by
      obtain ⟨kind, block, sizes, -, -, hphase', -⟩ := h
      exact hphase'
    obtain rfl : phase = phase' := Except.ok.inj (hphase.symm.trans hphase')
    exact h

theorem isBatched_test_iff : IsBatched l .test size ↔ TakesSlot .test l size := by
  constructor
  · exact fun h => ⟨.test, by decide, rfl, h⟩
  · rintro ⟨phase, -, hslot, h⟩
    obtain rfl : phase = .test := by
      by_contra hne
      rw [slotOf, if_neg hne] at hslot
      cases hslot
    exact h

theorem batchFields_modifyChild {name : String} {f : Node → Node} (hf : ∀ c, (f c).name = c.name)
    (hn : IsInner name) (hs : ∀ c, (f c).findChildren "batch_size" = c.findChildren "batch_size") :
    batchFields (l.modifyChild name f) = batchFields l := by
  unfold batchFields
  rw [ofNode_modifyChild hf hn]
  split
  · next kind hk =>
    by_cases hname : name = sourceBlockName kind
    · rw [← hname, findChild_modifyChild hf]
      cases l.findChild name with
      | none => rfl
      | some block => exact hs block
    · rw [findChild_modifyChild_of_ne hf hname]
  · rfl

theorem batchFields_rebindLayer (h : rebindLayer b l = .ok r) : batchFields r.layer = batchFields l := by
  apply eq_of_rebindLayer h
  · intro l kind name
    apply batchFields_modifyChild (fun c => name_setValue) (isInner_sourceBlockName kind)
    exact fun c => findChildren_setValue (by decide) c _ _
  · intro l size
    apply batchFields_modifyChild (fun c => name_setValue) isInner_transform
    exact fun c => findChildren_setValue (by decide) c _ _

theorem batchFields_withOutput (s : Rebound × Bool) (count? : Option Nat) :
    batchFields (withOutput count? s).layer = batchFields s.1.layer := by
  cases count? with
  | none => rfl
  | some count =>
    rw [withOutput]
    split
    · have hcount : ∀ c : Node, (c.withValue (toString count) .numeric).name = c.name := fun c => rfl
      apply batchFields_modifyChild (keepsSide_numOutput count).name (by simp [IsInner])
      exact fun p => findChildren_modifyChild hcount (by decide)
    · rfl

end Layer

section Slots

variable {rs rs' : List Rebound} {slot : Phase} {i : Nat} {size : Int}

def IsLastOf (slot : Phase) (rs : List Rebound) (i : Nat) (size : Int) : Prop :=
  (∃ r, rs[i]? = some r ∧ r.batch? slot = some size) ∧
    ∀ j s, i < j → rs[j]? = some s → s.batch? slot = none

def Rebound.TrainsIn (r : Rebound) (size : Int) : Prop :=
  includePhase r.layer = .ok .train ∧ r.batch? .train = some size

theorem isLastOf_of_split {before after : List Rebound} {r : Rebound} (hr : r.batch? slot = some size)
    (hafter : ∀ s ∈ after, s.batch? slot = none) :
    IsLastOf slot (before ++ r :: after) before.length size := by
  constructor
  · exact ⟨r, by simp, hr⟩
  · intro j s hj hs
    rcases getElem?_split_iff.mp hs with hbefore | ⟨rfl, -⟩ | ⟨k, -, hk⟩
    · have hlt := (List.getElem?_eq_some_iff.mp hbefore).1
      omega
    · omega
    · exact hafter s (List.mem_of_getElem? hk)

theorem lastBatch_eq_some_iff_exists : lastBatch slot rs = some size ↔ ∃ i, IsLastOf slot rs i size := by
  rw [lastBatch_eq_some_iff]
  constructor
  · rintro ⟨before, r, after, rfl, hr, hafter⟩
    exact ⟨before.length, isLastOf_of_split hr hafter⟩
  · rintro ⟨i, ⟨r, hi, hr⟩, hafter⟩
    obtain ⟨hlt, rfl⟩ := List.getElem?_eq_some_iff.mp hi
    refine ⟨rs.take i, rs[i], rs.drop (i + 1), by simp, hr, fun s hs => ?_⟩
    obtain ⟨j, hj⟩ := List.mem_iff_getElem?.mp hs
    rw [List.getElem?_drop] at hj
    exact hafter _ s (by omega) hj

theorem includePhase_raise (r : Rebound) (size : Int) :
    includePhase (r.raise size).layer = includePhase r.layer :=
  includePhase_modifyChild (fun _ => name_setValue) (isInner_sourceBlockName r.kind)

theorem mem_raised_iff {before after : List Rebound} {r s : Rebound} {train test y : Int}
    (hr : r.batch? .train = some train) (hs : s.batch? .test = some y) :
    s ∈ before ++ r.raise test :: after ↔ s ∈ before ++ r :: after := by
  obtain ⟨-, hraised, hbefore⟩ := batch?_raise hr test
  have hne : s ≠ r := by
    rintro rfl
    rw [hbefore] at hs
    cases hs
  have hne' : s ≠ r.raise test := by
    rintro rfl
    rw [hraised] at hs
    cases hs
  simp [hne, hne']

theorem Levels.trainsAsTested_iff (h : Levels rs rs') :
    (∀ r ∈ rs', ∀ s ∈ rs', ∀ x y, r.TrainsIn x → s.batch? .test = some y → y ≤ x) ↔
      ∀ i r x, rs[i]? = some r → r.TrainsIn x → ∀ s ∈ rs, ∀ y, s.batch? .test = some y →
        y ≤ x ∨ IsLastOf .train rs i x ∧ ∃ z, lastBatch .test rs = some z ∧ y ≤ z := by
  cases h with
  | kept hkept =>
    constructor
    · intro hlaw i r x hi hr s hs y hy
      exact .inl (hlaw r (List.mem_of_getElem? hi) s hs x y hr hy)
    · intro hlaw r hr s hs x y hx hy
      obtain ⟨i, hi⟩ := List.mem_iff_getElem?.mp hr
      rcases hlaw i r x hi hx s hs y hy with hle | ⟨hlast, z, hz, hyz⟩
      · exact hle
      · have hzx := hkept x z (lastBatch_eq_some_iff_exists.mpr ⟨i, hlast⟩) hz
        omega
  | @raised before after r train test hr hafter htest hlt =>
    have hraised := (batch?_raise hr test).1
    constructor
    · intro hlaw i t x hi ht s hs y hy
      rw [← mem_raised_iff hr hy] at hs
      rcases getElem?_split_iff.mp hi with hbefore | ⟨rfl, rfl⟩ | ⟨j, -, hj⟩
      · have hmem := List.mem_of_getElem? hbefore
        exact .inl (hlaw t (List.mem_append_left _ hmem) s hs x y ht hy)
      · obtain rfl : train = x := Option.some.inj (hr.symm.trans ht.2)
        have htrains : (r.raise test).TrainsIn test := ⟨(includePhase_raise r test).trans ht.1, hraised⟩
        exact .inr ⟨isLastOf_of_split hr hafter, test, htest, hlaw _ (by simp) s hs test y htrains hy⟩
      · have hnone := hafter t (List.mem_of_getElem? hj)
        rw [ht.2] at hnone
        cases hnone
    · intro hlaw t ht s hs x y hx hy
      rw [mem_raised_iff hr hy] at hs
      obtain ⟨i, hi⟩ := List.mem_iff_getElem?.mp ht
      rcases getElem?_split_iff.mp hi with hbefore | ⟨-, rfl⟩ | ⟨j, -, hj⟩
      · have hi := (List.getElem?_eq_some_iff.mp hbefore).1
        rcases hlaw i t x (getElem?_split_iff.mpr (.inl hbefore)) hx s hs y hy with hle | ⟨hlast, -⟩
        · exact hle
        · -- The layer that was raised comes later.
          have hnone := hlast.2 before.length r hi (by simp)
          rw [hr] at hnone
          cases hnone
      · obtain rfl : test = x := Option.some.inj (hraised.symm.trans hx.2)
        have htrains : r.TrainsIn train := ⟨(includePhase_raise r test).symm.trans hx.1, hr⟩
        rcases hlaw before.length r train (by simp) htrains s hs y hy with hle | ⟨-, z, hz, hyz⟩
        · omega
        · obtain rfl : test = z := Option.some.inj (htest.symm.trans hz)
          exact hyz
      · have hnone := hafter t (List.mem_of_getElem? hj)
        rw [hx.2] at hnone
        cases hnone

end Slots

section Whole

variable {b : Binding} {resize flag : Bool} {count? : Option Nat} {n m l l' : Node}
  {rs rs' : List Rebound} {r : Rebound} {slot : Phase} {i : Nat} {size : Int}

theorem Rebound.Describes.isBatched_train_iff (h : r.Describes l)
    (hp : includePhase r.layer = includePhase l) : IsBatched l .train size ↔ r.TrainsIn size := by
  rw [isBatched_iff (by decide), h.takesSlot_iff, ← hp]
  rfl

theorem includePhase_rebindLayer (h : rebindLayer b l = .ok r) :
    includePhase r.layer = includePhase l := by
  apply eq_of_rebindLayer h
  · exact fun l kind name => includePhase_modifyChild (fun c => name_setValue) (isInner_sourceBlockName kind)
  · exact fun l size => includePhase_modifyChild (fun c => name_setValue) isInner_transform

theorem includePhase_withOutput (s : Rebound × Bool) (count? : Option Nat) :
    includePhase (withOutput count? s).layer = includePhase s.1.layer := by
  cases count? with
  | none => rfl
  | some count =>
    rw [withOutput]
    split
    · exact includePhase_modifyChild (fun c => rfl) (by simp [IsInner])
    · rfl

theorem describes_withOutput {s : Rebound × Bool} (h : IsAtRest b s.1) (count? : Option Nat) :
    s.1.Describes (withOutput count? s).layer := by
  have hrest : IsAtRest b (withOutput count? s) := h.withOutput
  obtain ⟨hkind, hother, hfeed⟩ := hrest.toDescribes
  rw [kind_withOutput] at hkind hother hfeed
  rw [feed_withOutput] at hother hfeed
  exact ⟨hkind, hother, hfeed⟩

theorem IsRebound.isLastIn_iff (h : IsRebound b count? n m rs rs') :
    IsLastIn slot n i size ↔ IsLastOf slot rs i size := by
  constructor
  · rintro ⟨l, hl, htakes, hafter⟩
    obtain ⟨r, hr, hstep⟩ := h.exists_rebound hl
    refine ⟨⟨r, hr, (describes_rebindLayer hstep).takesSlot_iff.mp htakes⟩, ?_⟩
    intro j s hj hs
    obtain ⟨k, hk, hstep⟩ := h.exists_layer hs
    rw [Option.eq_none_iff_forall_ne_some]
    intro other hother
    exact hafter j k hj hk other ((describes_rebindLayer hstep).takesSlot_iff.mpr hother)
  · rintro ⟨⟨r, hr, hbatch⟩, hafter⟩
    obtain ⟨l, hl, hstep⟩ := h.exists_layer hr
    refine ⟨l, hl, (describes_rebindLayer hstep).takesSlot_iff.mpr hbatch, ?_⟩
    intro j k hj hk other hother
    obtain ⟨s, hs, hstep⟩ := h.exists_rebound hk
    have hnone := hafter j s hj hs
    rw [(describes_rebindLayer hstep).takesSlot_iff.mp hother] at hnone
    cases hnone

theorem IsRebound.keepsOrRaises (h : IsRebound b count? n m rs rs') (hl : (layers n)[i]? = some l)
    (hl' : (layers m)[i]? = some l') : KeepsOrRaises l l' := by
  obtain ⟨l, r, r', hn, hstep, hi, hraised, rfl⟩ := h.of_getElem? hl'
  obtain rfl := Option.some.inj (hl.symm.trans hn)
  rcases hraised with rfl | ⟨train, test, hr, hlt, rfl⟩
  · left
    rw [batchFields_withOutput, batchFields_rebindLayer hstep]
  · right
    obtain ⟨phase, hnone, hslot, hbatched⟩ := (describes_rebindLayer hstep).takesSlot_iff.mpr hr
    have htest : phase ≠ .test := by
      rintro rfl
      cases hslot
    have hphase := ((isBatched_iff hnone).mp hbatched).1
    refine ⟨phase, train, test, htest, hbatched, (isBatched_iff hnone).mpr ⟨?_, ?_⟩, hlt⟩
    · rw [includePhase_withOutput, includePhase_raise, includePhase_rebindLayer hstep, hphase]
    · rw [hslot, (describes_withOutput (h.atRest _ (List.mem_of_getElem? hi)) count?).takesSlot_iff]
      exact (batch?_raise hr test).1

theorem IsRebound.trainsAsTested_iff (h : IsRebound b count? n m rs rs') : TrainsAsTested m ↔
    ∀ r ∈ rs', ∀ s ∈ rs', ∀ x y, r.TrainsIn x → s.batch? .test = some y → y ≤ x := by
  have hdescribes : ∀ t ∈ beforeLoss rs', t.1.Describes (withOutput count? t).layer := by
    intro t ht
    exact describes_withOutput (h.atRest t.1 (mem_of_mem_beforeLoss ht)) count?
  have htrains : ∀ t ∈ beforeLoss rs', ∀ x,
      IsBatched (withOutput count? t).layer .train x ↔ t.1.TrainsIn x := fun t ht x =>
    (hdescribes t ht).isBatched_train_iff (includePhase_withOutput t count?).symm
  have htests : ∀ t ∈ beforeLoss rs', ∀ y,
      IsBatched (withOutput count? t).layer .test y ↔ t.1.batch? .test = some y := fun t ht y =>
    isBatched_test_iff.trans (hdescribes t ht).takesSlot_iff
  rw [TrainsAsTested, h.written, finished]
  conv_rhs => rw [← map_beforeLoss rs']
  simp only [List.forall_mem_map]
  constructor
  · intro hlaw t ht u hu x y hx hy
    exact hlaw t ht u hu x y ((htrains t ht x).mpr hx) ((htests u hu y).mpr hy)
  · intro hlaw t ht u hu x y hx hy
    exact hlaw t ht u hu x y ((htrains t ht x).mp hx) ((htests u hu y).mp hy)

end Whole

/-- No batches shrink and tests keep theirs. Training is at the level of tests if all layers in its
slot but the last one were there already, and no test is above the last one. -/
theorem rebind_batches {b : Binding} {resize flag : Bool} {n m : Node}
    (h : rebind b resize n = .ok (m, flag)) :
    (layers m).length = (layers n).length ∧
    (∀ (i : Nat) l l', (layers n)[i]? = some l → (layers m)[i]? = some l' → KeepsOrRaises l l') ∧
    (TrainsAsTested m ↔ ∀ (i : Nat) l x, (layers n)[i]? = some l → IsBatched l .train x →
      ∀ s ∈ layers n, ∀ y, IsBatched s .test y →
        y ≤ x ∨ IsLastIn .train n i x ∧ ∃ j z, IsLastIn .test n j z ∧ y ≤ z) := by
  obtain ⟨rs, rs', h, -⟩ := isRebound_of_rebind h
  refine ⟨h.length, fun i l l' hl hl' => h.keepsOrRaises hl hl', ?_⟩
  rw [h.trainsAsTested_iff, h.levels.trainsAsTested_iff]
  simp only [lastBatch_eq_some_iff_exists, h.isLastIn_iff]
  constructor
  · intro hlaw i l x hl hx s hs y hy
    obtain ⟨r, hr, hstep⟩ := h.exists_rebound hl
    obtain ⟨j, hj⟩ := List.mem_iff_getElem?.mp hs
    obtain ⟨t, ht, hstep'⟩ := h.exists_rebound hj
    have htrains := ((describes_rebindLayer hstep).isBatched_train_iff
      (includePhase_rebindLayer hstep)).mp hx
    have htests := (describes_rebindLayer hstep').takesSlot_iff.mp (isBatched_test_iff.mp hy)
    obtain hle | ⟨hlast, z, ⟨k, hk⟩, hyz⟩ := hlaw i r x hr htrains t (List.mem_of_getElem? ht) y htests
    · exact .inl hle
    · exact .inr ⟨hlast, k, z, hk, hyz⟩
  · intro hlaw i r x hr hx s hs y hy
    obtain ⟨l, hl, hstep⟩ := h.exists_layer hr
    obtain ⟨j, hj⟩ := List.mem_iff_getElem?.mp hs
    obtain ⟨t, ht, hstep'⟩ := h.exists_layer hj
    have htrains := ((describes_rebindLayer hstep).isBatched_train_iff
      (includePhase_rebindLayer hstep)).mpr hx
    have htests := isBatched_test_iff.mpr ((describes_rebindLayer hstep').takesSlot_iff.mpr hy)
    obtain hle | ⟨hlast, k, z, hk, hyz⟩ := hlaw i l x hl htrains t (List.mem_of_getElem? ht) y htests
    · exact .inl hle
    · exact .inr ⟨hlast, z, ⟨k, hk⟩, hyz⟩

def batchedReader (phase size : String) : Node :=
  block "layer" [leaf "type" "Data" .string, block "include" [leaf "phase" phase .unknown],
    block "data_param" [leaf "batch_size" size .numeric]]

def overtakenReader : Node :=
  root [batchedReader "TRAIN" "16", batchedReader "TEST" "32", batchedReader "RUN" "64"]

theorem rebind_batches_overtaken : ∃ m flag, rebind {} false overtakenReader = .ok (m, flag) ∧
    (layers m).length = 3 ∧ ¬ TrainsAsTested m := by
  obtain ⟨⟨m, flag⟩, hm, -⟩ : ∃ r, rebind {} false overtakenReader = .ok r ∧ (!r.2) = true :=
    exists_ok (by decide +kernel)
  obtain ⟨hlength, -, hlaw⟩ := rebind_batches hm
  refine ⟨m, flag, hm, hlength, fun htrains => ?_⟩
  have hruns : TakesSlot .train (batchedReader "RUN" "64") 64 :=
    ⟨.run, by decide, rfl, by decide +kernel⟩
  have htests : batchedReader "TEST" "32" ∈ layers overtakenReader := List.mem_of_getElem? (i := 1) rfl
  rcases hlaw.mp htrains 0 _ 16 rfl (by decide +kernel) _ htests 32 (by decide +kernel) with
    hle | ⟨⟨-, -, -, hlast⟩, -⟩
  · omega
  · exact hlast 2 _ (by decide) rfl 64 hruns

def runAfterTests : String :=
  "layer \x7b type: \"Data\" include \x7b phase: TRAIN \x7d data_param \x7b batch_size: 16 \x7d \x7d " ++
    "layer \x7b type: \"Data\" include \x7b phase: TEST \x7d data_param \x7b batch_size: 32 \x7d \x7d " ++
    "layer \x7b type: \"Data\" include \x7b phase: RUN \x7d data_param \x7b batch_size: 64 \x7d \x7d"

theorem parse_runAfterTests : parse runAfterTests = .ok overtakenReader := by
  obtain ⟨n, hn, he⟩ : ∃ n, parse runAfterTests = .ok n ∧ decide (n = overtakenReader) = true := by
    apply exists_parse
    · exact toList_append_of (toList_append_of String.toList_ofList String.toList_ofList)
        String.toList_ofList
    · decide +kernel
  rw [hn, of_decide_eq_true he]

def boundReader (phase size : String) : Node :=
  block "layer" [leaf "type" "Data" .string, block "include" [leaf "phase" phase .unknown],
    block "data_param" [leaf "batch_size" size .numeric, leaf "source" "" .string]]

theorem rebind_below_tests : ∃ n r, parse runAfterTests = .ok n ∧ rebind {} false n = .ok r ∧
    ¬ TrainsAsTested r.1 := by
  obtain ⟨r, hr, hlayers⟩ : ∃ r, rebind {} false overtakenReader = .ok r ∧ decide (layers r.1 =
      [boundReader "TRAIN" "16", boundReader "TEST" "32", boundReader "RUN" "64"]) = true :=
    exists_ok (by decide +kernel)
  refine ⟨_, r, parse_runAfterTests, hr, fun htrains => ?_⟩
  rw [TrainsAsTested, of_decide_eq_true hlayers] at htrains
  have hx : IsBatched (boundReader "TRAIN" "16") .train 16 := by decide +kernel
  have hy : IsBatched (boundReader "TEST" "32") .test 32 := by decide +kernel
  have hle := htrains _ (by simp) _ (by simp) 16 32 hx hy
  omega

end NetDesc.Network
