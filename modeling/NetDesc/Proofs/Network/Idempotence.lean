import NetDesc.Proofs.Network.Training

namespace NetDesc.Network

open Node

/-- All that training needs is there, but a softmax may still wait for its loss. -/
structure IsPrepared (n : Node) : Prop where
  trains : ∀ l ∈ layers n, Trains l
  training : ∃ l ∈ layers n, Feeds .train l
  testing : ∃ l ∈ layers n, Feeds .test l
  measured : (∃ l ∈ layers n, LayerKind.ofNode l = .ok .accuracy) ∨
    ∀ l, (layers n).getLast? = some l → l.findValues "bottom" = []
  noDimensions : n.findChild "input_dim" = none

def trainsSoftmax (l : Node) : Bool :=
  match traits l with
  | .ok t => t.trains && t.kind = .softmax
  | .error _ => false

theorem trainsSoftmax_of_traits {l : Node} {t : Traits} (h : traits l = .ok t) :
    trainsSoftmax l = (t.trains && t.kind = .softmax) := by
  rw [trainsSoftmax, h]

theorem trainsSoftmax_iff {l : Node} (h : Trains l) :
    trainsSoftmax l = true ↔ LayerKind.ofNode l = .ok .softmax := by
  obtain ⟨t, ht, -⟩ := id h
  rw [trainsSoftmax_of_traits ht, (trains_iff_of_traits ht).mp h, ofNode_of_traits ht]
  simp

section Counting

variable {settings : Settings} {name : String} {native : Bool} {n r : Node}
  {kept scanned : List (Traits × Node)}

theorem countP_insertAt {α : Type} {p : α → Bool} {x : α} (hx : p x = false) (i : Int)
    (xs : List α) : (insertAt i x xs).countP p = xs.countP p := by
  obtain ⟨pre, post, rfl, he⟩ := insertAt_eq i x xs
  rw [he, List.countP_append, List.countP_append, List.countP_cons_of_neg (by simp [hx])]

theorem countP_withData {p : Node → Bool} {make : Phase → Node} {kinds : List Traits}
    {ls : List Node} (htrain : p (make .train) = false) (htest : p (make .test) = false) :
    (withData make kinds ls).countP p = ls.countP p := by
  have htests : (withTests make kinds ls).countP p = ls.countP p := by
    unfold withTests
    split
    · rfl
    split
    · exact countP_insertAt htest _ ls
    · exact List.countP_cons_of_neg (by simp [htest])
  rw [withData_eq]
  split
  · exact htests
  · rw [List.countP_cons_of_neg (by simp [htrain]), htests]

theorem countP_withLoss (ht : ∀ s ∈ kept, traits s.2 = .ok s.1)
    (hk : ∀ s ∈ kept, s.1.trains = true) :
    (withLoss settings kept).countP trainsSoftmax =
      (kept.map Prod.snd).countP trainsSoftmax - 1 := by
  have hsoft : ∀ s ∈ kept, trainsSoftmax s.2 = isSoftmax s := fun s hs => by
    rw [trainsSoftmax_of_traits (ht s hs), hk s hs, isSoftmax, Bool.true_and]
  by_cases h : ∃ s ∈ kept, isSoftmax s = true
  · obtain ⟨pre, s, post, rfl, hs, hpost⟩ := exists_last h
    have hloss : trainsSoftmax (toLoss settings s.2) = false := by
      obtain ⟨u, hu, hkind, -⟩ := traits_toLoss settings (ht s (by simp)) (hk s (by simp))
      simp [trainsSoftmax_of_traits hu, hkind]
    have hkeep : trainsSoftmax s.2 = true := (hsoft s (by simp)).trans hs
    rw [withLoss_append hs hpost, List.countP_append, List.countP_cons_of_neg (by simp [hloss]),
      List.map_append, List.map_cons, List.countP_append, List.countP_cons_of_pos hkeep]
    omega
  · have hnone : ∀ s ∈ kept, isSoftmax s = false := fun s hs =>
      Bool.eq_false_iff.mpr fun hs' => h ⟨s, hs, hs'⟩
    have hzero : (kept.map Prod.snd).countP trainsSoftmax = 0 := by
      rw [List.countP_eq_zero]
      intro l hl
      obtain ⟨s, hs, rfl⟩ := List.mem_map.mp hl
      simp [hsoft s hs, hnone s hs]
    rw [withLoss_eq_self hnone, hzero]

theorem getLast?_withLoss (h : ∀ s, kept.getLast? = some s → isSoftmax s = false) :
    (withLoss settings kept).getLast? = (kept.map Prod.snd).getLast? := by
  by_cases hany : ∃ s ∈ kept, isSoftmax s = true
  · obtain ⟨pre, s, post, rfl, hs, hpost⟩ := exists_last hany
    rw [withLoss_append hs hpost, List.map_append, List.map_cons]
    cases post with
    | nil =>
      rw [h s (by simp)] at hs
      cases hs
    | cons q post => simp
  · have hnone : ∀ s ∈ kept, isSoftmax s = false := fun s hs' =>
      Bool.eq_false_iff.mpr fun hs => hany ⟨s, hs', hs⟩
    rw [withLoss_eq_self hnone]

theorem not_softmax_of_getLast?_withLoss (ht : ∀ s ∈ kept, traits s.2 = .ok s.1) {l : Node}
    (hl : (withLoss settings kept).getLast? = some l) : LayerKind.ofNode l ≠ .ok .softmax := by
  by_cases hlast : ∃ s, kept.getLast? = some s ∧ isSoftmax s = true
  · obtain ⟨s, hs, hsoft⟩ := hlast
    obtain ⟨pre, rfl⟩ := List.getLast?_eq_some_iff.mp hs
    rw [withLoss_append hsoft (by simp)] at hl
    simp only [List.map_nil, List.getLast?_append, List.getLast?_singleton, Option.some_or,
      Option.some.injEq] at hl
    rw [← hl, LayerKind.ofNode_of_findValue (findValue_toLoss settings s.2)]
    simp
  · have hnot : ∀ s, kept.getLast? = some s → isSoftmax s = false := fun s hs =>
      Bool.eq_false_iff.mpr fun hsoft => hlast ⟨s, hs, hsoft⟩
    rw [getLast?_withLoss hnot, List.getLast?_map] at hl
    obtain ⟨s, hs, rfl⟩ := Option.map_eq_some_iff.mp hl
    rw [ofNode_of_traits (ht s (List.mem_of_getLast? hs))]
    simpa [isSoftmax] using hnot s hs

theorem getLast?_insertAt {α : Type} {x y : α} {i : Int} {xs : List α}
    (h : (insertAt i x xs).getLast? = some y) : y = x ∨ xs.getLast? = some y := by
  obtain ⟨pre, post, rfl, he⟩ := insertAt_eq i x xs
  rw [he] at h
  cases post with
  | nil => exact .inl (by simpa using h.symm)
  | cons z post => exact .inr (by simpa using h)

theorem getLast?_withData {make : Phase → Node} {kinds : List Traits} {ls : List Node} {l : Node}
    (h : (withData make kinds ls).getLast? = some l) :
    l = make .train ∨ l = make .test ∨ ls.getLast? = some l := by
  have hcons {x : Node} {xs : List Node} (h : (x :: xs).getLast? = some l) :
      l = x ∨ xs.getLast? = some l := by
    cases xs with
    | nil => exact .inl (by simpa using h.symm)
    | cons y xs => exact .inr (by simpa using h)
  have htests (h : (withTests make kinds ls).getLast? = some l) :
      l = make .test ∨ ls.getLast? = some l := by
    unfold withTests at h
    split at h
    · exact .inr h
    split at h
    · exact getLast?_insertAt h
    · exact hcons h
  rw [withData_eq] at h
  split at h
  · exact .inr (htests h)
  · exact (hcons h).imp_right htests

theorem countP_staying (ht : ∀ s ∈ scanned, traits s.2 = .ok s.1) :
    ((staying scanned).map Prod.snd).countP trainsSoftmax =
      (scanned.map Prod.snd).countP trainsSoftmax := by
  rw [List.countP_map, List.countP_map, staying, List.countP_filter]
  refine List.countP_congr fun s hs => ?_
  simp only [Function.comp_apply, trainsSoftmax_of_traits (ht s hs)]
  cases s.1.trains <;> simp

theorem trainsSoftmax_dataLayer (key source : String) {p : Phase} (hp : p = .train ∨ p = .test) :
    trainsSoftmax (dataLayer key name p native source settings) = false := by
  have ht := trainsSoftmax_of_traits (traits_dataLayer key name source p native settings hp)
  exact ht.trans (Bool.and_false _)

theorem countP_fed : (fed settings name native n kept).countP trainsSoftmax =
    (withLoss settings kept).countP trainsSoftmax := by
  have hmake {p : Phase} (hp : p = .train ∨ p = .test) :
      trainsSoftmax ((fun p => dataLayer (layerKey n) name p native "" settings) p) = false :=
    trainsSoftmax_dataLayer _ _ hp
  exact countP_withData (hmake (.inl rfl)) (hmake (.inr rfl))

theorem countP_forTraining (h : forTraining settings name native n = .ok r) :
    (layers r).countP trainsSoftmax = (layers n).countP trainsSoftmax - 1 := by
  obtain ⟨scanned, hm, ht, -, hr⟩ := layers_completed h
  have hmeasure : (measure? settings name native n (staying scanned)).toList.countP
      trainsSoftmax = 0 := by
    rw [List.countP_eq_zero]
    intro a ha
    obtain ⟨b, rfl⟩ := accuracyFor?_eq_some (Option.mem_toList.mp ha)
    rw [Bool.not_eq_true]
    have ht := trainsSoftmax_of_traits (traits_accuracyLayer (layerKey n) b settings)
    exact ht.trans (Bool.and_false _)
  rw [hr, List.countP_append, hmeasure, countP_fed,
    countP_withLoss (traits_of_mem_staying ht) trains_of_mem_staying, countP_staying ht, hm]
  rfl

theorem last_forTraining (h : forTraining settings name native n = .ok r) {l : Node}
    (hl : (layers r).getLast? = some l) : LayerKind.ofNode l ≠ .ok .softmax := by
  obtain ⟨scanned, hm, ht, -, hr⟩ := layers_completed h
  have hdata (p : Phase) : LayerKind.ofNode (dataLayer (layerKey n) name p native "" settings) ≠
      .ok .softmax := by
    rw [LayerKind.ofNode_of_findValue (findValue_type_dataLayer ..)]
    simp
  rw [hr] at hl
  cases ha : measure? settings name native n (staying scanned) with
  | some a =>
    obtain ⟨b, rfl⟩ := accuracyFor?_eq_some ha
    rw [ha] at hl
    obtain rfl : accuracyLayer (layerKey n) b settings = l := by simpa using hl
    rw [ofNode_accuracyLayer]
    simp
  | none =>
    rw [ha, Option.toList_none, List.append_nil] at hl
    rcases getLast?_withData hl with rfl | rfl | hl
    · exact hdata .train
    · exact hdata .test
    · exact not_softmax_of_getLast?_withLoss (traits_of_mem_staying ht) hl

end Counting

section Completing

variable {settings : Settings} {name : String} {native : Bool} {n r : Node}

theorem scan_isOk {ls : List Node} (h : ∀ l ∈ ls, ∃ t, traits l = .ok t) :
    ∃ scanned, (ls.mapM fun l => do return (← traits l, l)) = .ok scanned := by
  induction ls with
  | nil => exact ⟨[], rfl⟩
  | cons l ls ih =>
    obtain ⟨t, ht⟩ := h l (List.mem_cons_self ..)
    obtain ⟨scanned, hs⟩ := ih fun m hm => h m (List.mem_cons_of_mem l hm)
    refine ⟨(t, l) :: scanned, ?_⟩
    rw [List.mapM_cons, ht, hs]
    rfl

theorem any_feeds {scanned : List (Traits × Node)} (hm : scanned.map Prod.snd = layers n)
    (ht : ∀ s ∈ scanned, traits s.2 = .ok s.1) {p : Phase} (h : ∃ l ∈ layers n, Feeds p l) :
    (scanned.map Prod.fst).any (Traits.feeds p) = true := by
  obtain ⟨l, hl, t, htl, hf⟩ := h
  obtain ⟨s, hs, rfl⟩ := List.mem_map.mp (hm ▸ hl)
  have hst : s.1 = t := Except.ok.inj ((ht s hs).symm.trans htl)
  exact List.any_eq_true.mpr ⟨s.1, List.mem_map_of_mem hs, Traits.feeds_iff.mpr (hst ▸ hf)⟩

theorem accuracyFor?_eq_none {scanned : List (Traits × Node)} {key : String}
    (hm : scanned.map Prod.snd = layers n) (ht : ∀ s ∈ scanned, traits s.2 = .ok s.1)
    (h : (∃ l ∈ layers n, LayerKind.ofNode l = .ok .accuracy) ∨
      ∀ l, (layers n).getLast? = some l → l.findValues "bottom" = []) :
    accuracyFor? key settings (scanned.map Prod.fst) (layers n) = none := by
  unfold accuracyFor?
  split
  · rfl
  · next ha =>
    rcases h with ⟨l, hl, hk⟩ | h
    · obtain ⟨s, hs, rfl⟩ := List.mem_map.mp (hm ▸ hl)
      have hkind : s.1.kind = .accuracy := Except.ok.inj ((ofNode_of_traits (ht s hs)).symm.trans hk)
      refine absurd (List.any_eq_true.mpr ⟨s.1, List.mem_map_of_mem hs, ?_⟩) ha
      exact decide_eq_true hkind
    · cases hl : (layers n).getLast? with
      | none => rfl
      | some l =>
        simp [h l hl]

theorem findChild_dimensions_forTraining (h : forTraining settings name native n = .ok r) :
    r.findChild "input_dim" = none := by
  rw [findChild_eq_none_iff]
  intro c hc hname
  rcases children_forTraining h hc with hk | hk | ⟨hc, hn⟩
  · exact absurd (hname.symm.trans hk) (by decide)
  · rcases layerKey_eq n with hl | ⟨hl, -⟩ <;>
      exact absurd (hname.symm.trans (hk.trans hl)) (by decide)
  · exact findChild_eq_none_iff.mp hn c hc hname

theorem isPrepared_forTraining (h : forTraining settings name native n = .ok r) : IsPrepared r where
  trains := trains_forTraining h
  training := feeds_forTraining h (.inl rfl)
  testing := feeds_forTraining h (.inr rfl)
  measured := measured_forTraining h
  noDimensions := findChild_dimensions_forTraining h

theorem traits_of_trains (h : ∀ l ∈ layers n, Trains l) : ∀ l ∈ layers n, ∃ t, traits l = .ok t := by
  intro l hl
  obtain ⟨t, ht, -⟩ := h l hl
  exact ⟨t, ht⟩

theorem forTraining_isOk (h : ∀ l ∈ layers n, ∃ t, traits l = .ok t)
    (hw : ∀ scanned : List (Traits × Node), scanned.map Prod.snd = layers n →
      (∀ s ∈ scanned, traits s.2 = .ok s.1) →
      isUnwritten settings ((staying scanned).map Prod.fst)
        (measure? settings name native n (staying scanned)) = false) :
    ∃ r, forTraining settings name native n = .ok r := by
  obtain ⟨scanned, hs⟩ := scan_isOk h
  obtain ⟨hm, ht⟩ := scan_eq_ok hs
  have hwritten := hw scanned hm ht
  rw [forTraining, hs, ok_bind]
  dsimp only
  split
  · next hu => exact absurd (hwritten.symm.trans hu) (by decide)
  split
  · exact ⟨_, rfl⟩
  · exact ⟨_, rfl⟩

theorem staying_eq_self {scanned : List (Traits × Node)} (hm : scanned.map Prod.snd = layers n)
    (ht : ∀ s ∈ scanned, traits s.2 = .ok s.1) (h : ∀ l ∈ layers n, Trains l) :
    staying scanned = scanned := by
  apply List.filter_eq_self.mpr
  intro s hs
  have hmem : s.2 ∈ layers n := hm ▸ List.mem_map_of_mem hs
  exact (trains_iff_of_traits (ht s hs)).mp (h s.2 hmem)

theorem forTraining_isOk_of_isPrepared (h : IsPrepared n)
    (hlast : ∀ l, (layers n).getLast? = some l → LayerKind.ofNode l ≠ .ok .softmax) :
    ∃ r, forTraining settings name native n = .ok r := by
  refine forTraining_isOk (traits_of_trains h.trains) fun scanned hm ht => ?_
  have htrain := any_feeds hm ht h.training
  have htest := any_feeds hm ht h.testing
  have hend : (withLoss settings scanned).getLast? = (layers n).getLast? := by
    rw [← hm]
    apply getLast?_withLoss
    intro s hs
    have hkind := hlast s.2 (by rw [← hm, List.getLast?_map, hs, Option.map_some])
    rw [ofNode_of_traits (ht s (List.mem_of_getLast? hs))] at hkind
    simpa [isSoftmax] using hkind
  have hmeasure : measure? settings name native n scanned = none := by
    rw [measure?, fed, withData_eq, if_pos htrain, withTests, if_pos htest, accuracyFor?, hend,
      ← accuracyFor?]
    exact accuracyFor?_eq_none hm ht h.measured
  rw [staying_eq_self hm ht h.trains, isUnwritten, htrain, htest, hmeasure]
  simp

theorem forTraining_self (h : IsPrepared n) (hs : ¬ HasSoftmax n) :
    forTraining settings name native n = .ok n := by
  obtain ⟨scanned, hscan⟩ := scan_isOk (traits_of_trains h.trains)
  obtain ⟨hm, ht⟩ := scan_eq_ok hscan
  have hmem : ∀ s ∈ scanned, s.2 ∈ layers n := fun s hs => hm ▸ List.mem_map_of_mem hs
  have htrains : ∀ s ∈ scanned, s.1.trains = true := fun s hs =>
    (trains_iff_of_traits (ht s hs)).mp (h.trains s.2 (hmem s hs))
  have hsoft : ∀ s ∈ scanned, isSoftmax s = false := by
    intro s hs'
    have hk := ofNode_of_traits (ht s hs')
    rw [isSoftmax, decide_eq_false_iff_not]
    exact fun hkind => hs ⟨s.2, hmem s hs', hk.trans (by rw [hkind])⟩
  have hkept : (scanned.filter fun l => l.1.trains) = scanned := staying_eq_self hm ht h.trains
  have htrain := any_feeds hm ht h.training
  have htest := any_feeds hm ht h.testing
  have hstay : (scanned.map fun l => if l.1.trains then some l.2 else none) =
      (layers n).map some := by
    rw [← hm, List.map_map]
    refine List.map_congr_left fun s hs => ?_
    rw [htrains s hs]
    rfl
  have hany : scanned.any isSoftmax = false := by
    rw [List.any_eq_false]
    exact fun s hs => by simp [hsoft s hs]
  -- Nothing is dropped, added or turned into a loss: the layers are their own successors.
  rw [forTraining, hscan, ok_bind]
  dsimp only
  rw [hkept, withLoss_eq_self hsoft, withData_eq, if_pos htrain, withTests, if_pos htest, hm,
    accuracyFor?_eq_none hm ht h.measured, isUnwritten, htrain, htest, hany, h.noDimensions, hstay,
    withLayers_self]
  simp [pure, Except.pure]

theorem hasSoftmax_iff (h : ∀ l ∈ layers n, Trains l) :
    HasSoftmax n ↔ (layers n).countP trainsSoftmax ≠ 0 := by
  rw [← Nat.pos_iff_ne_zero, List.countP_pos_iff]
  constructor
  · rintro ⟨l, hl, hk⟩
    exact ⟨l, hl, (trainsSoftmax_iff (h l hl)).mpr hk⟩
  · rintro ⟨l, hl, hs⟩
    exact ⟨l, hl, (trainsSoftmax_iff (h l hl)).mp hs⟩

theorem forTraining_eq_self_iff (h : forTraining settings name native n = .ok r) :
    r = n ↔ IsPrepared n ∧ ¬ HasSoftmax n := by
  constructor
  · rintro rfl
    have hp := isPrepared_forTraining h
    -- One softmax fewer can be the same network only if there was none.
    have hc := countP_forTraining h
    refine ⟨hp, fun hs => ?_⟩
    rw [hasSoftmax_iff hp.trains] at hs
    omega
  · rintro ⟨hp, hs⟩
    exact Except.ok.inj (h.symm.trans (forTraining_self hp hs))

/-- A network is its own completion exactly if it is prepared and has no softmax. What was completed
can be completed again, and stays as it is exactly if at most one softmax took part. -/
theorem forTraining_fixpoint (h : forTraining settings name native n = .ok r) :
    (r = n ↔ IsPrepared n ∧ ¬ HasSoftmax n) ∧
      ∃ q, forTraining settings name native r = .ok q ∧
        (q = r ↔ (layers n).countP trainsSoftmax ≤ 1) := by
  refine ⟨forTraining_eq_self_iff h, ?_⟩
  have hp := isPrepared_forTraining h
  obtain ⟨q, hq⟩ : ∃ q, forTraining settings name native r = .ok q :=
    forTraining_isOk_of_isPrepared hp fun l hl => last_forTraining h hl
  refine ⟨q, hq, ?_⟩
  rw [forTraining_eq_self_iff hq, hasSoftmax_iff hp.trains, countP_forTraining h]
  constructor
  · rintro ⟨-, hs⟩
    omega
  · intro hs
    exact ⟨hp, by omega⟩

end Completing

def twoHeads : Node :=
  root [block "layer" [leaf "type" "Softmax" .string, leaf "bottom" "a" .string],
    block "layer" [leaf "type" "Softmax" .string, leaf "bottom" "b" .string]]

theorem forTraining_fixpoint_twoHeads :
    ∃ r q, forTraining .standard "net" false twoHeads = .ok r ∧ r ≠ twoHeads ∧
      forTraining .standard "net" false r = .ok q ∧ q ≠ r := by
  obtain ⟨r, hr⟩ : ∃ r, forTraining .standard "net" false twoHeads = .ok r := by
    have hshort : Decimal.isTooLong Settings.standard.dataBatchSize = false ∧
        Decimal.isTooLong Settings.standard.accuracyTopK = false := by decide +kernel
    refine forTraining_isOk (fun l hl => ?_) fun _ _ _ => by
      rw [isUnwritten, hshort.1, hshort.2, Bool.false_and, Bool.false_and, Bool.false_or]
    have hall : ∀ l ∈ layers twoHeads, (traits l).isOk = true := by decide +kernel
    have hok := hall l hl
    cases ht : traits l with
    | error e =>
      rw [ht] at hok
      cases hok
    | ok t => exact ⟨t, rfl⟩
  obtain ⟨hself, q, hq, hagain⟩ := forTraining_fixpoint hr
  have htwo : (layers twoHeads).countP trainsSoftmax = 2 := by decide +kernel
  refine ⟨r, q, hr, fun he => (hself.mp he).2 ?_, hq, fun he => ?_⟩
  · rw [hasSoftmax_iff (hself.mp he).1.trains, htwo]
    decide
  · have hone := hagain.mp he
    rw [htwo] at hone
    omega

end NetDesc.Network
