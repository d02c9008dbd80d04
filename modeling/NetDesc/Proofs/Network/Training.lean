import NetDesc.Network.Training
import NetDesc.Proofs.Layer.Kind
import NetDesc.Proofs.Network.Layers

namespace NetDesc.Network

open Node

section Made

variable (key name source bottom : String) (p : Phase) (native : Bool) (settings : Settings)

theorem findValue_type_dataLayer :
    (dataLayer key name p native source settings).findValue "type" = some LayerKind.data.name := by
  simp [dataLayer, nameData, dataFields, findValue, findChild, modifyChild, modifyFirst,
    Node.insert, insertAt, block, leaf, LayerKind.name]

theorem findChildren_dataLayer (rules : String) (hr : rules = "include" ∨ rules = "exclude") :
    (dataLayer key name p native source settings).findChildren rules =
      if rules = "include" then [block "include" [leaf "phase" p.name .unknown]] else [] := by
  rcases hr with rfl | rfl <;>
    simp [dataLayer, nameData, dataFields, findChildren, modifyChild, modifyFirst, Node.insert,
      insertAt, block, leaf]

theorem rulePhases_single :
    rulePhases [block "include" [leaf "phase" p.name .unknown]] =
      .ok (Phase.all.expand.filter fun q => p.expand.contains q) := by
  simp [rulePhases, findValue, findChild, block, leaf, parsePhase_name, pure, Except.pure]

theorem traits_dataLayer (hp : p = .train ∨ p = .test) :
    traits (dataLayer key name p native source settings) = .ok ⟨.data, [p], []⟩ := by
  rw [traits, LayerKind.ofNode_of_findValue (findValue_type_dataLayer ..),
    findChildren_dataLayer _ _ _ _ _ _ _ (.inl rfl), findChildren_dataLayer _ _ _ _ _ _ _ (.inr rfl),
    if_pos rfl, if_neg (by decide), rulePhases_single]
  rcases hp with rfl | rfl <;> rfl

theorem ofNode_accuracyLayer : LayerKind.ofNode (accuracyLayer key bottom settings) = .ok .accuracy := by
  apply LayerKind.ofNode_of_findValue
  simp [accuracyLayer, measure, accuracyFields, findValue, findChild, Node.insert, insertAt, block,
    leaf, LayerKind.name]

theorem traits_accuracyLayer :
    traits (accuracyLayer key bottom settings) = .ok ⟨.accuracy, [.test], []⟩ := by
  have hi : (accuracyLayer key bottom settings).findChildren "include" =
      [block "include" [leaf "phase" Phase.test.name .unknown]] := by
    simp [accuracyLayer, measure, accuracyFields, findChildren, Node.insert, insertAt, block, leaf,
      Phase.name]
  have he : (accuracyLayer key bottom settings).findChildren "exclude" = [] := by
    simp [accuracyLayer, measure, accuracyFields, findChildren, Node.insert, insertAt, block, leaf]
  rw [traits, ofNode_accuracyLayer, hi, he, rulePhases_single]
  rfl

end Made

def lossFields (settings : Settings) : List Node :=
  [leaf "bottom" "label" .string, leaf "loss_weight" "1" .numeric,
    block "include" [leaf "phase" "TRAIN" .unknown],
    block "loss_param" [leaf "normalization" settings.lossNormalization.text .unknown]]

theorem children_toLoss (settings : Settings) (l : Node) :
    (toLoss settings l).children =
      (l.setValue "type" LayerKind.softmaxWithLoss.name (some .string)).children ++
        lossFields settings := rfl

theorem findValue_toLoss (settings : Settings) (l : Node) :
    (toLoss settings l).findValue "type" = some LayerKind.softmaxWithLoss.name := by
  have hs := findValue_setValue l "type" LayerKind.softmaxWithLoss.name (some .string)
  rw [findValue, findChild] at hs
  obtain ⟨c, hc, hv⟩ := Option.bind_eq_some_iff.mp hs
  rw [findValue, findChild, children_toLoss, List.find?_append, hc]
  exact hv

theorem findChildren_toLoss (settings : Settings) (l : Node) {name : String} (hn : name ≠ "type") :
    (toLoss settings l).findChildren name =
      l.findChildren name ++ (lossFields settings).filter fun c => c.name == name := by
  have hs := findChildren_setValue hn.symm l LayerKind.softmaxWithLoss.name (some .string)
  rw [findChildren, children_toLoss, List.filter_append, ← findChildren, hs]

theorem traits_toLoss (settings : Settings) {l : Node} {t : Traits} (h : traits l = .ok t)
    (ht : t.trains = true) :
    ∃ u, traits (toLoss settings l) = .ok u ∧ u.kind = .softmaxWithLoss ∧ u.trains = true := by
  obtain ⟨kind, hk, h⟩ := bind_eq_ok.mp h
  obtain ⟨included, hi, h⟩ := bind_eq_ok.mp h
  obtain ⟨excluded, he, h⟩ := bind_eq_ok.mp h
  cases h
  have hl : rulePhases ((lossFields settings).filter fun c => c.name == "include") =
      .ok [.train] := by
    have hf : ((lossFields settings).filter fun c => c.name == "include") =
        [block "include" [leaf "phase" Phase.train.name .unknown]] := by
      simp [lossFields, block, leaf, Phase.name]
    rw [hf, rulePhases_single]
    rfl
  obtain ⟨rs, hr, hm⟩ := rulePhases_append hi hl
  have he' : (toLoss settings l).findChildren "exclude" = l.findChildren "exclude" := by
    rw [findChildren_toLoss settings l (by decide)]
    simp [lossFields, block, leaf]
  refine ⟨⟨.softmaxWithLoss, rs, excluded⟩, ?_, rfl, ?_⟩
  · rw [traits, LayerKind.ofNode_of_findValue (findValue_toLoss settings l),
      findChildren_toLoss settings l (by decide), hr, he', he]
    rfl
  · rw [Traits.trains_iff] at ht ⊢
    refine ⟨fun p hp => ?_, ht.2⟩
    rcases (hm p).mp hp with hp | hp
    · exact ht.1 p hp
    · exact .inl (List.mem_singleton.mp hp)

theorem name_toLoss (settings : Settings) (l : Node) : (toLoss settings l).name = l.name := by
  simp only [toLoss, name_setValue]

def withTests (make : Phase → Node) (kept : List Traits) (ls : List Node) : List Node :=
  if kept.any (Traits.feeds .test) then ls
  else
    match kept.findIdx? (Traits.feeds .train) with
    | some i => insertAt (i + 1) (make .test) ls
    | none => make .test :: ls

theorem isSoftmax_iff {s : Traits × Node} (ht : traits s.2 = .ok s.1) :
    isSoftmax s = true ↔ LayerKind.ofNode s.2 = .ok .softmax := by
  rw [isSoftmax, decide_eq_true_eq, ofNode_of_traits ht, Except.ok.injEq]

theorem isSoftmax_eq_false_iff {s : Traits × Node} (ht : traits s.2 = .ok s.1) :
    isSoftmax s = false ↔ LayerKind.ofNode s.2 ≠ .ok .softmax := by
  rw [← Bool.not_eq_true, isSoftmax_iff ht]

theorem isSoftmax_of_feeds {q : Traits × Node} {p : Phase} (hf : q.1.feeds p = true) :
    isSoftmax q = false := by
  obtain ⟨hkind, -⟩ := Traits.feeds_iff.mp hf
  rcases hkind with hk | hk | hk <;> simp [isSoftmax, hk]

section Parts

variable {settings : Settings} {kept : List (Traits × Node)} {make : Phase → Node}
  {kinds : List Traits} {ls : List Node}

theorem withLoss_eq_self (h : ∀ s ∈ kept, isSoftmax s = false) :
    withLoss settings kept = kept.map Prod.snd := by
  rw [withLoss, modifyLast_eq_self h]

theorem withLoss_append {pre post : List (Traits × Node)} {s : Traits × Node}
    (hs : isSoftmax s = true) (hp : ∀ q ∈ post, isSoftmax q = false) :
    withLoss settings (pre ++ s :: post) =
      pre.map Prod.snd ++ toLoss settings s.2 :: post.map Prod.snd := by
  rw [withLoss, modifyLast_append hs hp, List.map_append, List.map_cons]

theorem mem_withLoss {x : Node} (hx : x ∈ withLoss settings kept) :
    ∃ s ∈ kept, x = s.2 ∨ (isSoftmax s = true ∧ x = toLoss settings s.2) := by
  obtain ⟨s, hs, rfl⟩ := List.mem_map.mp hx
  rcases mem_modifyLast hs with hs | ⟨q, hq, rfl⟩
  · exact ⟨s, hs, .inl rfl⟩
  · exact ⟨q, List.mem_reverse.mp (List.mem_of_find?_eq_some hq), .inr ⟨List.find?_some hq, rfl⟩⟩

theorem mem_withLoss_of_not_softmax {s : Traits × Node} (hs : s ∈ kept)
    (hn : isSoftmax s = false) : s.2 ∈ withLoss settings kept := by
  by_cases h : ∃ s ∈ kept, isSoftmax s = true
  · obtain ⟨pre, q, post, rfl, hq, hp⟩ := exists_last h
    rw [withLoss_append hq hp]
    simp only [List.mem_append, List.mem_cons, List.mem_map]
    rcases List.mem_append.mp hs with hs | hs
    · exact .inl ⟨s, hs, rfl⟩
    rcases List.mem_cons.mp hs with rfl | hs
    · rw [hq] at hn
      cases hn
    · exact .inr (.inr ⟨s, hs, rfl⟩)
  · have hall : ∀ s ∈ kept, isSoftmax s = false := fun s hs =>
      Bool.eq_false_iff.mpr fun ht => h ⟨s, hs, ht⟩
    rw [withLoss_eq_self hall]
    exact List.mem_map_of_mem hs

theorem withData_eq : withData make kinds ls =
    if kinds.any (Traits.feeds .train) then withTests make kinds ls
    else make .train :: withTests make kinds ls := rfl

theorem sublist_withTests : ls.Sublist (withTests make kinds ls) := by
  unfold withTests
  split
  · exact .refl ls
  · split
    · exact sublist_insertAt _ _ ls
    · exact List.sublist_cons_self _ ls

theorem mem_withTests {x : Node} :
    x ∈ withTests make kinds ls ↔
      x ∈ ls ∨ (kinds.any (Traits.feeds .test) = false ∧ x = make .test) := by
  unfold withTests
  by_cases ht : kinds.any (Traits.feeds .test) = true
  · simp [ht]
  · rw [Bool.not_eq_true] at ht
    simp only [ht, Bool.false_eq_true, if_false, true_and]
    split
    · rw [mem_insertAt]
      exact or_comm
    · rw [List.mem_cons]
      exact or_comm

theorem sublist_withData : ls.Sublist (withData make kinds ls) := by
  rw [withData_eq]
  split
  · exact sublist_withTests
  · exact sublist_withTests.cons _

theorem mem_withData {x : Node} :
    x ∈ withData make kinds ls ↔ x ∈ ls ∨
      (kinds.any (Traits.feeds .test) = false ∧ x = make .test) ∨
      (kinds.any (Traits.feeds .train) = false ∧ x = make .train) := by
  rw [withData_eq, ← or_assoc]
  by_cases hr : kinds.any (Traits.feeds .train) = true
  · rw [if_pos hr, mem_withTests]
    simp [hr]
  · rw [if_neg hr, List.mem_cons, mem_withTests, or_comm]
    simp [hr]

end Parts

section Whole

variable {settings : Settings} {name : String} {native : Bool} {n r : Node}
  {kept scanned : List (Traits × Node)}

def staying (scanned : List (Traits × Node)) : List (Traits × Node) :=
  scanned.filter fun s => s.1.trains

theorem trains_of_mem_staying {scanned : List (Traits × Node)} :
    ∀ s ∈ staying scanned, s.1.trains = true := fun _ hs => (List.mem_filter.mp hs).2

theorem traits_of_mem_staying {scanned : List (Traits × Node)}
    (ht : ∀ s ∈ scanned, traits s.2 = .ok s.1) : ∀ s ∈ staying scanned, traits s.2 = .ok s.1 :=
  fun s hs => ht s (List.mem_filter.mp hs).1

def fed (settings : Settings) (name : String) (native : Bool) (n : Node)
    (kept : List (Traits × Node)) : List Node :=
  withData (fun p => dataLayer (layerKey n) name p native "" settings) (kept.map Prod.fst)
    (withLoss settings kept)

def measure? (settings : Settings) (name : String) (native : Bool) (n : Node)
    (kept : List (Traits × Node)) : Option Node :=
  accuracyFor? (layerKey n) settings (kept.map Prod.fst) (fed settings name native n kept)

theorem name_of_mem_fed (hk : ∀ s ∈ kept, s.2.name = layerKey n) {l : Node}
    (hl : l ∈ fed settings name native n kept) : l.name = layerKey n := by
  rcases mem_withData.mp hl with hl | ⟨-, rfl⟩ | ⟨-, rfl⟩
  · obtain ⟨s, hs, rfl | ⟨-, rfl⟩⟩ := mem_withLoss hl
    · exact hk s hs
    · rw [name_toLoss]
      exact hk s hs
  · rfl
  · rfl

theorem accuracyFor?_eq_some {key : String} {kinds : List Traits} {ls : List Node} {a : Node}
    (h : accuracyFor? key settings kinds ls = some a) :
    ∃ bottom, a = accuracyLayer key bottom settings := by
  unfold accuracyFor? at h
  split at h
  · cases h
  · obtain ⟨b, -, rfl⟩ := Option.map_eq_some_iff.mp h
    exact ⟨b, rfl⟩

theorem forTraining_eq_ite (h : forTraining settings name native n = .ok r) :
    ∃ scanned : List (Traits × Node), scanned.map Prod.snd = layers n ∧
      (∀ s ∈ scanned, traits s.2 = .ok s.1) ∧
      isUnwritten settings ((staying scanned).map Prod.fst)
        (measure? settings name native n (staying scanned)) = false ∧
      r = if ((staying scanned).map Prod.fst).any (Traits.feeds .train) &&
          ((staying scanned).map Prod.fst).any (Traits.feeds .test) &&
          !(staying scanned).any isSoftmax &&
          (measure? settings name native n (staying scanned)).isNone &&
          (n.findChild "input_dim").isNone
        then withLayers n (scanned.map fun s => if s.1.trains then some s.2 else none)
        else root ((n.findChild "name").toList ++ fed settings name native n (staying scanned) ++
          (measure? settings name native n (staying scanned)).toList) := by
  obtain ⟨scanned, hs, h⟩ := bind_eq_ok.mp h
  obtain ⟨hm, ht⟩ := scan_eq_ok hs
  refine ⟨scanned, hm, ht, ?_⟩
  dsimp only at h
  split at h
  · cases h
  next hwritten =>
  refine ⟨Bool.eq_false_iff.mpr hwritten, ?_⟩
  split at h
  · next hc =>
    cases h
    exact (if_pos hc).symm
  · next hc =>
    cases h
    exact (if_neg hc).symm

theorem forTraining_eq_ok (h : forTraining settings name native n = .ok r) :
    ∃ scanned : List (Traits × Node), scanned.map Prod.snd = layers n ∧
      (∀ s ∈ scanned, traits s.2 = .ok s.1) ∧
      isUnwritten settings ((staying scanned).map Prod.fst)
        (measure? settings name native n (staying scanned)) = false ∧
      (r = root ((n.findChild "name").toList ++ fed settings name native n (staying scanned) ++
          (measure? settings name native n (staying scanned)).toList) ∨
        r = withLayers n (scanned.map fun s => if s.1.trains then some s.2 else none) ∧
          fed settings name native n (staying scanned) = (staying scanned).map Prod.snd ∧
          measure? settings name native n (staying scanned) = none ∧
          n.findChild "input_dim" = none) := by
  obtain ⟨scanned, hm, ht, hwritten, hr⟩ := forTraining_eq_ite h
  refine ⟨scanned, hm, ht, hwritten, ?_⟩
  split at hr
  · next hc =>
    simp only [Bool.and_eq_true, Bool.not_eq_true', Option.isNone_iff_eq_none] at hc
    obtain ⟨⟨⟨⟨htrain, htest⟩, hsoft⟩, hacc⟩, hdim⟩ := hc
    refine .inr ⟨hr, ?_, hacc, hdim⟩
    rw [fed, withLoss_eq_self fun s hs => by simpa using List.any_eq_false.mp hsoft s hs,
      withData_eq, if_pos htrain, withTests, if_pos htest]
  · exact .inl hr

theorem name_of_scanned (hm : scanned.map Prod.snd = layers n) {s : Traits × Node}
    (hs : s ∈ scanned) : s.2.name = layerKey n := by
  have hl : s.2 ∈ layers n := hm ▸ List.mem_map_of_mem hs
  exact beq_iff_eq.mp (List.mem_filter.mp hl).2

theorem name_of_successor (hm : scanned.map Prod.snd = layers n) {o : Option Node}
    (ho : o ∈ scanned.map fun s => if s.1.trains then some s.2 else none) {l : Node} (hl : l ∈ o) :
    l.name = layerKey n := by
  obtain ⟨s, hs, rfl⟩ := List.mem_map.mp ho
  split at hl
  · cases hl
    exact name_of_scanned hm hs
  · cases hl

theorem name_of_mem_measure? {a : Node} (ha : a ∈ measure? settings name native n kept) :
    a.name = layerKey n := by
  obtain ⟨b, rfl⟩ := accuracyFor?_eq_some ha
  rfl

theorem findChildren_rebuilt (hk : ∀ s ∈ kept, s.2.name = layerKey n) :
    (root ((n.findChild "name").toList ++ fed settings name native n kept ++
      (measure? settings name native n kept).toList)).findChildren (layerKey n) =
        fed settings name native n kept ++ (measure? settings name native n kept).toList := by
  have hname : ((n.findChild "name").toList.filter fun c => c.name == layerKey n) = [] := by
    rw [List.filter_eq_nil_iff]
    intro c hc
    have hcn := List.find?_some (Option.mem_toList.mp hc)
    rcases layerKey_eq n with hl | ⟨hl, -⟩ <;> rw [hl, beq_iff_eq.mp hcn] <;> decide
  have hfed : (fed settings name native n kept).filter (fun c => c.name == layerKey n) =
      fed settings name native n kept :=
    filter_eq_self_of_name fun l hl => name_of_mem_fed hk hl
  have hacc : (measure? settings name native n kept).toList.filter
      (fun c => c.name == layerKey n) = (measure? settings name native n kept).toList :=
    filter_eq_self_of_name fun l hl => name_of_mem_measure? (Option.mem_toList.mp hl)
  rw [findChildren, root, block]
  simp only [List.filter_append, hname, hfed, hacc, List.nil_append]

theorem findChildren_reduced (hm : scanned.map Prod.snd = layers n) :
    (withLayers n (scanned.map fun s => if s.1.trains then some s.2 else none)).findChildren
      (layerKey n) = (staying scanned).map Prod.snd := by
  rw [findChildren, withLayers, filter_replaceLayers]
  · rw [staying, List.filterMap_map, ← List.filterMap_eq_map, List.filterMap_filter]
    rfl
  · exact fun o ho l hl => name_of_successor hm ho hl
  · rw [List.length_map, ← List.length_map (f := Prod.snd), hm]
    rfl

theorem layers_forTraining (h : forTraining settings name native n = .ok r) :
    ∃ scanned : List (Traits × Node), scanned.map Prod.snd = layers n ∧
      (∀ s ∈ scanned, traits s.2 = .ok s.1) ∧
      isUnwritten settings ((staying scanned).map Prod.fst)
        (measure? settings name native n (staying scanned)) = false ∧
      r.findChildren (layerKey n) = fed settings name native n (staying scanned) ++
        (measure? settings name native n (staying scanned)).toList := by
  obtain ⟨scanned, hm, ht, hwritten, hr⟩ := forTraining_eq_ok h
  refine ⟨scanned, hm, ht, hwritten, ?_⟩
  rcases hr with rfl | ⟨rfl, hf, ha, -⟩
  · exact findChildren_rebuilt fun s hs => name_of_scanned hm (List.mem_filter.mp hs).1
  · rw [findChildren_reduced hm, hf, ha, Option.toList_none, List.append_nil]

theorem children_forTraining (h : forTraining settings name native n = .ok r) {c : Node}
    (hc : c ∈ r.children) : c.name = "name" ∨ c.name = layerKey n ∨
      (c ∈ n.children ∧ n.findChild "input_dim" = none) := by
  obtain ⟨scanned, hm, -, -, hr⟩ := forTraining_eq_ok h
  rcases hr with rfl | ⟨rfl, -, -, hdim⟩
  · rcases List.mem_append.mp hc with hc | hc
    · rcases List.mem_append.mp hc with hc | hc
      · have hn := List.find?_some (Option.mem_toList.mp hc)
        exact .inl (by simpa using hn)
      · exact .inr (.inl (name_of_mem_fed
          (fun s hs => name_of_scanned hm (List.mem_filter.mp hs).1) hc))
    · exact .inr (.inl (name_of_mem_measure? (Option.mem_toList.mp hc)))
  · refine .inr ?_
    by_cases hk : c.name = layerKey n
    · exact .inl hk
    · have hf : c ∈ (replaceLayers (layerKey n) n.children
          (scanned.map fun s => if s.1.trains then some s.2 else none)).filter
            fun c => c.name != layerKey n :=
        List.mem_filter.mpr ⟨hc, by simpa using hk⟩
      rw [filter_not_replaceLayers fun o ho l hl => name_of_successor hm ho hl] at hf
      exact .inr ⟨(List.mem_filter.mp hf).1, hdim⟩

theorem findChild_layer_forTraining (h : forTraining settings name native n = .ok r)
    (hl : layerKey n = "layers") : r.findChild "layer" = none := by
  have hn : n.findChild "layer" = none := by
    rcases layerKey_eq n with hk | ⟨-, hk⟩
    · exact absurd (hl.symm.trans hk) (by decide)
    · exact hk
  rw [findChild_eq_none_iff] at hn ⊢
  intro c hc hname
  rcases children_forTraining h hc with hk | hk | ⟨hc, -⟩
  · exact absurd (hname.symm.trans hk) (by decide)
  · exact absurd (hname.symm.trans (hk.trans hl)) (by decide)
  · exact hn c hc hname

theorem samples_mem (ht : ∀ s ∈ kept, traits s.2 = .ok s.1) {p : Phase}
    (hp : p = .train ∨ p = .test) : ∃ l ∈ fed settings name native n kept, Feeds p l := by
  by_cases hf : (kept.map Prod.fst).any (Traits.feeds p) = true
  · obtain ⟨t, hk, hf⟩ := List.any_eq_true.mp hf
    obtain ⟨s, hs, rfl⟩ := List.mem_map.mp hk
    exact ⟨s.2, mem_withData.mpr (.inl (mem_withLoss_of_not_softmax hs (isSoftmax_of_feeds hf))),
      feeds_of_traits (ht s hs) hf⟩
  · rw [Bool.not_eq_true] at hf
    refine ⟨dataLayer (layerKey n) name p native "" settings, mem_withData.mpr ?_, ⟨.data, [p], []⟩,
      traits_dataLayer _ _ _ _ _ _ hp, .inl rfl, List.mem_singleton.mpr rfl⟩
    rcases hp with rfl | rfl
    · exact .inr (.inr ⟨hf, rfl⟩)
    · exact .inr (.inl ⟨hf, rfl⟩)

theorem trains_of_mem_fed (ht : ∀ s ∈ kept, traits s.2 = .ok s.1)
    (hk : ∀ s ∈ kept, s.1.trains = true) {l : Node} (hl : l ∈ fed settings name native n kept) :
    Trains l := by
  rcases mem_withData.mp hl with hl | ⟨-, rfl⟩ | ⟨-, rfl⟩
  · obtain ⟨s, hs, rfl | ⟨-, rfl⟩⟩ := mem_withLoss hl
    · exact trains_of_traits (ht s hs) (hk s hs)
    · obtain ⟨u, hu, -, hut⟩ := traits_toLoss settings (ht s hs) (hk s hs)
      exact trains_of_traits hu hut
  · exact trains_of_traits (traits_dataLayer _ _ _ _ _ _ (.inr rfl)) (by decide)
  · exact trains_of_traits (traits_dataLayer _ _ _ _ _ _ (.inl rfl)) (by decide)

theorem accuracy_or_no_bottom (ht : ∀ s ∈ kept, traits s.2 = .ok s.1) :
    (∃ l ∈ fed settings name native n kept ++ (measure? settings name native n kept).toList,
        LayerKind.ofNode l = .ok .accuracy) ∨
      (measure? settings name native n kept = none ∧
        ∀ l, (fed settings name native n kept).getLast? = some l → l.findValues "bottom" = []) := by
  cases hm : measure? settings name native n kept with
  | some a =>
    obtain ⟨b, rfl⟩ := accuracyFor?_eq_some hm
    exact .inl ⟨_, List.mem_append_right _ (by simp), ofNode_accuracyLayer (layerKey n) b settings⟩
  | none =>
    by_cases ha : (kept.map Prod.fst).any (fun t => t.kind = .accuracy) = true
    · obtain ⟨t, hk, hkind⟩ := List.any_eq_true.mp ha
      obtain ⟨s, hs, rfl⟩ := List.mem_map.mp hk
      have hkind := of_decide_eq_true hkind
      refine .inl ⟨s.2, ?_, hkind ▸ ofNode_of_traits (ht s hs)⟩
      have hw : s.2 ∈ withLoss settings kept :=
        mem_withLoss_of_not_softmax hs (by simp [isSoftmax, hkind])
      exact List.mem_append_left _ (mem_withData.mpr (.inl hw))
    · refine .inr ⟨rfl, fun l hl => ?_⟩
      rw [measure?, accuracyFor?, if_neg ha, hl] at hm
      simpa using hm

variable (settings name native n) in
theorem fed_split {pre post : List (Traits × Node)} {q : Traits × Node} (hq : isSoftmax q = true)
    (hp : ∀ u ∈ post, isSoftmax u = false) :
    ∃ before after, fed settings name native n (pre ++ q :: post) =
        before ++ toLoss settings q.2 :: after ∧
      (pre.map Prod.snd).Sublist before ∧ (post.map Prod.snd).Sublist after := by
  have hsub : (withLoss settings (pre ++ q :: post)).Sublist
      (fed settings name native n (pre ++ q :: post)) := sublist_withData
  -- Samples are put between the layers that stay, so that these are found again in their order.
  rw [withLoss_append hq hp] at hsub
  obtain ⟨front, rest, he, hf, hrest⟩ := List.append_sublist_iff.mp hsub
  obtain ⟨middle, after, rfl, hm, ha⟩ := List.cons_sublist_iff.mp hrest
  obtain ⟨left, right, rfl⟩ := List.append_of_mem hm
  refine ⟨front ++ left, right ++ after, ?_, hf.trans (List.sublist_append_left front left),
    ha.trans (List.sublist_append_right right after)⟩
  rw [he]
  simp

theorem staying_append {pre post : List (Traits × Node)} {q : Traits × Node}
    (hq : q.1.trains = true) :
    staying (pre ++ q :: post) = staying pre ++ q :: staying post := by
  simp [staying, hq]

theorem mem_staying {s : Traits × Node} (hs : s ∈ scanned) (ht : traits s.2 = .ok s.1)
    (htrains : Trains s.2) : s ∈ staying scanned :=
  List.mem_filter.mpr ⟨hs, (trains_iff_of_traits ht).mp htrains⟩

variable (settings name native) in
theorem toLoss_in_place {pre post : List Node} {s : Node} (ht : ∀ u ∈ scanned, traits u.2 = .ok u.1)
    (hm : scanned.map Prod.snd = pre ++ s :: post) (htrains : Trains s)
    (hsoft : LayerKind.ofNode s = .ok .softmax)
    (hpost : ∀ l ∈ post, Trains l → LayerKind.ofNode l ≠ .ok .softmax) :
    ∃ before after, fed settings name native n (staying scanned) =
        before ++ toLoss settings s :: after ∧
      (∀ l ∈ pre, Trains l → l ∈ before) ∧ (∀ l ∈ post, Trains l → l ∈ after) ∧
      (toLoss settings s).findValue "type" = some LayerKind.softmaxWithLoss.name := by
  obtain ⟨spre, srest, rfl, rfl, hrest⟩ := List.map_eq_append_iff.mp hm
  obtain ⟨q, spost, rfl, rfl, rfl⟩ := List.map_eq_cons_iff.mp hrest
  have hq : isSoftmax q = true := (isSoftmax_iff (ht q (by simp))).mpr hsoft
  have hnot : ∀ u ∈ staying spost, isSoftmax u = false := by
    intro u hu
    obtain ⟨hu, hut⟩ := List.mem_filter.mp hu
    have hmem : u ∈ spre ++ q :: spost := by simp [hu]
    exact (isSoftmax_eq_false_iff (ht u hmem)).mpr
      (hpost u.2 (List.mem_map_of_mem hu) ((trains_iff_of_traits (ht u hmem)).mpr hut))
  obtain ⟨before, after, hf, hb, ha⟩ := fed_split settings name native n hq hnot
  have hqt : q.1.trains = true := (trains_iff_of_traits (ht q (by simp))).mp htrains
  rw [← staying_append hqt] at hf
  refine ⟨before, after, hf, ?_, ?_, findValue_toLoss settings q.2⟩
  · intro l hl htl
    obtain ⟨u, hu, rfl⟩ := List.mem_map.mp hl
    exact hb.subset (List.mem_map_of_mem (mem_staying hu (ht u (by simp [hu])) htl))
  · intro l hl htl
    obtain ⟨u, hu, rfl⟩ := List.mem_map.mp hl
    exact ha.subset (List.mem_map_of_mem (mem_staying hu (ht u (by simp [hu])) htl))

theorem layerKey_forTraining (h : forTraining settings name native n = .ok r) {l : Node}
    (hl : l ∈ r.findChildren (layerKey n)) : layerKey r = layerKey n := by
  refine layerKey_of_findChildren (List.ne_nil_of_mem hl) ?_
  rcases layerKey_eq n with hk | ⟨hk, -⟩
  · exact .inl hk
  · exact .inr ⟨hk, findChild_layer_forTraining h hk⟩

theorem layers_completed (h : forTraining settings name native n = .ok r) :
    ∃ scanned : List (Traits × Node), scanned.map Prod.snd = layers n ∧
      (∀ s ∈ scanned, traits s.2 = .ok s.1) ∧ layerKey r = layerKey n ∧
      layers r = fed settings name native n (staying scanned) ++
        (measure? settings name native n (staying scanned)).toList := by
  obtain ⟨scanned, hm, ht, -, hr⟩ := layers_forTraining h
  have hkt := traits_of_mem_staying ht
  -- There is always a layer with samples, which settles the key.
  obtain ⟨sample, hsample, -⟩ : ∃ l ∈ fed settings name native n (staying scanned), Feeds .train l :=
    samples_mem hkt (.inl rfl)
  have hkey : layerKey r = layerKey n :=
    layerKey_forTraining h (hr ▸ List.mem_append_left _ hsample)
  exact ⟨scanned, hm, ht, hkey, by rw [layers, hkey, hr]⟩

theorem feeds_forTraining (h : forTraining settings name native n = .ok r) {p : Phase}
    (hp : p = .train ∨ p = .test) : ∃ l ∈ layers r, Feeds p l := by
  obtain ⟨scanned, -, ht, -, hr⟩ := layers_completed h
  obtain ⟨l, hl, hf⟩ : ∃ l ∈ fed settings name native n (staying scanned), Feeds p l :=
    samples_mem (traits_of_mem_staying ht) hp
  exact ⟨l, hr ▸ List.mem_append_left _ hl, hf⟩

theorem trains_forTraining (h : forTraining settings name native n = .ok r) :
    ∀ l ∈ layers r, Trains l := by
  obtain ⟨scanned, -, ht, -, hr⟩ := layers_completed h
  intro l hl
  rw [hr] at hl
  rcases List.mem_append.mp hl with hl | hl
  · exact trains_of_mem_fed (traits_of_mem_staying ht) trains_of_mem_staying hl
  · obtain ⟨b, rfl⟩ := accuracyFor?_eq_some (Option.mem_toList.mp hl)
    exact trains_of_traits (traits_accuracyLayer ..) (by decide)

theorem measured_forTraining (h : forTraining settings name native n = .ok r) :
    (∃ l ∈ layers r, LayerKind.ofNode l = .ok .accuracy) ∨
      ∀ l, (layers r).getLast? = some l → l.findValues "bottom" = [] := by
  obtain ⟨scanned, -, ht, -, hr⟩ := layers_completed h
  have hkt := traits_of_mem_staying ht
  rw [hr]
  refine (accuracy_or_no_bottom hkt).imp_right fun ⟨hm, hl⟩ => ?_
  rwa [hm, Option.toList_none, List.append_nil]

/-- A completed network has samples for training and for tests, only layers that take part in them,
and a measure of accuracy unless its last layer has no input; and the last softmax among the layers
that stay is a loss in the place where it stood. -/
theorem forTraining_complete (h : forTraining settings name native n = .ok r) :
    layerKey r = layerKey n ∧
      (∃ l ∈ layers r, Feeds .train l) ∧ (∃ l ∈ layers r, Feeds .test l) ∧
      (∀ l ∈ layers r, Trains l) ∧
      ((∃ l ∈ layers r, LayerKind.ofNode l = .ok .accuracy) ∨
        ∀ l, (layers r).getLast? = some l → l.findValues "bottom" = []) ∧
      ∀ pre s post, layers n = pre ++ s :: post → Trains s → LayerKind.ofNode s = .ok .softmax →
        (∀ l ∈ post, Trains l → LayerKind.ofNode l ≠ .ok .softmax) →
        ∃ before after, layers r = before ++ toLoss settings s :: after ∧
          (∀ l ∈ pre, Trains l → l ∈ before) ∧ (∀ l ∈ post, Trains l → l ∈ after) ∧
          (toLoss settings s).findValue "type" = some "SoftmaxWithLoss" := by
  obtain ⟨scanned, hm, ht, hkey, hr⟩ := layers_completed h
  refine ⟨hkey, feeds_forTraining h (.inl rfl), feeds_forTraining h (.inr rfl),
    trains_forTraining h, measured_forTraining h, ?_⟩
  intro pre s post hsplit htrains hsoft hpost
  obtain ⟨before, after, hf, hb, ha, ht⟩ :=
    toLoss_in_place settings name native ht (hm.trans hsplit) htrains hsoft hpost
  refine ⟨before, after ++ (measure? settings name native n (staying scanned)).toList, ?_, hb,
    fun l hl htl => List.mem_append_left _ (ha l hl htl), ht⟩
  rw [hr, hf, List.append_assoc, List.cons_append]

end Whole

theorem forTraining_complete_classifier :
    ∃ r, forTraining .standard "net" false (root [block "layer" [leaf "type" "InnerProduct" .string],
        block "layer" [leaf "type" "softmax" .string, leaf "bottom" "ip" .string]]) = .ok r ∧
      (∃ l ∈ layers r, Feeds .train l) ∧ (∃ l ∈ layers r, Feeds .test l) ∧
      (∀ l ∈ layers r, Trains l) := by
  have hok : (forTraining .standard "net" false (root [block "layer" [leaf "type" "InnerProduct" .string],
      block "layer" [leaf "type" "softmax" .string, leaf "bottom" "ip" .string]])).toOption.isSome =
      true := by
    decide +kernel
  cases h : forTraining .standard "net" false (root [block "layer" [leaf "type" "InnerProduct" .string],
      block "layer" [leaf "type" "softmax" .string, leaf "bottom" "ip" .string]]) with
  | error e =>
    rw [h] at hok
    cases hok
  | ok r =>
    obtain ⟨-, htrain, htest, hall, -⟩ := forTraining_complete h
    exact ⟨r, rfl, htrain, htest, hall⟩

end NetDesc.Network
