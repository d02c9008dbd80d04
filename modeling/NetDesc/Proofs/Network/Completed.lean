import NetDesc.Proofs.Network.Training

namespace NetDesc.Network

open Node

def stayingLayers (n : Node) : List Node :=
  (layers n).filter fun l => Trains l

structure IsLossOf (settings : Settings) (s l : Node) : Prop where
  name : l.name = s.name
  value : l.value = s.value
  valueType : l.valueType = s.valueType
  children : ∃ before type after, s.children = before ++ type :: after ∧ type.name = "type" ∧
    (∀ c ∈ before, c.name ≠ "type") ∧
    l.children = before ++ type.withValue "SoftmaxWithLoss" .string :: after ++
      [leaf "bottom" "label" .string, leaf "loss_weight" "1" .numeric,
        block "include" [leaf "phase" "TRAIN" .unknown],
        block "loss_param" [leaf "normalization" settings.lossNormalization.text .unknown]]

structure Converts (settings : Settings) (staying converted : List Node) : Prop where
  same : (∀ l ∈ staying, LayerKind.ofNode l ≠ .ok .softmax) → converted = staying
  last : ∀ pre s post, staying = pre ++ s :: post → LayerKind.ofNode s = .ok .softmax →
    (∀ l ∈ post, LayerKind.ofNode l ≠ .ok .softmax) →
    ∃ l, IsLossOf settings s l ∧ converted = pre ++ l :: post

/-- The layers with samples for both phases: those for tests stand right after the first layer with
samples for training, and these stand first. -/
structure Supplies (make : Phase → Node) (staying converted supplied : List Node) : Prop where
  made : ∀ p, p = .train ∨ p = .test → Feeds p (make p)
  both : (∃ l ∈ staying, Feeds .train l) → (∃ l ∈ staying, Feeds .test l) → supplied = converted
  training : ∀ pre d post, staying = pre ++ d :: post → Feeds .train d →
    (∀ l ∈ pre, ¬ Feeds .train l) → (∀ l ∈ staying, ¬ Feeds .test l) →
    ∃ pre' post', converted = pre' ++ d :: post' ∧ pre'.length = pre.length ∧
      supplied = pre' ++ d :: make .test :: post'
  tests : (∀ l ∈ staying, ¬ Feeds .train l) → (∃ l ∈ staying, Feeds .test l) →
    supplied = make .train :: converted
  neither : (∀ l ∈ staying, ¬ Feeds .train l) → (∀ l ∈ staying, ¬ Feeds .test l) →
    supplied = make .train :: make .test :: converted

structure Measures (key : String) (settings : Settings) (staying supplied : List Node)
    (accuracy : Option Node) : Prop where
  absent_iff : accuracy = none ↔ (∃ l ∈ staying, LayerKind.ofNode l = .ok .accuracy) ∨
    ∀ l, supplied.getLast? = some l → l.findValues "bottom" = []
  made : ∀ a ∈ accuracy, ∃ l bottom rest, supplied.getLast? = some l ∧
    l.findValues "bottom" = bottom :: rest ∧ a = accuracyLayer key bottom settings ∧
    a.findValues "bottom" = [bottom, "label"]

structure IsTrainable (n : Node) (accuracy : Option Node) : Prop where
  training : ∃ l ∈ stayingLayers n, Feeds .train l
  tests : ∃ l ∈ stayingLayers n, Feeds .test l
  classifier : ∀ l ∈ stayingLayers n, LayerKind.ofNode l ≠ .ok .softmax
  accuracy : accuracy = none
  dims : n.findChild "input_dim" = none

theorem exists_type_of_softmax {s : Node} (h : LayerKind.ofNode s = .ok .softmax) :
    ∃ type before after, s.children = before ++ type :: after ∧ type.name = "type" ∧
      ∀ c ∈ before, c.name ≠ "type" := by
  cases hv : s.findChild "type" with
  | none =>
    rw [LayerKind.ofNode, findValue, hv] at h
    cases h
  | some type =>
    obtain ⟨-, before, after, hs, hb⟩ := List.find?_eq_some_iff_append.mp hv
    exact ⟨type, before, after, hs, name_of_findChild hv, fun c hc => by simpa using hb c hc⟩

theorem isLossOf_toLoss {settings : Settings} {s : Node} (h : LayerKind.ofNode s = .ok .softmax) :
    IsLossOf settings s (toLoss settings s) := by
  obtain ⟨type, before, after, hs, ht, hb⟩ := exists_type_of_softmax h
  have hset := setValue_of_split hs ht hb LayerKind.softmaxWithLoss.name .string
  rw [toLoss, hset]
  refine ⟨rfl, rfl, rfl, before, type, after, hs, ht, hb, ?_⟩
  simp [LayerKind.name]

section Kept

variable {settings : Settings} {kept : List (Traits × Node)} {make : Phase → Node}

theorem any_feeds_iff (ht : ∀ s ∈ kept, traits s.2 = .ok s.1) (p : Phase) :
    (kept.map Prod.fst).any (Traits.feeds p) = true ↔ ∃ l ∈ kept.map Prod.snd, Feeds p l := by
  rw [List.any_map, List.any_eq_true]
  constructor
  · rintro ⟨s, hs, hf⟩
    exact ⟨s.2, List.mem_map_of_mem hs, feeds_of_traits (ht s hs) hf⟩
  · rintro ⟨l, hl, hf⟩
    obtain ⟨s, hs, rfl⟩ := List.mem_map.mp hl
    exact ⟨s, hs, (feeds_iff_of_traits (ht s hs)).mp hf⟩

theorem any_feeds_eq_false_iff (ht : ∀ s ∈ kept, traits s.2 = .ok s.1) (p : Phase) :
    (kept.map Prod.fst).any (Traits.feeds p) = false ↔ ∀ l ∈ kept.map Prod.snd, ¬ Feeds p l := by
  rw [← Bool.not_eq_true, any_feeds_iff ht p]
  simp only [not_exists, not_and]

theorem any_kind_iff (ht : ∀ s ∈ kept, traits s.2 = .ok s.1) (kind : LayerKind) :
    (kept.map Prod.fst).any (fun t => t.kind = kind) = true ↔
      ∃ l ∈ kept.map Prod.snd, LayerKind.ofNode l = .ok kind := by
  rw [List.any_map, List.any_eq_true]
  constructor
  · rintro ⟨s, hs, hk⟩
    refine ⟨s.2, List.mem_map_of_mem hs, ?_⟩
    rw [ofNode_of_traits (ht s hs), of_decide_eq_true hk]
  · rintro ⟨l, hl, hk⟩
    obtain ⟨s, hs, rfl⟩ := List.mem_map.mp hl
    rw [ofNode_of_traits (ht s hs)] at hk
    exact ⟨s, hs, decide_eq_true (Except.ok.inj hk)⟩

variable (settings) in
theorem converts_withLoss (ht : ∀ s ∈ kept, traits s.2 = .ok s.1) :
    Converts settings (kept.map Prod.snd) (withLoss settings kept) where
  same hnone := withLoss_eq_self fun s hs =>
    (isSoftmax_eq_false_iff (ht s hs)).mpr (hnone s.2 (List.mem_map_of_mem hs))
  last := by
    intro pre s post hsplit hsoft hpost
    obtain ⟨kpre, krest, rfl, rfl, hrest⟩ := List.map_eq_append_iff.mp hsplit
    obtain ⟨q, kpost, rfl, rfl, rfl⟩ := List.map_eq_cons_iff.mp hrest
    refine ⟨toLoss settings q.2, isLossOf_toLoss hsoft, ?_⟩
    have hq : isSoftmax q = true := (isSoftmax_iff (ht q (by simp))).mpr hsoft
    refine withLoss_append hq fun u hu => ?_
    exact (isSoftmax_eq_false_iff (ht u (by simp [hu]))).mpr (hpost u.2 (List.mem_map_of_mem hu))

variable (settings make) in
theorem withTests_after {kpre kpost : List (Traits × Node)} {q : Traits × Node}
    (hq : q.1.feeds .train = true) (hpre : ∀ u ∈ kpre, u.1.feeds .train = false)
    (htest : ((kpre ++ q :: kpost).map Prod.fst).any (Traits.feeds .test) = false) :
    ∃ pre' post', withLoss settings (kpre ++ q :: kpost) = pre' ++ q.2 :: post' ∧
      pre'.length = kpre.length ∧
      withTests make ((kpre ++ q :: kpost).map Prod.fst) (withLoss settings (kpre ++ q :: kpost)) =
        pre' ++ q.2 :: make .test :: post' := by
  obtain ⟨kpre', kpost', he, hl⟩ := modifyLast_around
    (f := fun l => (l.1, toLoss settings l.2)) (isSoftmax_of_feeds hq) kpre kpost
  have hloss : withLoss settings (kpre ++ q :: kpost) =
      kpre'.map Prod.snd ++ q.2 :: kpost'.map Prod.snd := by
    rw [withLoss, he, List.map_append, List.map_cons]
  have hi : ((kpre ++ q :: kpost).map Prod.fst).findIdx? (Traits.feeds .train) =
      some (kpre'.map Prod.snd).length := by
    have hnone : (kpre.map Prod.fst).findIdx? (Traits.feeds .train) = none := by
      rw [List.findIdx?_eq_none_iff]
      intro t ht
      obtain ⟨u, hu, rfl⟩ := List.mem_map.mp ht
      exact hpre u hu
    rw [List.map_append, List.map_cons, List.findIdx?_append, hnone, List.findIdx?_cons, hq]
    simp [hl]
  refine ⟨_, _, hloss, by rw [List.length_map, hl], ?_⟩
  -- A place among the layers before the loss is made is the same place after, as all stay in order.
  rw [withTests, htest, if_neg (by decide), hi, hloss]
  exact insertAt_after ..

variable (settings) in
theorem supplies_withData (ht : ∀ s ∈ kept, traits s.2 = .ok s.1)
    (hmade : ∀ p, p = .train ∨ p = .test → Feeds p (make p)) :
    Supplies make (kept.map Prod.snd) (withLoss settings kept)
      (withData make (kept.map Prod.fst) (withLoss settings kept)) where
  made := hmade
  both htrain htest := by
    rw [withData_eq, if_pos ((any_feeds_iff ht .train).mpr htrain), withTests,
      if_pos ((any_feeds_iff ht .test).mpr htest)]
  training := by
    intro pre d post hsplit hd hpre htest
    obtain ⟨kpre, krest, rfl, rfl, hrest⟩ := List.map_eq_append_iff.mp hsplit
    obtain ⟨q, kpost, rfl, rfl, rfl⟩ := List.map_eq_cons_iff.mp hrest
    have hq : q.1.feeds .train = true := (feeds_iff_of_traits (ht q (by simp))).mp hd
    have hkpre : ∀ u ∈ kpre, u.1.feeds .train = false := by
      intro u hu
      have hn := hpre u.2 (List.mem_map_of_mem hu)
      rwa [feeds_iff_of_traits (ht u (by simp [hu])), Bool.not_eq_true] at hn
    obtain ⟨pre', post', hloss, hlen, htests⟩ := withTests_after settings make hq hkpre
      ((any_feeds_eq_false_iff ht .test).mpr htest)
    refine ⟨pre', post', hloss, by rw [hlen, List.length_map], ?_⟩
    rw [withData_eq, if_pos ((any_feeds_iff ht .train).mpr ⟨q.2, by simp, hd⟩), htests]
  tests htrain htest := by
    rw [withData_eq, (any_feeds_eq_false_iff ht .train).mpr htrain, if_neg (by decide), withTests,
      if_pos ((any_feeds_iff ht .test).mpr htest)]
  neither htrain htest := by
    have hi : (kept.map Prod.fst).findIdx? (Traits.feeds .train) = none := by
      rw [List.findIdx?_eq_none_iff]
      exact fun t h => by
        simpa using List.any_eq_false.mp ((any_feeds_eq_false_iff ht .train).mpr htrain) t h
    rw [withData_eq, (any_feeds_eq_false_iff ht .train).mpr htrain, if_neg (by decide), withTests,
      (any_feeds_eq_false_iff ht .test).mpr htest, if_neg (by decide), hi]

theorem findValues_accuracyLayer (key bottom : String) (settings : Settings) :
    (accuracyLayer key bottom settings).findValues "bottom" = [bottom, "label"] := by
  simp [accuracyLayer, measure, accuracyFields, findValues, findChildren, Node.insert, insertAt, block,
    leaf]

variable (settings) in
theorem measures_accuracyFor? (ht : ∀ s ∈ kept, traits s.2 = .ok s.1) (key : String)
    (supplied : List Node) :
    Measures key settings (kept.map Prod.snd) supplied
      (accuracyFor? key settings (kept.map Prod.fst) supplied) := by
  have hkind := any_kind_iff ht .accuracy
  rw [accuracyFor?]
  by_cases ha : (kept.map Prod.fst).any (fun t => t.kind = .accuracy) = true
  · rw [if_pos ha]
    exact ⟨⟨fun _ => .inl (hkind.mp ha), fun _ => rfl⟩, by simp⟩
  rw [if_neg ha]
  cases hl : supplied.getLast? with
  | none => exact ⟨⟨fun _ => .inr (by simp [hl]), fun _ => rfl⟩, by simp⟩
  | some l =>
    cases hb : l.findValues "bottom" with
    | nil => exact ⟨⟨fun _ => .inr (by simp [hl, hb]), fun _ => by simp [hb]⟩, by simp [hb]⟩
    | cons bottom rest =>
      have hmade : ((some l).bind fun l => (l.findValues "bottom").head?).map
          (fun b => accuracyLayer key b settings) = some (accuracyLayer key bottom settings) := by
        simp [hb]
      rw [hmade]
      refine ⟨⟨by simp, ?_⟩, ?_⟩
      · rintro (hacc | hnone)
        · exact absurd (hkind.mpr hacc) ha
        · rw [hnone l hl] at hb
          cases hb
      · rintro a ⟨⟩
        exact ⟨l, bottom, rest, hl, hb, rfl, findValues_accuracyLayer key bottom settings⟩

end Kept

section Whole

variable {settings : Settings} {name : String} {native : Bool} {n r : Node}
  {scanned : List (Traits × Node)}

theorem map_staying (hm : scanned.map Prod.snd = layers n)
    (ht : ∀ s ∈ scanned, traits s.2 = .ok s.1) :
    (staying scanned).map Prod.snd = stayingLayers n := by
  rw [stayingLayers, ← hm, List.filter_map, staying]
  congr 1
  refine List.filter_congr fun s hs => ?_
  rw [Function.comp_apply, Bool.eq_iff_iff, decide_eq_true_eq, trains_iff_of_traits (ht s hs)]

theorem withLayers_staying (hm : scanned.map Prod.snd = layers n)
    (ht : ∀ s ∈ scanned, traits s.2 = .ok s.1) :
    withLayers n (scanned.map fun s => if s.1.trains then some s.2 else none) =
      { n with children := n.children.filter fun c => c.name != layerKey n || decide (Trains c) } := by
  have hnew : (scanned.map fun s => if s.1.trains then some s.2 else none) =
      (layers n).map fun l => if decide (Trains l) then some l else none := by
    rw [← hm, List.map_map]
    refine List.map_congr_left fun s hs => ?_
    simp only [Function.comp_apply, decide_eq_true_eq, trains_iff_of_traits (ht s hs)]
  rw [withLayers, hnew, layers, findChildren, replaceLayers_filter]

theorem isTrainable_iff (hm : scanned.map Prod.snd = layers n)
    (ht : ∀ s ∈ scanned, traits s.2 = .ok s.1) (accuracy : Option Node) :
    (((staying scanned).map Prod.fst).any (Traits.feeds .train) &&
      ((staying scanned).map Prod.fst).any (Traits.feeds .test) &&
      !(staying scanned).any isSoftmax && accuracy.isNone && (n.findChild "input_dim").isNone) =
        true ↔ IsTrainable n accuracy := by
  have hk := traits_of_mem_staying ht
  have hsoft : (staying scanned).any isSoftmax = false ↔
      ∀ l ∈ stayingLayers n, LayerKind.ofNode l ≠ .ok .softmax := by
    rw [← map_staying hm ht, List.any_eq_false, List.forall_mem_map]
    refine forall₂_congr fun s hs => ?_
    rw [isSoftmax_iff (hk s hs)]
  simp only [Bool.and_eq_true, Bool.not_eq_true', Option.isNone_iff_eq_none, any_feeds_iff hk,
    map_staying hm ht, hsoft]
  constructor
  · rintro ⟨⟨⟨⟨htrain, htest⟩, hnone⟩, hacc⟩, hdim⟩
    exact ⟨htrain, htest, hnone, hacc, hdim⟩
  · rintro ⟨htrain, htest, hnone, hacc, hdim⟩
    exact ⟨⟨⟨⟨htrain, htest⟩, hnone⟩, hacc⟩, hdim⟩

/-- A network that is completed for training keeps the layers that take part, in their order and as they
were but for the last softmax, which becomes a loss; to these are added samples of a phase that has none
and a measure of accuracy, each in its place. If nothing is added then all other children stay where
they were, and else the first name alone. -/
theorem forTraining_frame (h : forTraining settings name native n = .ok r) :
    ∃ converted supplied accuracy, Converts settings (stayingLayers n) converted ∧
      Supplies (fun p => dataLayer (layerKey n) name p native "" settings) (stayingLayers n) converted
        supplied ∧
      Measures (layerKey n) settings (stayingLayers n) supplied accuracy ∧
      r.findChildren (layerKey n) = supplied ++ accuracy.toList ∧
      (IsTrainable n accuracy → r = { n with
        children := n.children.filter fun c => c.name != layerKey n || decide (Trains c) }) ∧
      (¬ IsTrainable n accuracy →
        r = root ((n.findChild "name").toList ++ supplied ++ accuracy.toList)) := by
  obtain ⟨scanned, hm, ht, -, hr⟩ := forTraining_eq_ite h
  have hk := traits_of_mem_staying ht
  have hmade : ∀ p, p = .train ∨ p = .test →
      Feeds p (dataLayer (layerKey n) name p native "" settings) := fun p hp =>
    ⟨_, traits_dataLayer _ _ _ _ _ _ hp, .inl rfl, List.mem_singleton.mpr rfl⟩
  have hconverts := converts_withLoss settings hk
  have hsupplies := supplies_withData settings hk hmade
  have hmeasures := measures_accuracyFor? settings hk (layerKey n)
    (fed settings name native n (staying scanned))
  rw [map_staying hm ht] at hconverts hsupplies hmeasures
  have hiff := isTrainable_iff hm ht (measure? settings name native n (staying scanned))
  have hreduced := fun htrainable => hr.trans (if_pos (hiff.mpr htrainable))
  have hrebuilt := fun htrainable => hr.trans (if_neg (mt hiff.mp htrainable))
  refine ⟨_, fed settings name native n (staying scanned),
    measure? settings name native n (staying scanned), hconverts, hsupplies, hmeasures, ?_, ?_, hrebuilt⟩
  · by_cases htrainable : IsTrainable n (measure? settings name native n (staying scanned))
    · have hfed : fed settings name native n (staying scanned) = stayingLayers n :=
        (hsupplies.both htrainable.training htrainable.tests).trans
          (hconverts.same htrainable.classifier)
      rw [hreduced htrainable, findChildren_reduced hm, map_staying hm ht, hfed, htrainable.accuracy,
        Option.toList_none, List.append_nil]
    · rw [hrebuilt htrainable]
      exact findChildren_rebuilt fun s hs => name_of_scanned hm (List.mem_filter.mp hs).1
  · intro htrainable
    rw [hreduced htrainable, withLayers_staying hm ht]

end Whole

def trainingReader : Node :=
  block "layer" [leaf "type" "Data" .string, block "include" [leaf "phase" "TRAIN" .unknown]]

def classifier : Node :=
  block "layer" [leaf "name" "prob" .string, leaf "type" "Softmax" .string, leaf "bottom" "ip" .string]

def readerAndClassifier : Node :=
  root [leaf "name" "net" .string, trainingReader,
    block "layer" [leaf "type" "ReLU" .string, block "include" [leaf "phase" "RUN" .unknown]],
    classifier]

theorem forTraining_frame_classifier :
    ∃ r loss, ∃ accuracy : Option Node, forTraining .standard "net" false readerAndClassifier = .ok r ∧
      IsLossOf .standard classifier loss ∧
      r = root ([leaf "name" "net" .string, trainingReader,
        dataLayer "layer" "net" .test false "" .standard, loss] ++ accuracy.toList) := by
  obtain ⟨r, hr, -⟩ : ∃ r, forTraining .standard "net" false readerAndClassifier = .ok r ∧
      (r.children.length == 5) = true := exists_ok (by decide +kernel)
  have hsoft : LayerKind.ofNode classifier = .ok .softmax := LayerKind.ofNode_of_findValue rfl
  have hstay : stayingLayers readerAndClassifier = [trainingReader, classifier] := by decide +kernel
  obtain ⟨converted, supplied, accuracy, hconverts, hsupplies, -, -, -, hrebuilt⟩ := forTraining_frame hr
  rw [hstay] at hconverts hsupplies
  obtain ⟨loss, hloss, rfl⟩ := hconverts.last [trainingReader] classifier [] rfl hsoft (by simp)
  obtain ⟨pre, post, hsplit, hlen, rfl⟩ := hsupplies.training [] trainingReader [classifier] rfl
    (by decide +kernel) (by simp) (by decide +kernel)
  obtain rfl := List.length_eq_zero_iff.mp hlen
  obtain rfl : [loss] = post := (List.cons.inj hsplit).2
  refine ⟨r, loss, accuracy, hr, hloss, hrebuilt fun htrainable => ?_⟩
  exact htrainable.classifier classifier (by simp [hstay]) hsoft

end NetDesc.Network
