import NetDesc.Network.Running
import NetDesc.Proofs.Network.Layers
import NetDesc.Proofs.Tree.RoundTrip

namespace NetDesc.Network

open Node

def Runs (l : Node) : Prop :=
  ∃ t, traits l = .ok t ∧ .run ∉ t.excluded ∧
    (.run ∈ t.included ∨ (.train ∉ t.included ∧ .test ∉ t.included))

instance (l : Node) : Decidable (Runs l) :=
  inferInstanceAs (Decidable (∃ t, traits l = .ok t ∧ .run ∉ t.excluded ∧
    (.run ∈ t.included ∨ (.train ∉ t.included ∧ .test ∉ t.included))))

def IsOpenLoss (l : Node) : Prop :=
  ∃ t, traits l = .ok t ∧ t.kind = .softmaxWithLoss ∧ .run ∉ t.excluded

instance (l : Node) : Decidable (IsOpenLoss l) :=
  inferInstanceAs (Decidable (∃ t, traits l = .ok t ∧ t.kind = .softmaxWithLoss ∧ .run ∉ t.excluded))

theorem Traits.runs_iff {t : Traits} :
    t.runs = true ↔ (t.kind ≠ .labelMapping ∧ t.kind ≠ .debug ∧ .run ∉ t.excluded) ∧
      (t.kind = .softmaxWithLoss ∨ .run ∈ t.included ∨
        (.train ∉ t.included ∧ .test ∉ t.included)) := by
  have hany : (t.included.any fun p => p = .train || p = .test) = false ↔
      .train ∉ t.included ∧ .test ∉ t.included := by
    simp only [List.any_eq_false, Bool.or_eq_true, decide_eq_true_eq, not_or]
    constructor
    · intro h
      exact ⟨fun hp => (h _ hp).1 rfl, fun hp => (h _ hp).2 rfl⟩
    · rintro ⟨htrain, htest⟩ p hp
      constructor
      · rintro rfl
        exact htrain hp
      · rintro rfl
        exact htest hp
  rw [← hany]
  simp only [Traits.runs, Bool.and_eq_true, Bool.or_eq_true, decide_eq_true_eq, Bool.not_eq_true',
    List.contains_iff_mem, ← Bool.not_eq_true, and_assoc, or_assoc]

structure Trimmed (l l' : Node) : Prop where
  name : l'.name = l.name
  children : ∀ key, key ≠ "bottom" → l'.findChildren key = l.findChildren key

namespace Trimmed

theorem refl (l : Node) : Trimmed l l := ⟨rfl, fun _ _ => rfl⟩

theorem trans {a b c : Node} (h : Trimmed a b) (h' : Trimmed b c) : Trimmed a c where
  name := h'.name.trans h.name
  children key hk := (h'.children key hk).trans (h.children key hk)

theorem findValue {l l' : Node} (h : Trimmed l l') {key : String} (hk : key ≠ "bottom") :
    l'.findValue key = l.findValue key := by
  rw [Node.findValue, Node.findValue, findChild_eq_head?, findChild_eq_head?, h.children key hk]

theorem traits_eq {l l' : Node} (h : Trimmed l l') : traits l' = traits l := by
  have hk : LayerKind.ofNode l' = LayerKind.ofNode l := by
    rw [LayerKind.ofNode, LayerKind.ofNode, h.findValue (by decide : "type" ≠ "bottom"),
      h.findValue (by decide : "name" ≠ "bottom")]
  simp only [traits, hk, h.children "include" (by decide), h.children "exclude" (by decide)]

end Trimmed

theorem filter_keepFirst {α : Type} {p q : α → Bool} (h : ∀ x, p x = true → q x = false) (n : Nat)
    (xs : List α) : (keepFirst p n xs).filter q = xs.filter q := by
  induction xs generalizing n with
  | nil => cases n <;> rfl
  | cons x xs ih =>
    by_cases hp : p x = true
    · cases n with
      | zero => simp [keepFirst, hp, h x hp, ih]
      | succ n => simp [keepFirst, hp, h x hp, ih]
    · cases n with
      | zero => simp [keepFirst, hp, List.filter_cons, ih]
      | succ n => simp [keepFirst, hp, List.filter_cons, ih]

theorem trimmed_keepBottoms (n : Nat) (l : Node) : Trimmed l (keepBottoms n l) where
  name := rfl
  children key hk := by
    apply filter_keepFirst
    intro c hc
    have hb : c.name = "bottom" := LawfulBEq.eq_of_beq hc
    simp [hb, hk.symm]

theorem running_eq_ok {t : Traits} {l : Node} {o : Option Node} (h : running t l = .ok o) :
    (t.runs = false ∧ o = none) ∨ (t.runs = true ∧ ∃ l', o = some l' ∧ Trimmed l l') := by
  unfold running at h
  split at h
  · next hr =>
    refine .inr ⟨hr, ?_⟩
    have hb : Trimmed l (if t.kind = .binaryHash then dropLastBottom l else l) := by
      split
      · exact trimmed_keepBottoms _ l
      · exact .refl l
    obtain ⟨limit, -, h⟩ := bind_eq_ok.mp h
    cases limit with
    | none =>
      cases h
      exact ⟨_, rfl, hb⟩
    | some c =>
      cases h
      exact ⟨_, rfl, hb.trans (trimmed_keepBottoms _ _)⟩
  · next hr =>
    cases h
    exact .inl ⟨Bool.eq_false_iff.mpr hr, rfl⟩

theorem children_toSoftmax (l : Node) :
    (toSoftmax l).children =
      ((l.setValue "type" LayerKind.softmax.name (some .string)).removeValue
        "bottom" "label" true).children.filter
          fun c => c.name != "loss_weight" && c.name != "loss_param" := rfl

theorem findChildren_toSoftmax (l : Node) {key : String} (hb : key ≠ "bottom")
    (hw : key ≠ "loss_weight") (hp : key ≠ "loss_param") :
    (toSoftmax l).findChildren key =
      (l.setValue "type" LayerKind.softmax.name (some .string)).findChildren key := by
  -- What is dropped has other names than the key.
  have hk : ∀ c : Node, (c.name == key) = true →
      (c.name != "loss_weight" && c.name != "loss_param") = true := by
    intro c hc
    have hc : c.name = key := LawfulBEq.eq_of_beq hc
    simp [hc, hw, hp]
  rw [findChildren, children_toSoftmax, List.filter_filter,
    ← findChildren_removeValue hb.symm _ "label" true, findChildren]
  refine List.filter_congr fun c _ => ?_
  by_cases hc : (c.name == key) = true
  · rw [hc, hk c hc]
    rfl
  · rw [Bool.not_eq_true] at hc
    rw [hc]
    rfl

theorem name_toSoftmax (l : Node) : (toSoftmax l).name = l.name :=
  name_setValue

theorem traits_toSoftmax {l : Node} {t : Traits} (h : traits l = .ok t) :
    traits (toSoftmax l) = .ok { t with kind := .softmax } := by
  obtain ⟨kind, -, h⟩ := bind_eq_ok.mp h
  obtain ⟨included, hi, h⟩ := bind_eq_ok.mp h
  obtain ⟨excluded, he, h⟩ := bind_eq_ok.mp h
  cases h
  have hrules : ∀ key, key = "include" ∨ key = "exclude" →
      (toSoftmax l).findChildren key = l.findChildren key := by
    rintro key (rfl | rfl) <;>
    · rw [findChildren_toSoftmax l (by decide) (by decide) (by decide)]
      exact findChildren_setValue (by decide) ..
  have htype : (toSoftmax l).findValue "type" = some LayerKind.softmax.name := by
    rw [findValue, findChild_eq_head?,
      findChildren_toSoftmax l (by decide) (by decide) (by decide), ← findChild_eq_head?]
    exact findValue_setValue ..
  rw [traits, LayerKind.ofNode_of_findValue htype, hrules "include" (.inl rfl), hi,
    hrules "exclude" (.inr rfl), he]
  rfl

theorem settle_cases {hasSoftmax : Bool} {t : Traits} {l : Node} {o : Option Node}
    (h : running t l = .ok o) :
    (settle hasSoftmax t o = none ∧
        (t.runs = false ∨ (t.kind = .softmaxWithLoss ∧ hasSoftmax = true))) ∨
      (∃ l', settle hasSoftmax t o = some l' ∧ Trimmed l l' ∧ t.runs = true ∧
        t.kind ≠ .softmaxWithLoss) ∨
      ∃ l', settle hasSoftmax t o = some (toSoftmax l') ∧ Trimmed l l' ∧ t.runs = true ∧
        t.kind = .softmaxWithLoss ∧ hasSoftmax = false := by
  unfold settle
  rcases running_eq_ok h with ⟨hr, rfl⟩ | ⟨hr, l', rfl, hl⟩
  · refine .inl ⟨?_, .inl hr⟩
    split
    · split <;> rfl
    · rfl
  by_cases hk : t.kind = .softmaxWithLoss
  · rw [if_pos hk]
    cases hasSoftmax with
    | true => exact .inl ⟨rfl, .inr ⟨hk, rfl⟩⟩
    | false => exact .inr (.inr ⟨l', rfl, hl, hr, hk, rfl⟩)
  · rw [if_neg hk]
    exact .inr (.inl ⟨l', rfl, hl, hr, hk⟩)

section Declaration

variable {name key : String} {dims : List Int} {m : Node}

def declareName (place : Nat) (name : String) (m : Node) : Node :=
  if (m.findChild "input").isSome then m.modifyChild "input" fun c => c.withValue name .string
  else m.insert place (leaf "input" name .string)

def declareShape (place : Nat) (dims : List Int) (m : Node) : Node :=
  if (m.findChild "input_shape").isSome then
    m.modifyChild "input_shape" fun s => { s with children := setDims s.children dims }
  else m.insert place (block "input_shape" (setDims [] dims))

theorem findChildren_declareName (hk : key ≠ "input") (place : Nat) :
    (declareName place name m).findChildren key = m.findChildren key := by
  rw [declareName]
  split
  · exact findChildren_modifyChild (fun _ => rfl) hk.symm
  · exact findChildren_insert hk.symm _

theorem findChildren_declareShape (hk : key ≠ "input_shape") (place : Nat) :
    (declareShape place dims m).findChildren key = m.findChildren key := by
  rw [declareShape]
  split
  · exact findChildren_modifyChild (f := fun s => { s with children := setDims s.children dims })
      (fun _ => rfl) hk.symm
  · exact findChildren_insert hk.symm _

theorem findChild_declareName_of_ne (hk : key ≠ "input") (place : Nat) :
    (declareName place name m).findChild key = m.findChild key := by
  rw [findChild_eq_head?, findChild_eq_head?, findChildren_declareName hk]

theorem findChild_declareShape_of_ne (hk : key ≠ "input_shape") (place : Nat) :
    (declareShape place dims m).findChild key = m.findChild key := by
  rw [findChild_eq_head?, findChild_eq_head?, findChildren_declareShape hk]

theorem declareInput_eq (place : Nat) (name : String) (dims : List Int) (m : Node) :
    declareInput place name dims m =
      declareShape (if (m.findChild "input").isSome then place else place + 1) dims
        (declareName place name m) := by
  rw [declareShape, findChild_declareName_of_ne (by decide), declareName, declareInput]
  cases m.findChild "input" <;> rfl

theorem findChildren_declareInput {place : Nat} (hi : key ≠ "input") (hs : key ≠ "input_shape") :
    (declareInput place name dims m).findChildren key = m.findChildren key := by
  rw [declareInput_eq, findChildren_declareShape hs, findChildren_declareName hi]

end Declaration

theorem findChildren_addSuffix {suffix : String} {n : Node} {key : String} (hk : key ≠ "name") :
    (addSuffix suffix n).findChildren key = n.findChildren key :=
  findChildren_modifyChild (fun _ => rfl) hk.symm

section Whole

variable {settings : Settings} {input : String} {shape : InputShape} {n r : Node}
  {transform : Option Node} {scanned : List (Traits × Node × Option Node)}

theorem scanned_of_mapM {ls : List Node}
    (h : (ls.mapM fun l => do
      let t ← traits l
      return (t, l, ← running t l)) = .ok scanned) :
    scanned.map (fun s => s.2.1) = ls ∧
      ∀ s ∈ scanned, traits s.2.1 = .ok s.1 ∧ running s.1 s.2.1 = .ok s.2.2 := by
  refine map_eq_of_mapM ?_ h
  intro l s hs
  obtain ⟨t, ht, hs⟩ := bind_eq_ok.mp hs
  obtain ⟨o, ho, hs⟩ := bind_eq_ok.mp hs
  cases hs
  exact ⟨rfl, ht, ho⟩

theorem name_of_settled (hm : scanned.map (fun s => s.2.1) = layers n)
    (hr : ∀ s ∈ scanned, running s.1 s.2.1 = .ok s.2.2) (hasSoftmax : Bool) :
    ∀ o ∈ scanned.map (fun s => settle hasSoftmax s.1 s.2.2), ∀ l ∈ o, l.name = layerKey n := by
  intro o ho l hl
  obtain ⟨s, hs, rfl⟩ := List.mem_map.mp ho
  have hk : s.2.1.name = layerKey n := by
    apply name_of_mem_layers
    rw [← hm]
    exact List.mem_map_of_mem hs
  rw [Option.mem_def] at hl
  rcases settle_cases (hr s hs) with ⟨hn, -⟩ | ⟨l', he, ht, -⟩ | ⟨l', he, ht, -⟩
  · rw [hn] at hl
    cases hl
  · rw [he] at hl
    cases hl
    exact ht.name.trans hk
  · rw [he] at hl
    cases hl
    exact (name_toSoftmax l').trans (ht.name.trans hk)

theorem forRunning_eq_ok (h : forRunning settings input shape n = .ok (r, transform)) :
    ∃ scanned : List (Traits × Node × Option Node), scanned.map (fun s => s.2.1) = layers n ∧
      (∀ s ∈ scanned, traits s.2.1 = .ok s.1 ∧ running s.1 s.2.1 = .ok s.2.2) ∧
      r.findChildren (layerKey n) = scanned.filterMap (fun s =>
        settle (scanned.any fun l => l.1.kind = .softmax) s.1 s.2.2) ∧
      ∀ key, key ≠ "name" → key ≠ "input" → key ≠ "input_shape" → key ≠ layerKey n →
        r.findChildren key = n.findChildren key := by
  unfold forRunning at h
  split at h
  · cases h
  obtain ⟨scanned, hs, h⟩ := bind_eq_ok.mp h
  cases h
  obtain ⟨hm, hall⟩ := scanned_of_mapM hs
  have hname := name_of_settled hm (fun s hs => (hall s hs).2)
    (scanned.any fun l => l.1.kind = .softmax)
  refine ⟨scanned, hm, hall, ?_, ?_⟩
  · have hkey : layerKey n ≠ "name" ∧ layerKey n ≠ "input" ∧ layerKey n ≠ "input_shape" := by
      rcases layerKey_eq n with hk | ⟨hk, -⟩ <;> rw [hk] <;> decide
    rw [findChildren_addSuffix hkey.1, findChildren_declareInput hkey.2.1 hkey.2.2, withLayers,
      findChildren, filter_replaceLayers hname, List.filterMap_map]
    · rfl
    · have hlength : (layers n).length = scanned.length := by rw [← hm, List.length_map]
      rw [List.length_map]
      exact hlength
  · intro key hn hi hs hk
    rw [findChildren_addSuffix hn, findChildren_declareInput hi hs,
      findChildren_withLayers_of_ne hname hk]

theorem layers_forRunning (h : forRunning settings input shape n = .ok (r, transform)) :
    layers r = r.findChildren (layerKey n) ∨
      (layerKey n = "layer" ∧ r.findChild "layer" = none ∧ layers r = n.findChildren "layers") := by
  obtain ⟨scanned, -, -, -, hframe⟩ := forRunning_eq_ok h
  have hlayer (hk : layerKey n = "layers") : r.findChildren "layer" = n.findChildren "layer" := by
    apply hframe <;> simp [hk]
  -- Without a layer under the newer key the older one is looked up, which was never scanned.
  by_cases hr : r.findChildren (layerKey n) = []
  · rcases layerKey_eq n with hk | ⟨hk, hn⟩
    · rw [hk] at hr ⊢
      rcases layerKey_eq r with hkr | ⟨hkr, hnone⟩
      · rw [layers, hkr]
        exact .inl rfl
      · refine .inr ⟨rfl, hnone, ?_⟩
        rw [layers, hkr]
        apply hframe <;> simp [hk]
    · have hnone : r.findChildren "layer" = [] := by
        rw [hlayer hk, ← List.head?_eq_none_iff, ← findChild_eq_head?]
        exact hn
      rw [hk] at hr ⊢
      refine .inl ?_
      rcases layerKey_eq r with hkr | ⟨hkr, -⟩
      · rw [layers, hkr, hr, hnone]
      · rw [layers, hkr]
  · refine .inl ?_
    have hkey : layerKey r = layerKey n := by
      apply layerKey_of_findChildren hr
      rcases layerKey_eq n with hk | ⟨hk, hn⟩
      · exact .inl hk
      · refine .inr ⟨hk, ?_⟩
        rw [findChild_eq_head?, hlayer hk, ← findChild_eq_head?]
        exact hn
    rw [layers, hkey]

theorem layers_forRunning_of_mem (h : forRunning settings input shape n = .ok (r, transform))
    {l : Node} (hl : l ∈ r.findChildren (layerKey n)) : l ∈ layers r := by
  rcases layers_forRunning h with he | ⟨hk, hnone, -⟩
  · rwa [he]
  · rw [findChild_eq_none_iff] at hnone
    obtain ⟨hl, hname⟩ := List.mem_filter.mp hl
    rw [hk] at hname
    exact absurd (LawfulBEq.eq_of_beq hname) (hnone l hl)

theorem any_softmax_iff {scanned : List (Traits × Node × Option Node)}
    (hm : scanned.map (fun s => s.2.1) = layers n) (ht : ∀ s ∈ scanned, traits s.2.1 = .ok s.1) :
    (scanned.any fun l => l.1.kind = .softmax) = true ↔ HasSoftmax n := by
  rw [List.any_eq_true]
  constructor
  · rintro ⟨s, hs, hk⟩
    refine ⟨s.2.1, hm ▸ List.mem_map_of_mem hs, ?_⟩
    rw [ofNode_of_traits (ht s hs), of_decide_eq_true hk]
  · rintro ⟨l, hl, hk⟩
    rw [← hm] at hl
    obtain ⟨s, hs, rfl⟩ := List.mem_map.mp hl
    rw [ofNode_of_traits (ht s hs)] at hk
    exact ⟨s, hs, decide_eq_true (Except.ok.inj hk)⟩

theorem origin {l : Node} (h : forRunning settings input shape n = .ok (r, transform))
    (hl : l ∈ r.findChildren (layerKey n)) :
    ∃ s ∈ layers n, ∃ t l', traits s = .ok t ∧ t.runs = true ∧ Trimmed s l' ∧
      ((t.kind ≠ .softmaxWithLoss ∧ l = l') ∨
        (t.kind = .softmaxWithLoss ∧ ¬ HasSoftmax n ∧ l = toSoftmax l')) := by
  obtain ⟨scanned, hm, hall, hr, -⟩ := forRunning_eq_ok h
  rw [hr] at hl
  obtain ⟨s, hs, hsettle⟩ := List.mem_filterMap.mp hl
  obtain ⟨ht, hrun⟩ := hall s hs
  have hmem : s.2.1 ∈ layers n := hm ▸ List.mem_map_of_mem hs
  rcases settle_cases hrun with ⟨hn, -⟩ | ⟨l', he, hl', hruns, hkind⟩ |
      ⟨l', he, hl', hruns, hkind, hany⟩
  · rw [hn] at hsettle
    cases hsettle
  · rw [he] at hsettle
    exact ⟨s.2.1, hmem, s.1, l', ht, hruns, hl', .inl ⟨hkind, (Option.some.inj hsettle).symm⟩⟩
  · rw [he] at hsettle
    have hnone : ¬ HasSoftmax n := by
      intro hn
      rw [(any_softmax_iff hm fun s hs => (hall s hs).1).mpr hn] at hany
      cases hany
    exact ⟨s.2.1, hmem, s.1, l', ht, hruns, hl',
      .inr ⟨hkind, hnone, (Option.some.inj hsettle).symm⟩⟩

theorem mem_layers_of_runs (h : forRunning settings input shape n = .ok (r, transform)) {s : Node}
    {t : Traits} (hs : s ∈ layers n) (ht : traits s = .ok t) (hr : t.runs = true)
    (hloss : t.kind = .softmaxWithLoss → ¬ HasSoftmax n) :
    ∃ l', Trimmed s l' ∧ (if t.kind = .softmaxWithLoss then toSoftmax l' else l') ∈ layers r := by
  obtain ⟨scanned, hm, hall, hfound, -⟩ := forRunning_eq_ok h
  rw [← hm] at hs
  obtain ⟨q, hq, rfl⟩ := List.mem_map.mp hs
  obtain ⟨hqt, hrun⟩ := hall q hq
  obtain rfl : q.1 = t := Except.ok.inj (hqt.symm.trans ht)
  have hmem {l : Node} (he : settle (scanned.any fun l => l.1.kind = .softmax) q.1 q.2.2 = some l) :
      l ∈ layers r := by
    apply layers_forRunning_of_mem h
    rw [hfound]
    exact List.mem_filterMap.mpr ⟨q, hq, he⟩
  rcases settle_cases hrun with ⟨-, hn | ⟨hk, hany⟩⟩ | ⟨l', he, hl', -, hk⟩ | ⟨l', he, hl', -, hk, -⟩
  · rw [hr] at hn
    cases hn
  · exact absurd ((any_softmax_iff hm fun s hs => (hall s hs).1).mp hany) (hloss hk)
  · refine ⟨l', hl', ?_⟩
    rw [if_neg hk]
    exact hmem he
  · refine ⟨l', hl', ?_⟩
    rw [if_pos hk]
    exact hmem he

/-- The softmax that is left of a loss, with its name and its outputs, where no rule excludes it. -/
structure IsDemoted (s l : Node) : Prop where
  loss : LayerKind.ofNode s = .ok .softmaxWithLoss
  softmax : LayerKind.ofNode l = .ok .softmax
  name : l.findValue "name" = s.findValue "name"
  tops : l.findValues "top" = s.findValues "top"
  permitted : ∃ t, traits l = .ok t ∧ .run ∉ t.excluded

theorem isDemoted_toSoftmax {s l : Node} {t : Traits} (ht : traits s = .ok t)
    (hk : t.kind = .softmaxWithLoss) (hr : t.runs = true) (hl : Trimmed s l) :
    IsDemoted s (toSoftmax l) := by
  have hsoft : traits (toSoftmax l) = .ok { t with kind := .softmax } :=
    traits_toSoftmax (hl.traits_eq.trans ht)
  have hsame : ∀ key, key = "name" ∨ key = "top" →
      (toSoftmax l).findChildren key = s.findChildren key := by
    rintro key (rfl | rfl) <;>
    · rw [findChildren_toSoftmax l (by decide) (by decide) (by decide),
        findChildren_setValue (by decide), hl.children _ (by decide)]
  constructor
  · rw [ofNode_of_traits ht, hk]
  · exact ofNode_of_traits hsoft
  · rw [findValue, findValue, findChild_eq_head?, findChild_eq_head?, hsame _ (.inl rfl)]
  · rw [findValues, findValues, hsame _ (.inr rfl)]
  · exact ⟨_, hsoft, (Traits.runs_iff.mp hr).1.2.2⟩

/-- Every layer of the result runs, unless it is the softmax of a loss, which is kept whatever phases
the loss is for, or stood under the older key and took the place of layers that are all gone. -/
theorem forRunning_runs (h : forRunning settings input shape n = .ok (r, transform)) :
    ∀ l ∈ layers r, Runs l ∨ (∃ s ∈ layers n, IsDemoted s l) ∨
      (layerKey n = "layer" ∧ r.findChild "layer" = none ∧ l ∈ n.findChildren "layers") := by
  intro l hl
  rcases layers_forRunning h with he | ⟨hk, hnone, he⟩
  · rw [he] at hl
    obtain ⟨s, hs, t, l', ht, hr, hl', ⟨hkind, rfl⟩ | ⟨hkind, -, rfl⟩⟩ := origin h hl
    · obtain ⟨hrules, hphases⟩ := Traits.runs_iff.mp hr
      exact .inl ⟨t, hl'.traits_eq.trans ht, hrules.2.2, hphases.resolve_left hkind⟩
    · exact .inr (.inl ⟨s, hs, isDemoted_toSoftmax ht hkind hr hl'⟩)
  · rw [he] at hl
    exact .inr (.inr ⟨hk, hnone, hl⟩)

end Whole

def smallInput : InputShape := ⟨1, 3, 8, 8⟩

def trainedLoss : Node :=
  root [block "layer" [leaf "type" "SoftmaxWithLoss" .string, leaf "bottom" "ip" .string,
    leaf "bottom" "label" .string, block "include" [leaf "phase" "TRAIN" .unknown]]]

theorem forRunning_trainedLoss : ∃ r, forRunning .standard "data" smallInput trainedLoss = .ok r ∧
    (r.1.findChild "layer").isSome = true :=
  exists_ok (by decide +kernel)

theorem forRunning_runs_trainedLoss :
    ∃ r, forRunning .standard "data" smallInput trainedLoss = .ok r ∧
      ∀ l ∈ layers r.1, Runs l ∨ ∃ s ∈ layers trainedLoss, IsDemoted s l := by
  obtain ⟨r, hr, hlayer⟩ := forRunning_trainedLoss
  refine ⟨r, hr, fun l hl => ?_⟩
  rcases forRunning_runs hr l hl with hruns | hdemoted | ⟨-, hnone, -⟩
  · exact .inl hruns
  · exact .inr hdemoted
  · rw [hnone] at hlayer
    cases hlayer

theorem exists_forRunning (text : String) {cs : List Char} (ht : text.toList = cs)
    (p : Node → Node → Bool)
    (h : ((Token.scan .start cs).toOption.any fun ts => (Reader.readTokens ts).toOption.any fun n =>
      (forRunning .standard "data" smallInput n).toOption.any fun r => p n r.1) = true) :
    ∃ n r, parse text = .ok n ∧ forRunning .standard "data" smallInput n = .ok r ∧
      p n r.1 = true := by
  obtain ⟨n, hn, hp⟩ := exists_parse ht h
  obtain ⟨r, hr, hp⟩ := exists_ok hp
  exact ⟨n, r, hn, hr, hp⟩

def lossForTraining : String :=
  "layer \x7b type: \"SoftmaxWithLoss\" include \x7b phase: TRAIN \x7d \x7d"

def debugBeforeOlderLayer : String :=
  "layer \x7b type: \"Debug\" \x7d layers \x7b type: \"Data\" include \x7b phase: TRAIN \x7d \x7d"

theorem forRunning_layers_without_run :
    (∃ n r, parse lossForTraining = .ok n ∧ forRunning .standard "data" smallInput n = .ok r ∧
      ∃ l ∈ layers r.1, ¬ Runs l) ∧
    ∃ n r, parse debugBeforeOlderLayer = .ok n ∧ forRunning .standard "data" smallInput n = .ok r ∧
      ∃ l ∈ layers r.1, ¬ Runs l := by
  constructor
  · obtain ⟨n, r, hn, hr, hd⟩ := exists_forRunning lossForTraining String.toList_ofList
      (fun _ r => decide (∃ l ∈ layers r, ¬ Runs l)) (by decide +kernel)
    exact ⟨n, r, hn, hr, of_decide_eq_true hd⟩
  · obtain ⟨n, r, hn, hr, hd⟩ := exists_forRunning debugBeforeOlderLayer String.toList_ofList
      (fun _ r => decide (∃ l ∈ layers r, ¬ Runs l)) (by decide +kernel)
    exact ⟨n, r, hn, hr, of_decide_eq_true hd⟩

section Classifier

variable {settings : Settings} {input : String} {shape : InputShape} {n r : Node}
  {transform : Option Node}

theorem softmax_of_mem_forRunning (h : forRunning settings input shape n = .ok (r, transform))
    {l : Node} (hl : l ∈ r.findChildren (layerKey n)) (hsoft : LayerKind.ofNode l = .ok .softmax) :
    ¬ HasSoftmax n ∨ ∃ l ∈ layers n, LayerKind.ofNode l = .ok .softmax ∧ Runs l := by
  obtain ⟨s, hs, t, l', ht, hr, hl', ⟨hkind, rfl⟩ | ⟨-, hnone, -⟩⟩ := origin h hl
  · have hk : LayerKind.ofNode s = .ok .softmax := by
      rw [ofNode_of_traits ht, ← ofNode_of_traits (hl'.traits_eq.trans ht), hsoft]
    obtain ⟨hrules, hphases⟩ := Traits.runs_iff.mp hr
    exact .inr ⟨s, hs, hk, t, ht, hrules.2.2, hphases.resolve_left hkind⟩
  · exact .inl hnone

theorem hasSoftmax_forRunning (h : forRunning settings input shape n = .ok (r, transform)) {l : Node}
    (hl : l ∈ layers n) (hsoft : LayerKind.ofNode l = .ok .softmax) (hruns : Runs l) :
    HasSoftmax r := by
  obtain ⟨t, ht, hex, hin⟩ := hruns
  have hk : t.kind = .softmax := Except.ok.inj ((ofNode_of_traits ht).symm.trans hsoft)
  have hne : t.kind ≠ .softmaxWithLoss := by
    rw [hk]
    decide
  have hr : t.runs = true := by
    rw [Traits.runs_iff, hk]
    exact ⟨⟨by decide, by decide, hex⟩, .inr hin⟩
  obtain ⟨l', hl', hmem⟩ := mem_layers_of_runs h hl ht hr fun he => absurd he hne
  rw [if_neg hne] at hmem
  exact ⟨l', hmem, by rw [ofNode_of_traits (hl'.traits_eq.trans ht), hk]⟩

theorem hasSoftmax_forRunning_of_loss (h : forRunning settings input shape n = .ok (r, transform))
    {l : Node} (hl : l ∈ layers n) (hopen : IsOpenLoss l) (hnone : ¬ HasSoftmax n) :
    HasSoftmax r := by
  obtain ⟨t, ht, hloss, hex⟩ := hopen
  have hr : t.runs = true := by
    rw [Traits.runs_iff, hloss]
    exact ⟨⟨by decide, by decide, hex⟩, .inl rfl⟩
  obtain ⟨l', hl', hmem⟩ := mem_layers_of_runs h hl ht hr fun _ => hnone
  rw [if_pos hloss] at hmem
  exact ⟨toSoftmax l', hmem, ofNode_of_traits (traits_toSoftmax (hl'.traits_eq.trans ht))⟩

/-- A network whose loss may run has a softmax at the end exactly if it had none, so that the loss
became one, or if one that it had runs. A softmax that does not run displaces the loss all the same. -/
theorem forRunning_hasSoftmax_iff (h : forRunning settings input shape n = .ok (r, transform))
    (hloss : ∃ s ∈ layers n, IsOpenLoss s) :
    HasSoftmax r ↔ ¬ HasSoftmax n ∨ (∃ l ∈ layers n, LayerKind.ofNode l = .ok .softmax ∧ Runs l) ∨
      (layerKey n = "layer" ∧ r.findChild "layer" = none ∧
        ∃ l ∈ n.findChildren "layers", LayerKind.ofNode l = .ok .softmax) := by
  constructor
  · rintro ⟨l, hl, hsoft⟩
    rcases layers_forRunning h with he | ⟨hk, hnone, he⟩
    · rw [he] at hl
      exact (softmax_of_mem_forRunning h hl hsoft).imp_right .inl
    · rw [he] at hl
      exact .inr (.inr ⟨hk, hnone, l, hl, hsoft⟩)
  · rintro (hnone | ⟨l, hl, hsoft, hruns⟩ | ⟨hk, hnone, l, hl, hsoft⟩)
    · obtain ⟨s, hs, hopen⟩ := hloss
      exact hasSoftmax_forRunning_of_loss h hs hopen hnone
    · exact hasSoftmax_forRunning h hl hsoft hruns
    · obtain ⟨-, -, -, -, hframe⟩ := forRunning_eq_ok h
      have hl' : l ∈ r.findChildren "layers" := by
        rw [hframe "layers" (by decide) (by decide) (by decide) (by simp [hk])]
        exact hl
      have hkey : layerKey r = "layers" :=
        layerKey_of_findChildren (List.ne_nil_of_mem hl') (.inr ⟨rfl, hnone⟩)
      exact ⟨l, by rwa [layers, hkey], hsoft⟩

end Classifier

theorem forRunning_hasSoftmax_iff_trainedLoss :
    ∃ r, forRunning .standard "data" smallInput trainedLoss = .ok r ∧ HasSoftmax r.1 := by
  obtain ⟨r, hr, -⟩ := forRunning_trainedLoss
  have hloss : ∃ s ∈ layers trainedLoss, IsOpenLoss s := by decide +kernel
  refine ⟨r, hr, (forRunning_hasSoftmax_iff hr hloss).mpr (.inl ?_)⟩
  decide +kernel

def softmaxForTraining : String :=
  "layer \x7b type: \"Softmax\" include \x7b phase: TRAIN \x7d \x7d layer \x7b type: \"SoftmaxWithLoss\" \x7d"

theorem forRunning_without_softmax :
    ∃ n r, parse softmaxForTraining = .ok n ∧ forRunning .standard "data" smallInput n = .ok r ∧
      (∃ s ∈ layers n, IsOpenLoss s) ∧ ¬ HasSoftmax r.1 := by
  obtain ⟨n, r, hn, hr, hd⟩ := exists_forRunning softmaxForTraining String.toList_ofList
      (fun n r => decide ((∃ s ∈ layers n, IsOpenLoss s) ∧ ¬ HasSoftmax r))
    (by decide +kernel)
  exact ⟨n, r, hn, hr, of_decide_eq_true hd⟩

end NetDesc.Network
