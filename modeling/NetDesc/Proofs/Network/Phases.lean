import NetDesc.Proofs.Layer.Normal
import NetDesc.Proofs.Network.Rules
import NetDesc.Proofs.Network.Stripped

/-!
Two accounts of whether a layer runs: a network is stripped by the sets of phases that the rules of its
layers name, and a decoded layer asks its rules one after another, exclude rules first. They agree
where all phases are values, every include rule names one, and the rules are of one sort.
-/

namespace NetDesc

theorem Layer.meetsPhase_iff {m : Layer} {p : Phase} (hp : p ≠ .none) : m.meetsPhase p = true ↔
    m.excludeRules.any (ruleNames p) ≠ true ∧
      (m.includeRules.any (ruleNames p) = true ∨ m.includeRules = [] ∨ m.excludeRules ≠ []) := by
  rw [Layer.meetsPhase, if_neg hp]
  cases m.excludeRules.any (ruleNames p) with
  | true => simp only [if_true, ne_eq, not_true_eq_false, false_and, Bool.false_eq_true]
  | false =>
    cases m.includeRules.any (ruleNames p) with
    | true => simp
    | false => simp

namespace Network

open Node

/-- The rules of a layer, where the order in which they are asked does not matter. -/
structure IsPlainlyRuled (l : Node) : Prop where
  values : ∀ rule ∈ l.findChildren "include" ++ l.findChildren "exclude",
    ∀ c ∈ rule.findChildren "phase", c.isBlock = false
  named : ∀ rule ∈ l.findChildren "include", ∃ p ∈ [Phase.train, .test, .run, .all],
    (rule.findValue "phase").bind Phase.parse? = some p
  oneSort : l.findChildren "include" = [] ∨ l.findChildren "exclude" = []

instance (l : Node) : Decidable (IsPlainlyRuled l) :=
  decidable_of_iff
    ((∀ rule ∈ l.findChildren "include" ++ l.findChildren "exclude",
        ∀ c ∈ rule.findChildren "phase", c.isBlock = false) ∧
      (∀ rule ∈ l.findChildren "include", ∃ p ∈ [Phase.train, .test, .run, .all],
        (rule.findValue "phase").bind Phase.parse? = some p) ∧
      (l.findChildren "include" = [] ∨ l.findChildren "exclude" = []))
    ⟨fun h => ⟨h.1, h.2.1, h.2.2⟩, fun h => ⟨h.values, h.named, h.oneSort⟩⟩

section Rules

variable {rule : Node} {rules : List Node} {r : Record} {rs : List Record} {ps : List Phase}
  {p : Phase}

theorem spelled?_eq_findValue (h : ∀ c ∈ rule.findChildren "phase", c.isBlock = false) :
    spelled? rule = rule.findValue "phase" := by
  rw [spelled?, findValues, findValue, findChild_eq_head?]
  cases hc : rule.findChildren "phase" with
  | nil => rfl
  | cons c cs =>
    have hvalue : c.isBlock = false := h c (by simp [hc])
    obtain ⟨v, hv⟩ := Option.isSome_iff_exists.mp (Option.isNone_eq_false_iff.mp hvalue)
    rw [List.filterMap_cons_some hv, List.head?_cons, List.head?_cons, Option.bind_some, hv]

theorem hidden?_eq_none (h : ∀ c ∈ rule.findChildren "phase", c.isBlock = false) :
    hidden? rule = none := by
  rw [hidden?, spelled?_eq_findValue h]
  cases rule.findValue "phase" <;> rfl

theorem rulePhase?_eq_parse? (hr : Record.ofNode .stateRule rule = .ok r)
    (h : ∀ c ∈ rule.findChildren "phase", c.isBlock = false) :
    Layer.rulePhase? r = (rule.findValue "phase").bind Phase.parse? := by
  apply Option.ext
  intro q
  rw [named_iff hr q, hidden?_eq_none h, Option.bind_eq_some_iff]
  simp

theorem any_ruleNames_iff (hrs : rules.mapM (Record.ofNode .stateRule) = .ok rs)
    (hps : rulePhases rules = .ok ps)
    (h : ∀ rule ∈ rules, ∀ c ∈ rule.findChildren "phase", c.isBlock = false)
    (hp : p ∈ Phase.all.expand) : rs.any (Layer.ruleNames p) = true ↔ p ∈ ps := by
  obtain ⟨pairs, rfl, rfl, hread⟩ := zip_of_mapM hrs
  have hnames : ∀ pair ∈ pairs, Layer.ruleNames p pair.2 = true ↔
      ∃ t, pair.1.findValue "phase" = some t ∧ ∃ q, Phase.parse? t = some q ∧ p ∈ q.expand := by
    intro pair hpair
    rw [ruleNames_iff hp, rulePhase?_eq_parse? (hread pair hpair) (h _ (List.mem_map_of_mem hpair))]
    simp only [Option.bind_eq_some_iff]
    constructor
    · rintro ⟨q, ⟨t, ht, hq⟩, hpq⟩
      exact ⟨t, ht, q, hq, hpq⟩
    · rintro ⟨t, ht, q, hq, hpq⟩
      exact ⟨q, ⟨t, ht, hq⟩, hpq⟩
  rw [List.any_eq_true, mem_rulePhases hps]
  constructor
  · rintro ⟨r, hr, hn⟩
    obtain ⟨pair, hpair, rfl⟩ := List.mem_map.mp hr
    exact ⟨hp, pair.1, List.mem_map_of_mem hpair, (hnames pair hpair).mp hn⟩
  · rintro ⟨-, rule, hrule, hn⟩
    obtain ⟨pair, hpair, rfl⟩ := List.mem_map.mp hrule
    exact ⟨pair.2, List.mem_map_of_mem hpair, (hnames pair hpair).mpr hn⟩

theorem eq_nil_of_rulePhases (hps : rulePhases rules = .ok ps)
    (hnamed : ∀ rule ∈ rules, ∃ p ∈ [Phase.train, .test, .run, .all],
      (rule.findValue "phase").bind Phase.parse? = some p)
    (hnone : ∀ p ∈ Phase.all.expand, p ∉ ps) : rules = [] := by
  rw [List.eq_nil_iff_forall_not_mem]
  intro rule hrule
  obtain ⟨p, hp, hparse⟩ := hnamed rule hrule
  obtain ⟨t, ht, hq⟩ := Option.bind_eq_some_iff.mp hparse
  obtain ⟨q, hall, hpq⟩ : ∃ q ∈ Phase.all.expand, q ∈ p.expand := by
    revert hp
    cases p <;> decide
  exact hnone q hall ((mem_rulePhases hps).mpr ⟨hall, rule, hrule, t, ht, p, hq, hpq⟩)

end Rules

section Layers

variable {l : Node} {t : Traits} {m : Layer}

theorem runs_iff_of_traits (ht : traits l = .ok t) : Runs l ↔
    .run ∉ t.excluded ∧ (.run ∈ t.included ∨ (.train ∉ t.included ∧ .test ∉ t.included)) := by
  constructor
  · rintro ⟨u, hu, hrules⟩
    cases ht.symm.trans hu
    exact hrules
  · intro hrules
    exact ⟨t, ht, hrules⟩

theorem rulePhases_of_traits (ht : traits l = .ok t) :
    rulePhases (l.findChildren "include") = .ok t.included ∧
      rulePhases (l.findChildren "exclude") = .ok t.excluded := by
  obtain ⟨kind, -, ht⟩ := bind_eq_ok.mp ht
  obtain ⟨included, hi, ht⟩ := bind_eq_ok.mp ht
  obtain ⟨excluded, he, ht⟩ := bind_eq_ok.mp ht
  cases ht
  exact ⟨hi, he⟩

theorem runs_iff_meetsPhase (ht : traits l = .ok t) (hm : Layer.ofNode l = .ok m)
    (hl : IsPlainlyRuled l) : Runs l ↔ m.meetsPhase .run = true := by
  obtain ⟨hi, he⟩ := rulePhases_of_traits ht
  have hread := Layer.readFrom_ofNode hm
  have hincluded : m.includeRules.any (Layer.ruleNames .run) = true ↔ .run ∈ t.included :=
    any_ruleNames_iff hread.includeRules hi
      (fun rule hr => hl.values rule (List.mem_append_left _ hr)) (by decide)
  have hexcluded : m.excludeRules.any (Layer.ruleNames .run) = true ↔ .run ∈ t.excluded :=
    any_ruleNames_iff hread.excludeRules he
      (fun rule hr => hl.values rule (List.mem_append_right _ hr)) (by decide)
  rw [runs_iff_of_traits ht, Layer.meetsPhase_iff (by decide), hincluded, ne_eq, hexcluded]
  refine and_congr_right fun _ => ?_
  have hrules : m.includeRules = [] ↔ l.findChildren "include" = [] :=
    eq_nil_iff_of_mapM hread.includeRules
  have hnone (h : l.findChildren "include" = []) (p : Phase) : p ∉ t.included := by
    intro hp
    obtain ⟨-, rule, hrule, -⟩ := (mem_rulePhases hi).mp hp
    rw [h] at hrule
    cases hrule
  rcases hl.oneSort with hnil | hnil
  · exact iff_of_true (.inr ⟨hnone hnil .train, hnone hnil .test⟩) (.inr (.inl (hrules.mpr hnil)))
  constructor
  · rintro (hrun | ⟨htrain, htest⟩)
    · exact .inl hrun
    · -- Include rules that name neither training nor tests name the run, as there are no others.
      by_cases hrun : .run ∈ t.included
      · exact .inl hrun
      · refine .inr (.inl (hrules.mpr (eq_nil_of_rulePhases hi hl.named ?_)))
        intro p hp
        simp only [Phase.expand, List.mem_cons, List.not_mem_nil, or_false] at hp
        rcases hp with rfl | rfl | rfl
        · exact hrun
        · exact htest
        · exact htrain
  · rintro (hrun | hempty | hexclude)
    · exact .inl hrun
    · exact .inr ⟨hnone (hrules.mp hempty) .train, hnone (hrules.mp hempty) .test⟩
    · exact absurd ((eq_nil_iff_of_mapM hread.excludeRules).mpr hnil) hexclude

end Layers

section Whole

variable {settings : Settings} {input : String} {shape : InputShape} {n r : Node}
  {transform : Option Node}

/-- A layer with plain rules, of a kind that is there to run, survives exactly if it takes part in
inference once it is decoded. -/
theorem forRunning_meetsPhase (h : forRunning settings input shape n = .ok (r, transform)) :
    ∃ kept : List (Option Node), r.findChildren (layerKey n) = kept.filterMap id ∧
      List.Forall₂ (fun l o => ∃ kind, Becomes n kind l o ∧
        ∀ m, Layer.ofNode l = .ok m → m.kind ≠ .softmaxWithLoss → m.kind ≠ .labelMapping →
          m.kind ≠ .debug → IsPlainlyRuled l →
            ((∃ l', o = some l') ↔ m.meetsPhase .run = true)) (layers n) kept := by
  obtain ⟨scanned, hm, hall, hr, -⟩ := forRunning_eq_ok h
  have hsoft := any_softmax_iff hm fun s hs => (hall s hs).1
  refine ⟨scanned.map fun s => settle (scanned.any fun l => l.1.kind = .softmax) s.1 s.2.2, ?_, ?_⟩
  · rw [hr, List.filterMap_map]
    rfl
  · rw [← hm, List.forall₂_map_left_iff, List.forall₂_map_right_iff, List.forall₂_same]
    intro s hs
    obtain ⟨ht, ho⟩ := hall s hs
    have hb := becomes_settle ht ho hsoft
    refine ⟨s.1.kind, hb, fun m hm hloss hmapping hdebug hrules => ?_⟩
    have hkind : m.kind = s.1.kind :=
      Except.ok.inj ((Layer.readFrom_ofNode hm).kind.symm.trans (ofNode_of_traits ht))
    rw [hkind] at hloss hmapping hdebug
    rw [hb.survives, Survives, if_neg hloss, ← runs_iff_meetsPhase ht hm hrules]
    simp [hmapping, hdebug]

end Whole

def ruledLayers : Node :=
  root [block "layer" [leaf "type" "ReLU" .string, block "include" [leaf "phase" "TRAIN" .unknown],
      block "include" [leaf "phase" "RUN" .unknown]],
    block "layer" [leaf "type" "Data" .string, block "include" [leaf "phase" "TEST" .unknown]]]

theorem forRunning_meetsPhase_ruledLayers :
    ∃ r l, forRunning .standard "data" smallInput ruledLayers = .ok r ∧
      r.1.findChildren "layer" = [l] := by
  obtain ⟨r, hr, -⟩ : ∃ r, forRunning .standard "data" smallInput ruledLayers = .ok r ∧
      (r.1.findChild "layer").isSome = true := exists_ok (by decide +kernel)
  obtain ⟨kept, hlayers, hall⟩ := forRunning_meetsPhase hr
  obtain ⟨first, kept, ⟨_, _, hfirst⟩, hrest, rfl⟩ := List.forall₂_cons_left_iff.mp hall
  obtain ⟨second, kept, ⟨_, _, hsecond⟩, hnil, rfl⟩ := List.forall₂_cons_left_iff.mp hrest
  obtain rfl := List.forall₂_nil_left_iff.mp hnil
  obtain ⟨m, hm, hkind, hmeets⟩ : ∃ m, Layer.ofNode (ruledLayers.children.head (by decide)) = .ok m ∧
      m.kind = .relu ∧ m.meetsPhase .run = true := by
    decide +kernel
  obtain ⟨l, rfl⟩ := (hfirst m hm (by simp [hkind]) (by simp [hkind]) (by simp [hkind])
    (by decide +kernel)).mpr hmeets
  obtain ⟨m, hm, hkind, hmeets⟩ : ∃ m, Layer.ofNode (ruledLayers.children.getLast (by decide)) = .ok m ∧
      m.kind = .data ∧ ¬ m.meetsPhase .run = true := by
    decide +kernel
  have hgone : ¬ ∃ l', second = some l' := fun h => hmeets
    ((hsecond m hm (by simp [hkind]) (by simp [hkind]) (by simp [hkind]) (by decide +kernel)).mp h)
  obtain rfl := Option.eq_none_iff_forall_ne_some.mpr fun l' he => hgone ⟨l', he⟩
  exact ⟨r, l, hr, hlayers⟩

end Network

end NetDesc
