import NetDesc.Proofs.Network.Layers
import NetDesc.Proofs.Record.Faults

/-!
The phases of a layer's rules have two readers: the records of a layer take the first text under
`phase` and want it spelled as a name, while rewrites look at the first child alone and ignore blanks
and case.
-/

namespace NetDesc.Network

open Node

def spelled? (rule : Node) : Option String :=
  (rule.findValues "phase").head?

/-- A rule whose phase is left to one of the two readers: it is spelled in a way that only rewrites
take, or it stands behind a block where rewrites do not look. -/
def IsMisread (rule : Node) : Prop :=
  ∃ t, spelled? rule = some t ∧ Phase.ofName? t = none ∧
    (rule.findValue "phase" = none ∨ ∃ q, Phase.parse? t = some q)

def hidden? (rule : Node) : Option Phase :=
  if (rule.findValue "phase").isNone then (spelled? rule).bind Phase.ofName? else none

section Records

variable {rule : Node} {r : Record} {what t : String}

def phaseField : FieldSpec :=
  .optional "phase" (.choice .phase)

theorem isPlain_stateRule : ∀ f ∈ RecordClass.stateRule.fields, Record.IsPlain f := by
  intro f hf
  simp only [RecordClass.fields, List.mem_cons, List.not_mem_nil, or_false] at hf
  rcases hf with rfl | rfl | rfl | rfl | rfl
  · exact ⟨rfl, fun ch _ ho => by cases ho⟩
  all_goals exact ⟨rfl, fun ch hch => by cases hch⟩

theorem contains_members (t : String) :
    Choice.phase.members.contains t = (Phase.ofName? t).isSome := by
  rw [Bool.eq_iff_iff, List.contains_iff_mem, Choice.members, Phase.ofName?, List.find?_isSome,
    List.mem_map]
  simp

theorem badChoice?_phase (rule : Node) : Record.badChoice? rule phaseField =
    ((spelled? rule).filter fun t => (Phase.ofName? t).isNone).map fun t =>
      ⟨[.field "phase"], .notAMember t⟩ := by
  have hp : (fun t => !Choice.phase.members.contains t) = fun t => (Phase.ofName? t).isNone := by
    funext t
    rw [contains_members, Option.not_isSome]
  rw [← hp]
  rfl

theorem ofNode_stateRule_iff : Record.ofNode .stateRule rule = .error (.unknown what t) ↔
    what = rule.name ++ ".phase" ∧ spelled? rule = some t ∧ Phase.ofName? t = none := by
  have hfields : RecordClass.stateRule.fields.findSome? (Record.badChoice? rule) =
      Record.badChoice? rule phaseField := by
    change List.findSome? _ (phaseField :: _) = _
    rw [List.findSome?_cons]
    cases Record.badChoice? rule phaseField <;> rfl
  have hplace : (if "phase".isEmpty then rule.name else rule.name ++ "." ++ "phase") =
      rule.name ++ ".phase" := by
    rw [if_neg (by decide), String.append_assoc]
    rfl
  rw [Record.ofNode_unknown_iff isPlain_stateRule, hfields, badChoice?_phase]
  constructor
  · rintro ⟨name, h, rfl⟩
    obtain ⟨text, htext, he⟩ := Option.map_eq_some_iff.mp h
    cases he
    obtain ⟨hs, hnone⟩ := Option.filter_eq_some_iff.mp htext
    exact ⟨hplace, hs, Option.isNone_iff_eq_none.mp hnone⟩
  · rintro ⟨rfl, hs, hnone⟩
    refine ⟨"phase", Option.map_eq_some_iff.mpr ⟨t, ?_, rfl⟩, hplace.symm⟩
    exact Option.filter_eq_some_iff.mpr ⟨hs, Option.isNone_iff_eq_none.mpr hnone⟩

theorem rulePhase?_ofNode (h : Record.ofNode .stateRule rule = .ok r) :
    Layer.rulePhase? r = (spelled? rule).bind Phase.ofName? := by
  have hfield : RecordClass.stateRule.field? "phase" = some phaseField := rfl
  rw [spelled?, Layer.rulePhase?]
  cases ht : rule.findValues "phase" with
  | nil =>
    rw [Record.get?_of_nil isPlain_stateRule h hfield nofun ht]
    rfl
  | cons t ts =>
    obtain ⟨v, hv, hget⟩ := Record.get?_of_cons isPlain_stateRule h hfield nofun ht
    obtain ⟨w, hw, rfl⟩ := map_eq_ok.mp hv
    unfold Check.member at hw
    dsimp only at hw
    split at hw <;> cases hw
    rw [hget]
    rfl

end Records

section Readers

variable {rule : Node} {rules : List Node} {t : String} {p q : Phase}

theorem spelled?_of_findValue (h : rule.findValue "phase" = some t) : spelled? rule = some t := by
  rw [findValue, findChild_eq_head?] at h
  rw [spelled?, findValues]
  cases hc : rule.findChildren "phase" with
  | nil =>
    rw [hc] at h
    cases h
  | cons c cs =>
    rw [hc] at h
    have hvalue : c.value = some t := h
    rw [List.filterMap_cons_some hvalue, List.head?_cons]

theorem parse?_of_ofName? (h : Phase.ofName? t = some q) : Phase.parse? t = some q := by
  have hname := List.find?_some h
  have hname : q.name = t := LawfulBEq.eq_of_beq hname
  rw [← hname, Phase.parse?_name]

theorem parsePhase_eq_ok : parsePhase t = .ok q ↔ Phase.parse? t = some q := by
  unfold parsePhase
  cases Phase.parse? t <;> simp

theorem rulePhases_isOk_iff : (∃ ps, rulePhases rules = .ok ps) ↔
    ∀ rule ∈ rules, ∀ t, rule.findValue "phase" = some t → ∃ q, Phase.parse? t = some q := by
  have hok : (∃ ps, rulePhases rules = .ok ps) ↔
      ∃ qs, (rules.filterMap fun r => r.findValue "phase").mapM parsePhase = .ok qs := by
    constructor
    · rintro ⟨ps, h⟩
      obtain ⟨qs, hqs, -⟩ := bind_eq_ok.mp h
      exact ⟨qs, hqs⟩
    · rintro ⟨qs, hqs⟩
      exact ⟨_, bind_eq_ok.mpr ⟨qs, hqs, rfl⟩⟩
  simp only [hok, mapM_isOk_iff, List.mem_filterMap, parsePhase_eq_ok]
  constructor
  · intro h rule hr t ht
    exact h t ⟨rule, hr, ht⟩
  · rintro h t ⟨rule, hr, ht⟩
    exact h rule hr t ht

theorem mem_rulePhases {ps : List Phase} (h : rulePhases rules = .ok ps) : p ∈ ps ↔
    p ∈ Phase.all.expand ∧
      ∃ rule ∈ rules, ∃ t, rule.findValue "phase" = some t ∧
        ∃ q, Phase.parse? t = some q ∧ p ∈ q.expand := by
  obtain ⟨named, hnamed, h⟩ := bind_eq_ok.mp h
  cases h
  have hmem (q : Phase) : q ∈ named ↔ ∃ t ∈ rules.filterMap fun r => r.findValue "phase",
      Phase.parse? t = some q := by
    have hok : q ∈ named ↔ (.ok q : Result Phase) ∈ named.map .ok := by simp
    rw [hok, ← mapM_eq_ok.mp hnamed, List.mem_map]
    simp only [parsePhase_eq_ok]
  simp only [List.mem_filter, List.any_eq_true, List.contains_iff_mem, hmem, List.mem_filterMap]
  refine and_congr_right fun _ => ?_
  constructor
  · rintro ⟨q, ⟨t, ⟨rule, hr, ht⟩, hq⟩, hp⟩
    exact ⟨rule, hr, t, ht, q, hq, hp⟩
  · rintro ⟨rule, hr, t, ht, q, hq, hp⟩
    exact ⟨q, ⟨t, ⟨rule, hr, ht⟩, hq⟩, hp⟩

theorem ruleNames_iff {r : Record} (hp : p ∈ Phase.all.expand) :
    Layer.ruleNames p r = true ↔ ∃ q, Layer.rulePhase? r = some q ∧ p ∈ q.expand := by
  have hself : p ∈ p.expand := by
    revert hp
    cases p <;> decide
  unfold Layer.ruleNames
  cases Layer.rulePhase? r with
  | none => simp
  | some q =>
    simp only [Bool.or_eq_true, List.contains_iff_mem, Option.some.injEq, exists_eq_left']
    constructor
    · rintro (h | h)
      · rwa [LawfulBEq.eq_of_beq h]
      · exact h
    · exact Or.inr

end Readers

section Agreement

variable {rules : List Node}

theorem rulePhases_error_iff : (∃ e, rulePhases rules = .error e) ↔
    ∃ rule ∈ rules, ∃ t, rule.findValue "phase" = some t ∧ Phase.parse? t = none := by
  have hcases : (∃ e, rulePhases rules = .error e) ↔ ¬ ∃ ps, rulePhases rules = .ok ps := by
    cases rulePhases rules <;> simp
  rw [hcases, rulePhases_isOk_iff]
  simp only [Classical.not_forall, not_exists, exists_prop, Option.eq_none_iff_forall_ne_some, ne_eq]

theorem unknown_phase_iff :
    (∃ rule ∈ rules, ∃ t,
      Record.ofNode .stateRule rule = .error (.unknown (rule.name ++ ".phase") t)) ↔
      (∃ e, rulePhases rules = .error e) ∨ ∃ rule ∈ rules, IsMisread rule := by
  simp only [ofNode_stateRule_iff, true_and]
  rw [rulePhases_error_iff]
  constructor
  · rintro ⟨rule, hr, t, hs, hnone⟩
    cases hv : rule.findValue "phase" with
    | none =>
      -- Rewrites see no phase at all where the first one is a block.
      exact .inr ⟨rule, hr, t, hs, hnone, .inl hv⟩
    | some u =>
      obtain rfl : t = u := Option.some.inj (hs.symm.trans (spelled?_of_findValue hv))
      cases hq : Phase.parse? t with
      | none => exact .inl ⟨rule, hr, t, hv, hq⟩
      | some q => exact .inr ⟨rule, hr, t, hs, hnone, .inr ⟨q, hq⟩⟩
  · rintro (⟨rule, hr, t, hv, hq⟩ | ⟨rule, hr, t, hs, hnone, -⟩)
    · refine ⟨rule, hr, t, spelled?_of_findValue hv, ?_⟩
      rw [Option.eq_none_iff_forall_ne_some]
      intro q hname
      cases hq.symm.trans (parse?_of_ofName? hname)
    · exact ⟨rule, hr, t, hs, hnone⟩

theorem named_iff {rule : Node} {r : Record} (h : Record.ofNode .stateRule rule = .ok r) (q : Phase) :
    Layer.rulePhase? r = some q ↔
      (∃ t, rule.findValue "phase" = some t ∧ Phase.parse? t = some q) ∨ hidden? rule = some q := by
  rw [rulePhase?_ofNode h, hidden?]
  cases hv : rule.findValue "phase" with
  | none => simp
  | some t =>
    have hs := spelled?_of_findValue hv
    have hname : Phase.ofName? t ≠ none := by
      intro hnone
      have herror := ofNode_stateRule_iff.mpr ⟨rfl, hs, hnone⟩
      cases h.symm.trans herror
    obtain ⟨q', hq'⟩ := Option.ne_none_iff_exists'.mp hname
    rw [hs, Option.bind_some, hq', Option.isNone_some, if_neg Bool.false_ne_true]
    simp [parse?_of_ofName? hq']

/-- The records of the rules are refused for a phase where the rewrites refuse it, and beyond that
where the rules are misread; where both readers are content they name the same phases, but for those
that are hidden from the rewrites. -/
theorem rule_readers (rules : List Node) :
    ((∃ rule ∈ rules, ∃ t,
      Record.ofNode .stateRule rule = .error (.unknown (rule.name ++ ".phase") t)) ↔
      (∃ e, rulePhases rules = .error e) ∨ ∃ rule ∈ rules, IsMisread rule) ∧
    ∀ rs ps, rules.mapM (Record.ofNode .stateRule) = .ok rs → rulePhases rules = .ok ps →
      ∀ p ∈ Phase.all.expand, (∃ r ∈ rs, Layer.ruleNames p r = true) ↔
        p ∈ ps ∨ ∃ rule ∈ rules, ∃ q, hidden? rule = some q ∧ p ∈ q.expand := by
  refine ⟨unknown_phase_iff, ?_⟩
  intro rs ps hrs hps p hp
  obtain ⟨pairs, hfst, hsnd, hread⟩ := zip_of_mapM hrs
  subst hfst hsnd
  constructor
  · rintro ⟨r, hr, hnames⟩
    obtain ⟨pair, hpair, rfl⟩ := List.mem_map.mp hr
    obtain ⟨q, hq, hpq⟩ := (ruleNames_iff hp).mp hnames
    have hrule : pair.1 ∈ pairs.map Prod.fst := List.mem_map_of_mem hpair
    rcases (named_iff (hread pair hpair) q).mp hq with ⟨t, ht, hq⟩ | hhidden
    · exact .inl ((mem_rulePhases hps).mpr ⟨hp, pair.1, hrule, t, ht, q, hq, hpq⟩)
    · exact .inr ⟨pair.1, hrule, q, hhidden, hpq⟩
  · intro h
    obtain ⟨rule, hrule, q, hq, hpq⟩ : ∃ rule ∈ pairs.map Prod.fst, ∃ q,
        ((∃ t, rule.findValue "phase" = some t ∧ Phase.parse? t = some q) ∨ hidden? rule = some q) ∧
          p ∈ q.expand := by
      rcases h with h | ⟨rule, hrule, q, hhidden, hpq⟩
      · obtain ⟨-, rule, hrule, t, ht, q, hq, hpq⟩ := (mem_rulePhases hps).mp h
        exact ⟨rule, hrule, q, .inl ⟨t, ht, hq⟩, hpq⟩
      · exact ⟨rule, hrule, q, .inr hhidden, hpq⟩
    obtain ⟨pair, hpair, rfl⟩ := List.mem_map.mp hrule
    refine ⟨pair.2, List.mem_map_of_mem hpair, (ruleNames_iff hp).mpr ⟨q, ?_, hpq⟩⟩
    exact (named_iff (hread pair hpair) q).mpr hq

end Agreement

def halfHiddenRules : List Node :=
  [block "include" [leaf "phase" "TRAIN" .unknown],
    block "include" [block "phase" [], leaf "phase" "TEST" .unknown]]

theorem rule_readers_halfHidden : ∃ rs ps,
    halfHiddenRules.mapM (Record.ofNode .stateRule) = .ok rs ∧ rulePhases halfHiddenRules = .ok ps ∧
      ((∃ r ∈ rs, Layer.ruleNames .train r = true) ∧ .train ∈ ps) ∧
      (∃ r ∈ rs, Layer.ruleNames .test r = true) ∧ .test ∉ ps := by
  obtain ⟨rs, hrs, -⟩ : ∃ rs, halfHiddenRules.mapM (Record.ofNode .stateRule) = .ok rs ∧
      (rs.length == 2) = true := exists_ok (by decide +kernel)
  have hps : rulePhases halfHiddenRules = .ok [.train] := toOption_eq_some.mp (by decide +kernel)
  have hread := (rule_readers halfHiddenRules).2 rs [.train] hrs hps
  have hhidden : ∃ rule ∈ halfHiddenRules, ∃ q, hidden? rule = some q ∧ .test ∈ q.expand :=
    ⟨block "include" [block "phase" [], leaf "phase" "TEST" .unknown], by decide, .test, by decide,
      by decide⟩
  refine ⟨rs, [.train], hrs, hps, ⟨?_, by decide⟩, ?_, by decide⟩
  · exact (hread .train (by decide)).mpr (.inl (by decide))
  · exact (hread .test (by decide)).mpr (.inr hhidden)

def lowerCaseRule : String :=
  "layer \x7b type: \"ReLU\" include \x7b phase: train \x7d \x7d"

def hiddenRule : String :=
  "layer \x7b type: \"ReLU\" include \x7b phase \x7b \x7d phase: TRAIN \x7d \x7d"

theorem rule_readers_disagree :
    (∃ l, parse lowerCaseRule = .ok (root [l]) ∧ LayerKind.ofNode l = .ok .relu ∧
      (l.findChildren "include").mapM (Record.ofNode .stateRule) =
        .error (.unknown "include.phase" "train") ∧
      rulePhases (l.findChildren "include") = .ok [.train]) ∧
    ∃ l rs, parse hiddenRule = .ok (root [l]) ∧ LayerKind.ofNode l = .ok .relu ∧
      (l.findChildren "include").mapM (Record.ofNode .stateRule) = .ok rs ∧
      rs.any (Layer.ruleNames .train) = true ∧ rulePhases (l.findChildren "include") = .ok [] := by
  constructor
  · let rule := block "include" [leaf "phase" "train" .unknown]
    refine ⟨block "layer" [leaf "type" "ReLU" .string, rule], toOption_eq_some.mp (by decide +kernel),
      LayerKind.ofNode_of_findValue rfl, ?_, toOption_eq_some.mp (by decide +kernel)⟩
    have hrule : Record.ofNode .stateRule rule = .error (.unknown "include.phase" "train") :=
      ofNode_stateRule_iff.mpr ⟨by decide, by decide, by decide⟩
    change [rule].mapM (Record.ofNode .stateRule) = _
    rw [List.mapM_cons, hrule]
    rfl
  · let rule := block "include" [block "phase" [], leaf "phase" "TRAIN" .unknown]
    obtain ⟨rs, hrs, hnames⟩ : ∃ rs, [rule].mapM (Record.ofNode .stateRule) = .ok rs ∧
        rs.any (Layer.ruleNames .train) = true := exists_ok (by decide +kernel)
    exact ⟨block "layer" [leaf "type" "ReLU" .string, rule], rs,
      toOption_eq_some.mp (by decide +kernel), LayerKind.ofNode_of_findValue rfl, hrs, hnames,
      toOption_eq_some.mp (by decide +kernel)⟩

end NetDesc.Network
