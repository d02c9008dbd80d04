import NetDesc.Network.Lookup

namespace NetDesc.Network

def IsFirst (P : Node → Prop) (ls : List Node) (l : Node) : Prop :=
  P l ∧ ∃ before after, ls = before ++ l :: after ∧ ∀ k ∈ before, ¬ P k

def IsCandidate (q : Query) (l : Node) : Prop :=
  (∃ t, l.findValue "type" = some t ∧ Text.lower t = Text.lower q.layerType) ∧
    ∀ name, q.layerName = some name → l.findValue "name" = some name

def NamesPhase (p : Phase) (l : Node) : Prop :=
  ∃ rule t, l.findChild "include" = some rule ∧ rule.findValue "phase" = some t ∧
    Text.upper t = p.name

/-- Of several candidates the first one counts. Where a phase is asked for, those whose first rule names
it come before all others, and of the others only those without rules are taken. -/
def IsConsulted (q : Query) (p : Phase) (ls : List Node) (l : Node) : Prop :=
  if p = .none then IsFirst (IsCandidate q) ls l
  else IsFirst (fun k => IsCandidate q k ∧ NamesPhase p k) ls l ∨
    (∀ k ∈ ls, IsCandidate q k → ¬ NamesPhase p k) ∧
      IsFirst (fun k => IsCandidate q k ∧ k.findChild "include" = none) ls l

/-- Where a field is read: in the first block of the name, and in the layer itself where the name is
empty, or none is given, or no such block is there. -/
def IsPlaceOfField (block : Option String) (l place : Node) : Prop :=
  (∃ name, block = some name ∧ name ≠ "" ∧ l.findChild name = some place) ∨
    (∀ name, block = some name → name ≠ "" → l.findChild name = none) ∧ place = l

section Pass

variable {q : Query} {p : Phase} {ls : List Node} {l : Node}

theorem find?_eq_some_iff_isFirst {f : Node → Bool} {P : Node → Prop} (hf : ∀ k, f k = true ↔ P k) :
    ls.find? f = some l ↔ IsFirst P ls l := by
  have hnot (k : Node) : (!f k) = true ↔ ¬ P k := by
    rw [Bool.not_eq_true', ← hf k, Bool.not_eq_true]
  simp only [List.find?_eq_some_iff_append, hf, hnot, IsFirst]

theorem selects_iff : q.selects l = true ↔ IsCandidate q l := by
  rw [Query.selects, Bool.and_eq_true, Option.any_eq_true, Option.all_eq_true, IsCandidate]
  simp only [beq_iff_eq]

theorem includesExactly_iff : includesExactly p l = true ↔ NamesPhase p l := by
  rw [includesExactly, Option.any_eq_true]
  simp only [Option.bind_eq_some_iff, beq_iff_eq, NamesPhase]
  constructor
  · rintro ⟨t, ⟨rule, hrule, ht⟩, hp⟩
    exact ⟨rule, t, hrule, ht, hp⟩
  · rintro ⟨rule, t, hrule, ht, hp⟩
    exact ⟨t, ⟨rule, hrule, ht⟩, hp⟩

theorem seek_eq (q : Query) (p : Phase) (kept : Option Node) (ls : List Node) :
    seek q p kept ls =
      (ls.find? fun l => q.selects l && (p = .none || includesExactly p l)).or
        (kept.or (ls.find? fun l => q.selects l && (l.findChild "include").isNone)) := by
  induction ls generalizing kept with
  | nil => simp [seek]
  | cons l ls ih =>
    rw [seek]
    by_cases hs : q.selects l = true
    · by_cases hp : (p = .none || includesExactly p l) = true
      · simp [hs, hp]
      · by_cases hi : (l.findChild "include").isNone = true
        · cases kept <;> simp [hs, hp, hi, ih]
        · simp [hs, hp, hi, ih]
    · simp [hs, ih]

theorem findLayer?_eq_some_iff {n : Node} :
    findLayer? q p n = some l ↔ IsConsulted q p (layers n) l := by
  have hplain (k : Node) : (q.selects k && (k.findChild "include").isNone) = true ↔
      IsCandidate q k ∧ k.findChild "include" = none := by
    rw [Bool.and_eq_true, selects_iff, Option.isNone_iff_eq_none]
  rw [findLayer?, seek_eq, Option.none_or, IsConsulted]
  by_cases hp : p = .none
  · have hfirst (k : Node) : (q.selects k && (p = .none || includesExactly p k)) = true ↔
        IsCandidate q k := by
      simp [hp, selects_iff]
    rw [if_pos hp, Option.or_eq_some_iff, find?_eq_some_iff_isFirst hfirst, List.find?_eq_none]
    refine or_iff_left ?_
    rintro ⟨hnone, hl⟩
    -- A layer without rules is a candidate too, and would have ended the pass.
    have hmem := List.mem_of_find?_eq_some hl
    have hcandidate := List.find?_some hl
    exact hnone l hmem ((hfirst l).mpr ((hplain l).mp hcandidate).1)
  · have hfirst (k : Node) : (q.selects k && (p = .none || includesExactly p k)) = true ↔
        IsCandidate q k ∧ NamesPhase p k := by
      simp [hp, selects_iff, includesExactly_iff]
    rw [if_neg hp, Option.or_eq_some_iff, find?_eq_some_iff_isFirst hfirst,
      find?_eq_some_iff_isFirst hplain, List.find?_eq_none]
    simp only [hfirst, not_and]

theorem isPlaceOfField_getD (block : Option String) (l : Node) :
    IsPlaceOfField block l (((block.filter fun b => !b.isEmpty).bind l.findChild).getD l) := by
  cases block with
  | none => exact .inr ⟨fun name hname => (nomatch hname), rfl⟩
  | some name =>
    by_cases hname : name = ""
    · subst hname
      refine .inr ⟨fun name hname hne => ?_, rfl⟩
      cases hname
      exact absurd rfl hne
    · have hfilter : (some name).filter (fun b => !b.isEmpty) = some name := by
        simp [Option.filter, hname]
      rw [hfilter, Option.bind_some]
      cases hb : l.findChild name with
      | some b => exact .inl ⟨name, rfl, hname, hb⟩
      | none =>
        refine .inr ⟨fun other hother _ => ?_, rfl⟩
        cases hother
        exact hb

end Pass

/-- A value is read from the layer that is consulted, and there is none where no layer is. Types and
phases that are not known are only compared, so that no reading fails. -/
theorem findParameter_consults (q : Query) (p : Phase) (block : Option String) (field : String)
    (n : Node) :
    (∀ l, IsConsulted q p (layers n) l → ∃ place, IsPlaceOfField block l place ∧
      findParameter q p block field n = place.findValue field) ∧
    ((∀ l, ¬ IsConsulted q p (layers n) l) → findParameter q p block field n = none) := by
  constructor
  · intro l hl
    refine ⟨_, isPlaceOfField_getD block l, ?_⟩
    rw [findParameter, findLayer?_eq_some_iff.mpr hl, Option.bind_some]
  · intro hnone
    have hfind : findLayer? q p n = none := by
      rw [Option.eq_none_iff_forall_ne_some]
      exact fun l hl => hnone l (findLayer?_eq_some_iff.mp hl)
    rw [findParameter, hfind, Option.bind_none]

def warps : Node :=
  .root [
    .block "layer" [.leaf "type" "Warp" .string, .leaf "top" "a" .string],
    .block "layer" [.leaf "type" "Warp" .string, .block "include" [.leaf "phase" "DREAM" .unknown],
      .leaf "top" "b" .string],
    .block "layer" [.leaf "type" "warp" .string, .block "include" [.leaf "phase" "Test" .unknown],
      .leaf "top" "c" .string]]

theorem findParameter_consults_warps :
    (∃ l place, IsConsulted ⟨"WARP", none⟩ .train (layers warps) l ∧
      IsPlaceOfField (some "warp_param") l place ∧ place.findValue "top" = some "a" ∧
      findParameter ⟨"WARP", none⟩ .train (some "warp_param") "top" warps = some "a") ∧
    findParameter ⟨"Warp", some "warp"⟩ .none none "top" warps = none := by
  constructor
  · have hl : IsConsulted ⟨"WARP", none⟩ .train (layers warps)
        (.block "layer" [.leaf "type" "Warp" .string, .leaf "top" "a" .string]) :=
      findLayer?_eq_some_iff.mp (by decide +kernel)
    obtain ⟨place, hplace, hvalue⟩ :=
      (findParameter_consults _ _ (some "warp_param") "top" warps).1 _ hl
    have htop : findParameter ⟨"WARP", none⟩ .train (some "warp_param") "top" warps = some "a" := by
      decide +kernel
    exact ⟨_, place, hl, hplace, hvalue.symm.trans htop, htop⟩
  · refine (findParameter_consults _ _ _ _ warps).2 fun l hl => ?_
    have hnone : findLayer? ⟨"Warp", some "warp"⟩ .none warps = none := by decide +kernel
    cases hnone.symm.trans (findLayer?_eq_some_iff.mpr hl)

example : findParameter ⟨"WARP", none⟩ .test (some "warp_param") "top" warps = some "c" := by
  decide +kernel

end NetDesc.Network
