import Mathlib.Data.List.Nodup
import Mathlib.Data.List.Perm.Subperm
import NetDesc.Layer.Basic

namespace NetDesc

theorem Slot.mem_every (s : Slot) : s ∈ Slot.every := by
  cases s <;> decide

theorem Slot.nodup_every : Slot.every.Nodup := by
  decide +kernel

section

variable {α β : Type} [BEq α] [LawfulBEq α]

theorem lookup_eq_none_of_notMem {xs : List (α × β)} {a : α}
    (h : a ∉ xs.map Prod.fst) : xs.lookup a = none := by
  rw [List.lookup_eq_none_iff]
  intro p hp
  rw [bne_iff_ne]
  rintro rfl
  exact h (List.mem_map_of_mem hp)

theorem lookup_of_mem {xs : List (α × β)} {a : α} {b : β} (hn : (xs.map Prod.fst).Nodup)
    (h : (a, b) ∈ xs) : xs.lookup a = some b := by
  induction xs with
  | nil => cases h
  | cons p xs ih =>
    obtain ⟨hp, hn⟩ := List.nodup_cons.mp hn
    rcases List.mem_cons.mp h with rfl | h
    · exact List.lookup_cons_self
    · have hne : (a == p.1) = false := beq_false_of_ne fun he => hp (he ▸ List.mem_map_of_mem h)
      rw [List.lookup_cons, hne]
      exact ih hn h

theorem isSome_lookup_iff {xs : List (α × β)} {a : α} :
    (xs.lookup a).isSome = true ↔ a ∈ xs.map Prod.fst := by
  constructor
  · intro h
    by_contra hn
    rw [lookup_eq_none_of_notMem hn] at h
    cases h
  · intro h
    obtain ⟨p, hp, rfl⟩ := List.mem_map.mp h
    by_contra hn
    rw [Bool.not_eq_true, Option.isSome_eq_false_iff, Option.isNone_iff_eq_none] at hn
    exact bne_iff_ne.mp (List.lookup_eq_none_iff.mp hn p hp) rfl

end

namespace Layer

/-- At most one record in a slot, in the order of the slots. -/
def IsArranged (params : List (Slot × Record)) : Prop :=
  (params.map Prod.fst).Sublist Slot.every

def arrangeIn (ts : List Slot) (record : Slot → Option Record) : List (Slot × Record) :=
  ts.filterMap fun t => (record t).map fun q => (t, q)

def arrange (record : Slot → Option Record) : List (Slot × Record) :=
  arrangeIn Slot.every record

section Arranging

variable (record : Slot → Option Record) {t : Slot} {ts : List Slot}

theorem arrangeIn_cons : arrangeIn (t :: ts) record =
    match record t with
    | some q => (t, q) :: arrangeIn ts record
    | none => arrangeIn ts record := by
  rw [arrangeIn, List.filterMap_cons]
  cases record t <;> rfl

theorem keys_arrangeIn (ts : List Slot) : ((arrangeIn ts record).map Prod.fst).Sublist ts := by
  induction ts with
  | nil => exact .slnil
  | cons t ts ih =>
    rw [arrangeIn_cons]
    cases record t with
    | none => exact ih.cons t
    | some q => exact ih.cons_cons t

theorem lookup_arrangeIn (hn : ts.Nodup) {s : Slot} (hs : s ∈ ts) :
    (arrangeIn ts record).lookup s = record s := by
  induction ts with
  | nil => cases hs
  | cons t ts ih =>
    obtain ⟨ht, hn⟩ := List.nodup_cons.mp hn
    rw [arrangeIn_cons]
    rcases List.mem_cons.mp hs with rfl | hs
    · cases record s with
      | none => exact lookup_eq_none_of_notMem fun hm => ht ((keys_arrangeIn record ts).subset hm)
      | some q => exact List.lookup_cons_self
    · cases record t with
      | none => exact ih hn hs
      | some q =>
        have hne : (s == t) = false := beq_false_of_ne fun he => ht (he ▸ hs)
        simp only [List.lookup_cons, hne]
        exact ih hn hs

theorem arrangeIn_congr {f g : Slot → Option Record} (h : ∀ t ∈ ts, f t = g t) :
    arrangeIn ts f = arrangeIn ts g :=
  List.filterMap_congr fun t ht => by rw [h t ht]

theorem arrangeIn_lookup {params : List (Slot × Record)} (hn : ts.Nodup)
    (h : (params.map Prod.fst).Sublist ts) :
    arrangeIn ts (fun t => params.lookup t) = params := by
  induction ts generalizing params with
  | nil =>
    rw [List.sublist_nil, List.map_eq_nil_iff] at h
    exact h ▸ rfl
  | cons t ts ih =>
    obtain ⟨ht, hts⟩ := List.nodup_cons.mp hn
    rw [arrangeIn_cons]
    rcases List.sublist_cons_iff.mp h with hr | ⟨keys, hk, hr⟩
    · rw [lookup_eq_none_of_notMem fun hm => ht (hr.subset hm)]
      exact ih hts hr
    · obtain ⟨⟨s, q⟩, rest, rfl, hs, rfl⟩ := List.map_eq_cons_iff.mp hk
      obtain rfl : s = t := hs
      have hrest : arrangeIn ts (fun u => ((s, q) :: rest).lookup u) =
          arrangeIn ts (fun u => rest.lookup u) := by
        refine arrangeIn_congr fun u hu => ?_
        have hne : (u == s) = false := beq_false_of_ne fun he => ht (he ▸ hu)
        rw [List.lookup_cons, hne]
      rw [hrest, ih hts hr, List.lookup_cons_self]

end Arranging

theorem isArranged_arrange (record : Slot → Option Record) : IsArranged (arrange record) :=
  keys_arrangeIn record Slot.every

theorem lookup_arrange (record : Slot → Option Record) (s : Slot) :
    (arrange record).lookup s = record s :=
  lookup_arrangeIn record Slot.nodup_every s.mem_every

theorem arrange_lookup {params : List (Slot × Record)} (h : IsArranged params) :
    arrange (fun t => params.lookup t) = params :=
  arrangeIn_lookup Slot.nodup_every h

theorem mem_of_lookup {params : List (Slot × Record)} {s : Slot} {r : Record}
    (h : params.lookup s = some r) : (s, r) ∈ params := by
  obtain ⟨before, after, rfl, -⟩ := List.lookup_eq_some_iff.mp h
  simp

theorem mem_putParam {params : List (Slot × Record)} {s : Slot} {r : Record} {p : Slot × Record}
    (h : p ∈ putParam params s r) : p = (s, r) ∨ p ∈ params := by
  obtain ⟨t, -, ht⟩ := List.mem_filterMap.mp h
  split at ht
  · next he =>
    cases ht
    exact .inl (he ▸ rfl)
  · obtain ⟨q, hq, rfl⟩ := Option.map_eq_some_iff.mp ht
    exact .inr (mem_of_lookup hq)

theorem putParam_eq_arrange (params : List (Slot × Record)) (s : Slot) (r : Record) :
    putParam params s r = arrange fun t => if t = s then some r else params.lookup t := by
  rw [putParam, arrange, arrangeIn]
  refine List.filterMap_congr fun t _ => ?_
  by_cases h : t = s
  · rw [if_pos h, if_pos h]
    rfl
  · rw [if_neg h, if_neg h]

theorem foldl_putParam {params added : List (Slot × Record)} (hp : IsArranged params)
    (ha : (added.map Prod.fst).Nodup) :
    added.foldl (fun ps p => putParam ps p.1 p.2) params =
      arrange fun t => (added.lookup t).or (params.lookup t) := by
  -- For any records that are there already, since each step fills one more slot.
  induction added generalizing params with
  | nil => exact (arrange_lookup hp).symm
  | cons p added ih =>
    obtain ⟨s, r⟩ := p
    obtain ⟨hs, ha⟩ := List.nodup_cons.mp ha
    rw [List.foldl_cons, putParam_eq_arrange, ih (isArranged_arrange _) ha]
    congr 1
    funext t
    rw [lookup_arrange]
    by_cases ht : t = s
    · subst ht
      rw [if_pos rfl, lookup_eq_none_of_notMem hs, List.lookup_cons_self]
      rfl
    · rw [if_neg ht, List.lookup_cons, beq_false_of_ne ht]

theorem foldl_putParam_eq {params added : List (Slot × Record)} (hp : IsArranged params)
    (ha : IsArranged added) (hsub : params.map Prod.fst ⊆ added.map Prod.fst) :
    added.foldl (fun ps p => putParam ps p.1 p.2) params = added := by
  have hor (t : Slot) : (added.lookup t).or (params.lookup t) = added.lookup t := by
    by_cases ht : t ∈ params.map Prod.fst
    · exact Option.or_of_isSome (isSome_lookup_iff.mpr (hsub ht))
    · rw [lookup_eq_none_of_notMem ht, Option.or_none]
  rw [foldl_putParam hp (Slot.nodup_every.sublist ha)]
  simp only [hor]
  exact arrange_lookup ha

section Limits

variable {limits : List (Phase × Int)} {p q : Phase} {n : Int}

theorem putLimit_of_mem (h : p ∈ limits.map Prod.fst) :
    putLimit limits p n = limits.map fun l => if l.1 = p then (p, n) else l := by
  obtain ⟨l, hl, rfl⟩ := List.mem_map.mp h
  exact if_pos (List.any_eq_true.mpr ⟨l, hl, beq_self_eq_true l.1⟩)

theorem putLimit_of_notMem (h : p ∉ limits.map Prod.fst) :
    putLimit limits p n = limits ++ [(p, n)] := by
  refine if_neg fun ha => ?_
  obtain ⟨l, hl, he⟩ := List.any_eq_true.mp ha
  exact h (List.mem_map.mpr ⟨l, hl, eq_of_beq he⟩)

theorem keys_putLimit_of_mem (h : p ∈ limits.map Prod.fst) :
    (putLimit limits p n).map Prod.fst = limits.map Prod.fst := by
  rw [putLimit_of_mem h, List.map_map]
  refine List.map_congr_left fun l _ => ?_
  rw [Function.comp_apply]
  split
  · next he => exact he.symm
  · rfl

theorem lookup_putLimit_self : (putLimit limits p n).lookup p = some n := by
  by_cases h : p ∈ limits.map Prod.fst
  · rw [putLimit_of_mem h]
    induction limits with
    | nil => cases h
    | cons l limits ih =>
      by_cases hl : l.1 = p
      · simp [hl]
      · have hm : p ∈ limits.map Prod.fst := by
          rw [List.map_cons, List.mem_cons] at h
          exact h.resolve_left (Ne.symm hl)
        rw [List.map_cons, if_neg hl, List.lookup_cons, beq_false_of_ne (Ne.symm hl)]
        exact ih hm
  · rw [putLimit_of_notMem h, List.lookup_append, lookup_eq_none_of_notMem h]
    simp

theorem lookup_putLimit_of_ne (hq : q ≠ p) : (putLimit limits p n).lookup q = limits.lookup q := by
  by_cases h : p ∈ limits.map Prod.fst
  · rw [putLimit_of_mem h]
    clear h
    induction limits with
    | nil => rfl
    | cons l limits ih =>
      by_cases hl : l.1 = p
      · rw [List.map_cons, if_pos hl, List.lookup_cons, List.lookup_cons, hl, ih]
        simp only [beq_false_of_ne hq]
      · rw [List.map_cons, if_neg hl, List.lookup_cons, List.lookup_cons, ih]
  · rw [putLimit_of_notMem h, List.lookup_append]
    simp [List.lookup_cons, beq_false_of_ne hq]

theorem nodup_putLimit (h : (limits.map Prod.fst).Nodup) :
    ((putLimit limits p n).map Prod.fst).Nodup := by
  by_cases hp : p ∈ limits.map Prod.fst
  · rwa [keys_putLimit_of_mem hp]
  · rw [putLimit_of_notMem hp, List.map_append]
    exact h.append (List.nodup_singleton p) (List.disjoint_singleton.mpr hp)

theorem foldl_putLimit_append {added : List (Phase × Int)}
    (h : ((limits ++ added).map Prod.fst).Nodup) :
    added.foldl (fun ls l => putLimit ls l.1 l.2) limits = limits ++ added := by
  induction added generalizing limits with
  | nil => exact (List.append_nil limits).symm
  | cons l added ih =>
    have hl : l.1 ∉ limits.map Prod.fst := by
      rw [List.map_append, List.map_cons] at h
      exact fun hm => List.disjoint_of_nodup_append h hm (List.mem_cons_self ..)
    rw [List.foldl_cons, putLimit_of_notMem hl, ih (by simpa using h), List.append_assoc]
    rfl

theorem foldl_putLimit_nil (h : (limits.map Prod.fst).Nodup) :
    limits.foldl (fun ls l => putLimit ls l.1 l.2) [] = limits := by
  rw [← List.nil_append limits] at h
  exact foldl_putLimit_append h

theorem keys_prefix_putLimit : limits.map Prod.fst <+: (putLimit limits p n).map Prod.fst := by
  by_cases hp : p ∈ limits.map Prod.fst
  · exact ⟨[], by rw [List.append_nil, keys_putLimit_of_mem hp]⟩
  · rw [putLimit_of_notMem hp, List.map_append]
    exact List.prefix_append _ _

theorem mem_putLimit {l : Phase × Int} (h : l ∈ putLimit limits p n) : l = (p, n) ∨ l ∈ limits := by
  by_cases hp : p ∈ limits.map Prod.fst
  · rw [putLimit_of_mem hp] at h
    obtain ⟨k, hk, rfl⟩ := List.mem_map.mp h
    split
    · exact .inl rfl
    · exact .inr hk
  · rw [putLimit_of_notMem hp, List.mem_append, List.mem_singleton] at h
    exact h.symm

theorem putLimit_cons_of_ne {l : Phase × Int} (h : l.1 ≠ p) :
    putLimit (l :: limits) p n = l :: putLimit limits p n := by
  by_cases hp : p ∈ limits.map Prod.fst
  · rw [putLimit_of_mem (List.mem_cons_of_mem _ hp), putLimit_of_mem hp, List.map_cons, if_neg h]
  · have hl : p ∉ (l :: limits).map Prod.fst := by
      rw [List.map_cons, List.mem_cons, not_or]
      exact ⟨Ne.symm h, hp⟩
    rw [putLimit_of_notMem hl, putLimit_of_notMem hp, List.cons_append]

theorem putLimit_cons_self {l : Phase × Int} (hl : l.1 = p) (h : p ∉ limits.map Prod.fst) :
    putLimit (l :: limits) p n = (p, n) :: limits := by
  have hrest : (limits.map fun m => if m.1 = p then (p, n) else m) = limits := by
    refine (List.map_congr_left fun m hm => ?_).trans (List.map_id limits)
    refine if_neg fun he => h ?_
    rw [← he]
    exact List.mem_map_of_mem hm
  have hmem : p ∈ (l :: limits).map Prod.fst := hl ▸ List.mem_cons_self ..
  rw [putLimit_of_mem hmem, List.map_cons, if_pos hl, hrest]

theorem foldl_putLimit_cons {l : Phase × Int} {added : List (Phase × Int)}
    (h : l.1 ∉ added.map Prod.fst) :
    added.foldl (fun ls l => putLimit ls l.1 l.2) (l :: limits) =
      l :: added.foldl (fun ls l => putLimit ls l.1 l.2) limits := by
  induction added generalizing limits with
  | nil => rfl
  | cons k added ih =>
    rw [List.map_cons, List.mem_cons, not_or] at h
    rw [List.foldl_cons, List.foldl_cons, putLimit_cons_of_ne h.1, ih h.2]

theorem foldl_putLimit_of_starts {added : List (Phase × Int)} (ha : (added.map Prod.fst).Nodup)
    (hp : limits.map Prod.fst <+: added.map Prod.fst) :
    added.foldl (fun ls l => putLimit ls l.1 l.2) limits = added := by
  induction added generalizing limits with
  | nil =>
    rw [List.map_nil, List.prefix_nil, List.map_eq_nil_iff] at hp
    exact hp
  | cons l added ih =>
    cases limits with
    | nil => exact foldl_putLimit_nil ha
    | cons k limits =>
      obtain ⟨hk, hp⟩ := List.cons_prefix_cons.mp hp
      obtain ⟨hl, ha⟩ := List.nodup_cons.mp ha
      have hfirst : putLimit (k :: limits) l.1 l.2 = l :: limits :=
        putLimit_cons_self hk fun hm => hl (hp.subset hm)
      rw [List.foldl_cons, hfirst, foldl_putLimit_cons hl, ih ha hp]

theorem nodup_foldl_putLimit (added : List (Phase × Int)) (h : (limits.map Prod.fst).Nodup) :
    ((added.foldl (fun ls l => putLimit ls l.1 l.2) limits).map Prod.fst).Nodup := by
  induction added generalizing limits with
  | nil => exact h
  | cons l added ih => exact ih (nodup_putLimit h)

theorem lookup_foldl_putLimit {added : List (Phase × Int)} (h : (added.map Prod.fst).Nodup) :
    (added.foldl (fun ls l => putLimit ls l.1 l.2) limits).lookup q =
      (added.lookup q).or (limits.lookup q) := by
  induction added generalizing limits with
  | nil => rfl
  | cons l added ih =>
    obtain ⟨hl, h⟩ := List.nodup_cons.mp h
    rw [List.foldl_cons, ih h]
    by_cases hq : q = l.1
    · subst hq
      rw [lookup_eq_none_of_notMem hl, lookup_putLimit_self, List.lookup_cons_self]
      rfl
    · rw [lookup_putLimit_of_ne hq, List.lookup_cons, beq_false_of_ne hq]

theorem sameLimits_foldl_putLimit {added : List (Phase × Int)} (hl : (limits.map Prod.fst).Nodup)
    (ha : (added.map Prod.fst).Nodup) (hsub : limits.map Prod.fst ⊆ added.map Prod.fst) :
    sameLimits added (added.foldl (fun ls l => putLimit ls l.1 l.2) limits) = true := by
  have hlookup (q : Phase) : (added.foldl (fun ls l => putLimit ls l.1 l.2) limits).lookup q =
      added.lookup q := by
    rw [lookup_foldl_putLimit ha]
    by_cases hq : q ∈ limits.map Prod.fst
    · exact Option.or_of_isSome (isSome_lookup_iff.mpr (hsub hq))
    · rw [lookup_eq_none_of_notMem hq, Option.or_none]
  -- Both have the same phases, though a phase that is set again keeps its place.
  have hperm := (List.perm_ext_iff_of_nodup ha (nodup_foldl_putLimit added hl)).mpr fun q => by
    rw [← isSome_lookup_iff, ← isSome_lookup_iff, hlookup]
  have hlength := hperm.length_eq
  rw [List.length_map, List.length_map] at hlength
  rw [sameLimits, hlength, beq_self_eq_true, Bool.true_and, List.all_eq_true]
  rintro ⟨p, n⟩ hm
  simp only [hlookup, lookup_of_mem ha hm, beq_self_eq_true]

end Limits

end Layer

end NetDesc
