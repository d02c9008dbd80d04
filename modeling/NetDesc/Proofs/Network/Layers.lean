import NetDesc.Network.Layers
import NetDesc.Proofs.Layer.Kind
import NetDesc.Proofs.Outcome
import NetDesc.Proofs.Tree.Edit
import NetDesc.Proofs.Tree.Scalars

namespace NetDesc.Network

open Node

def Trains (l : Node) : Prop :=
  ∃ t, traits l = .ok t ∧ (∀ p ∈ t.included, p = .train ∨ p = .test) ∧
    .train ∉ t.excluded ∧ .test ∉ t.excluded

def Feeds (p : Phase) (l : Node) : Prop :=
  ∃ t, traits l = .ok t ∧ (t.kind = .data ∨ t.kind = .batchData ∨ t.kind = .tripletData) ∧
    p ∈ t.included

instance (l : Node) : Decidable (Trains l) :=
  inferInstanceAs (Decidable (∃ t, traits l = .ok t ∧ (∀ p ∈ t.included, p = .train ∨ p = .test) ∧
    .train ∉ t.excluded ∧ .test ∉ t.excluded))

instance (p : Phase) (l : Node) : Decidable (Feeds p l) :=
  inferInstanceAs (Decidable (∃ t, traits l = .ok t ∧
    (t.kind = .data ∨ t.kind = .batchData ∨ t.kind = .tripletData) ∧ p ∈ t.included))

def HasSoftmax (n : Node) : Prop :=
  ∃ l ∈ layers n, LayerKind.ofNode l = .ok .softmax

instance (n : Node) : Decidable (HasSoftmax n) :=
  decidable_of_iff (∃ l ∈ layers n, (LayerKind.ofNode l).toOption = some .softmax) (by
    simp only [toOption_eq_some, HasSoftmax])

theorem Traits.trains_iff {t : Traits} :
    t.trains = true ↔ (∀ p ∈ t.included, p = .train ∨ p = .test) ∧
      .train ∉ t.excluded ∧ .test ∉ t.excluded := by
  simp only [Traits.trains, Bool.and_eq_true, List.all_eq_true, Bool.or_eq_true, decide_eq_true_eq,
    Bool.not_eq_true', List.any_eq_false, not_or]
  refine and_congr_right fun _ => ⟨fun h => ⟨fun hp => (h _ hp).1 rfl, fun hp => (h _ hp).2 rfl⟩,
    fun h p hp => ⟨?_, ?_⟩⟩
  · rintro rfl
    exact h.1 hp
  · rintro rfl
    exact h.2 hp

theorem trains_of_traits {l : Node} {t : Traits} (h : traits l = .ok t) (ht : t.trains = true) :
    Trains l :=
  ⟨t, h, Traits.trains_iff.mp ht⟩

theorem trains_iff_of_traits {l : Node} {t : Traits} (h : traits l = .ok t) :
    Trains l ↔ t.trains = true := by
  refine ⟨?_, trains_of_traits h⟩
  rintro ⟨u, hu, hut⟩
  rw [h] at hu
  cases hu
  exact Traits.trains_iff.mpr hut

theorem Traits.feeds_iff {t : Traits} {p : Phase} :
    t.feeds p = true ↔ (t.kind = .data ∨ t.kind = .batchData ∨ t.kind = .tripletData) ∧
      p ∈ t.included := by
  rw [Traits.feeds, Bool.and_eq_true, List.contains_iff_mem, LayerKind.isData_iff]

theorem feeds_of_traits {l : Node} {t : Traits} {p : Phase} (h : traits l = .ok t)
    (ht : t.feeds p = true) : Feeds p l :=
  ⟨t, h, Traits.feeds_iff.mp ht⟩

theorem feeds_iff_of_traits {l : Node} {t : Traits} {p : Phase} (h : traits l = .ok t) :
    Feeds p l ↔ t.feeds p = true := by
  refine ⟨?_, feeds_of_traits h⟩
  rintro ⟨u, hu, hf⟩
  rw [h] at hu
  cases hu
  exact Traits.feeds_iff.mpr hf

theorem rulePhases_append {as bs : List Node} {ps qs : List Phase} (ha : rulePhases as = .ok ps)
    (hb : rulePhases bs = .ok qs) :
    ∃ rs, rulePhases (as ++ bs) = .ok rs ∧ ∀ p, p ∈ rs ↔ p ∈ ps ∨ p ∈ qs := by
  obtain ⟨xs, hx, hp⟩ := bind_eq_ok.mp ha
  obtain ⟨ys, hy, hq⟩ := bind_eq_ok.mp hb
  cases hp
  cases hq
  have hxy : ((as ++ bs).filterMap fun r => r.findValue "phase").mapM parsePhase =
      .ok (xs ++ ys) := by
    rw [mapM_eq_ok] at hx hy ⊢
    rw [List.filterMap_append, List.map_append, List.map_append, hx, hy]
  refine ⟨_, bind_eq_ok.mpr ⟨_, hxy, rfl⟩, fun p => ?_⟩
  simp only [List.mem_filter, List.any_append, Bool.or_eq_true]
  exact and_or_left

theorem ofNode_of_traits {l : Node} {t : Traits} (h : traits l = .ok t) :
    LayerKind.ofNode l = .ok t.kind := by
  obtain ⟨kind, hk, h⟩ := bind_eq_ok.mp h
  obtain ⟨included, -, h⟩ := bind_eq_ok.mp h
  obtain ⟨excluded, -, h⟩ := bind_eq_ok.mp h
  cases h
  exact hk

theorem layerKey_eq (n : Node) :
    layerKey n = "layer" ∨ (layerKey n = "layers" ∧ n.findChild "layer" = none) := by
  unfold layerKey
  split
  · next h =>
    simp only [Bool.and_eq_true, Option.isNone_iff_eq_none] at h
    exact .inr ⟨rfl, h.1⟩
  · exact .inl rfl

theorem layerKey_of_findChildren {r : Node} {key : String} (hr : r.findChildren key ≠ [])
    (hk : key = "layer" ∨ (key = "layers" ∧ r.findChild "layer" = none)) : layerKey r = key := by
  have hs : (r.findChild key).isSome = true := by
    obtain ⟨l, hl⟩ := List.exists_mem_of_ne_nil _ hr
    obtain ⟨hl, hn⟩ := List.mem_filter.mp hl
    rw [findChild, List.find?_isSome]
    exact ⟨l, hl, hn⟩
  unfold layerKey
  rcases hk with rfl | ⟨rfl, hnone⟩
  · simp [Option.isNone_eq_false_iff.mpr hs]
  · simp [hnone, hs]

theorem scan_eq_ok {ls : List Node} {scanned : List (Traits × Node)}
    (h : (ls.mapM fun l => do return (← traits l, l)) = .ok scanned) :
    scanned.map Prod.snd = ls ∧ ∀ s ∈ scanned, traits s.2 = .ok s.1 := by
  refine map_eq_of_mapM ?_ h
  intro l s hs
  obtain ⟨t, ht, he⟩ := bind_eq_ok.mp hs
  cases he
  exact ⟨rfl, ht⟩

theorem filter_replaceLayers {key : String} {cs : List Node} {new : List (Option Node)}
    (hn : ∀ o ∈ new, ∀ l ∈ o, l.name = key)
    (hl : (cs.filter fun c => c.name == key).length = new.length) :
    (replaceLayers key cs new).filter (fun c => c.name == key) = new.filterMap id := by
  induction cs generalizing new with
  | nil =>
    obtain rfl := List.length_eq_zero_iff.mp hl.symm
    rfl
  | cons c cs ih =>
    by_cases hc : c.name = key
    · cases new with
      | nil => simp [hc] at hl
      | cons o new =>
        have hi := @ih new (fun p hp => hn p (by simp [hp])) (by simpa [hc] using hl)
        cases o with
        | none => simpa [replaceLayers, hc] using hi
        | some l =>
          have hk := hn (some l) (by simp) l rfl
          simpa [replaceLayers, hc, hk] using hi
    · have hi := ih hn (by simpa [hc] using hl)
      simpa [replaceLayers, hc] using hi

theorem filter_not_replaceLayers {key : String} {cs : List Node} {new : List (Option Node)}
    (hn : ∀ o ∈ new, ∀ l ∈ o, l.name = key) :
    (replaceLayers key cs new).filter (fun c => c.name != key) =
      cs.filter fun c => c.name != key := by
  induction cs generalizing new with
  | nil => rfl
  | cons c cs ih =>
    by_cases hc : c.name = key
    · cases new with
      | nil => simpa [replaceLayers, hc] using @ih [] (by simp)
      | cons o new =>
        have hi := @ih new fun p hp => hn p (by simp [hp])
        cases o with
        | none => simpa [replaceLayers, hc] using hi
        | some l =>
          have hk := hn (some l) (by simp) l rfl
          simpa [replaceLayers, hc, hk] using hi
    · simpa [replaceLayers, hc] using ih hn

theorem mem_replaceLayers {key : String} {cs : List Node} {new : List (Option Node)} {l : Node}
    (hl : l ∈ replaceLayers key cs new) : some l ∈ new ∨ (l ∈ cs ∧ l.name ≠ key) := by
  induction cs generalizing new with
  | nil => cases hl
  | cons c cs ih =>
    unfold replaceLayers at hl
    split at hl
    · cases new with
      | nil => exact (ih hl).imp_right fun h => ⟨List.mem_cons_of_mem c h.1, h.2⟩
      | cons o new =>
        rcases List.mem_append.mp hl with hl | hl
        · exact .inl (List.mem_cons.mpr (.inl (Option.mem_toList.mp hl).symm))
        · exact (ih hl).imp (List.mem_cons_of_mem o) fun h => ⟨List.mem_cons_of_mem c h.1, h.2⟩
    · next hc =>
      rcases List.mem_cons.mp hl with rfl | hl
      · exact .inr ⟨List.mem_cons_self .., hc⟩
      · exact (ih hl).imp_right fun h => ⟨List.mem_cons_of_mem c h.1, h.2⟩

theorem mem_findChildren_withLayers {n l : Node} {new : List (Option Node)}
    (hl : l ∈ (withLayers n new).findChildren (layerKey n)) : some l ∈ new := by
  obtain ⟨hl, hname⟩ := List.mem_filter.mp hl
  exact (mem_replaceLayers hl).resolve_right fun h => h.2 (LawfulBEq.eq_of_beq hname)

theorem findChildren_withLayers_of_ne {n : Node} {new : List (Option Node)} {key : String}
    (hn : ∀ o ∈ new, ∀ l ∈ o, l.name = layerKey n) (hk : key ≠ layerKey n) :
    (withLayers n new).findChildren key = n.findChildren key := by
  rw [findChildren, findChildren, withLayers, filter_name_of_ne hk, filter_not_replaceLayers hn,
    ← filter_name_of_ne hk]

theorem replaceLayers_self (key : String) (cs : List Node) :
    replaceLayers key cs ((cs.filter fun c => c.name == key).map some) = cs := by
  induction cs with
  | nil => rfl
  | cons c cs ih =>
    by_cases hc : c.name = key
    · simp [replaceLayers, hc, ih]
    · simp [replaceLayers, hc, ih]

theorem replaceLayers_filter (key : String) (p : Node → Bool) (cs : List Node) :
    replaceLayers key cs
        ((cs.filter fun c => c.name == key).map fun l => if p l then some l else none) =
      cs.filter fun c => c.name != key || p c := by
  induction cs with
  | nil => rfl
  | cons c cs ih =>
    by_cases hc : c.name = key
    · by_cases hp : p c = true
      · simp [replaceLayers, hc, hp, ih]
      · simp [replaceLayers, hc, hp, ih]
    · simp [replaceLayers, hc, ih]

theorem withLayers_self (n : Node) : withLayers n ((layers n).map some) = n := by
  rw [withLayers, layers, findChildren, replaceLayers_self]
  cases n
  rfl

theorem name_of_mem_layers {n l : Node} (hl : l ∈ layers n) : l.name = layerKey n :=
  LawfulBEq.eq_of_beq (List.mem_filter.mp hl).2

theorem forall_successor {key : String} {ls : List Node} (hn : ∀ l ∈ ls, l.name = key) :
    ∀ o ∈ ls.map some, ∀ l ∈ o, l.name = key := by
  intro o ho l hlo
  obtain ⟨m, hm, rfl⟩ := List.mem_map.mp ho
  cases hlo
  exact hn l hm

theorem findChildren_withLayers {n : Node} {ls : List Node} (hn : ∀ l ∈ ls, l.name = layerKey n)
    (hl : ls.length = (layers n).length) :
    (withLayers n (ls.map some)).findChildren (layerKey n) = ls := by
  rw [findChildren, withLayers, filter_replaceLayers (forall_successor hn)]
  · simp [List.filterMap_map]
  · rw [List.length_map, hl, layers, findChildren]

theorem layerKey_withLayers {n : Node} {ls : List Node} (hn : ∀ l ∈ ls, l.name = layerKey n)
    (hl : ls.length = (layers n).length) : layerKey (withLayers n (ls.map some)) = layerKey n := by
  have hnew : ∀ o ∈ ls.map some, ∀ l ∈ o, l.name = layerKey n := forall_successor hn
  by_cases hnil : ls = []
  · have hnone : layers n = [] := List.length_eq_zero_iff.mp (by rw [← hl, hnil, List.length_nil])
    have hself := withLayers_self n
    rw [hnone] at hself
    rw [hnil, hself]
  · refine layerKey_of_findChildren ?_ ((layerKey_eq n).imp_right ?_)
    · rwa [findChildren_withLayers hn hl]
    rintro ⟨hk, hnone⟩
    refine ⟨hk, ?_⟩
    rw [findChild_eq_none_iff] at hnone ⊢
    intro c hc hname
    have hother : c ∈ (withLayers n (ls.map some)).children.filter fun c => c.name != layerKey n :=
      List.mem_filter.mpr ⟨hc, by simp [hname, hk]⟩
    rw [withLayers, filter_not_replaceLayers hnew] at hother
    exact hnone c (List.mem_filter.mp hother).1 hname

theorem layers_withLayers {n : Node} {ls : List Node} (hn : ∀ l ∈ ls, l.name = layerKey n)
    (hl : ls.length = (layers n).length) : layers (withLayers n (ls.map some)) = ls := by
  rw [layers, layerKey_withLayers hn hl, findChildren_withLayers hn hl]

theorem replaceLayers_replaceLayers {key : String} {cs ls : List Node} (new : List (Option Node))
    (hn : ∀ l ∈ ls, l.name = key) (hl : (cs.filter fun c => c.name == key).length = ls.length) :
    replaceLayers key (replaceLayers key cs (ls.map some)) new = replaceLayers key cs new := by
  induction cs generalizing ls new with
  | nil => rfl
  | cons c cs ih =>
    by_cases hc : c.name = key
    · cases ls with
      | nil => simp [hc] at hl
      | cons l ls =>
        have hi := fun new => @ih ls new (fun m hm => hn m (by simp [hm])) (by simpa [hc] using hl)
        have hk := hn l (by simp)
        cases new <;> simp [replaceLayers, hc, hk, hi]
    · have hi := ih new hn (by simpa [hc] using hl)
      simpa [replaceLayers, hc] using hi

theorem withLayers_withLayers {n : Node} {ls : List Node} (new : List (Option Node))
    (hn : ∀ l ∈ ls, l.name = layerKey n) (hl : ls.length = (layers n).length) :
    withLayers (withLayers n (ls.map some)) new = withLayers n new := by
  rw [withLayers, layerKey_withLayers hn hl]
  simp only [withLayers]
  rw [replaceLayers_replaceLayers new hn hl.symm]

theorem mem_modifyLast {α : Type} {p : α → Bool} {f : α → α} {x : α} {xs : List α}
    (hx : x ∈ modifyLast p f xs) : x ∈ xs ∨ ∃ y, xs.reverse.find? p = some y ∧ x = f y := by
  simpa only [List.mem_reverse] using mem_modifyFirst (List.mem_reverse.mp hx)

theorem modifyLast_map {α β : Type} {g : α → β} {p : α → Bool} {q : β → Bool} {f : α → α}
    {f' : β → β} (hp : ∀ x, q (g x) = p x) (hf : ∀ x, p x = true → f' (g x) = g (f x)) (xs : List α) :
    modifyLast q f' (xs.map g) = (modifyLast p f xs).map g := by
  rw [modifyLast, modifyLast, ← List.map_reverse, modifyFirst_map hp hf, List.map_reverse]

theorem findSome?_of_find? {α β : Type} {f : α → Option β} {xs : List α} {y : α}
    (h : xs.find? (fun x => (f x).isSome) = some y) : xs.findSome? f = f y := by
  induction xs with
  | nil => cases h
  | cons x xs ih =>
    rw [List.find?_cons] at h
    rw [List.findSome?_cons]
    cases hx : f x with
    | some b =>
      rw [hx] at h
      cases h
      exact hx.symm
    | none =>
      rw [hx] at h
      exact ih h

theorem length_modifyLast {α : Type} {p : α → Bool} {f : α → α} (xs : List α) :
    (modifyLast p f xs).length = xs.length := by
  rw [modifyLast, List.length_reverse, length_modifyFirst, List.length_reverse]

theorem modifyLast_append {α : Type} {p : α → Bool} {f : α → α} {xs : List α} {x : α}
    {ys : List α} (hx : p x = true) (hys : ∀ z ∈ ys, p z = false) :
    modifyLast p f (xs ++ x :: ys) = xs ++ f x :: ys := by
  have he : (xs ++ x :: ys).reverse = ys.reverse ++ x :: xs.reverse := by simp
  rw [modifyLast, he, modifyFirst_append hx fun z hz => hys z (List.mem_reverse.mp hz)]
  simp

theorem modifyLast_eq_self {α : Type} {p : α → Bool} {f : α → α} {xs : List α}
    (hxs : ∀ z ∈ xs, p z = false) : modifyLast p f xs = xs := by
  rw [modifyLast, modifyFirst_eq_self fun z hz => hxs z (List.mem_reverse.mp hz),
    List.reverse_reverse]

theorem modifyLast_around {α : Type} {p : α → Bool} {f : α → α} {y : α} (hy : p y = false)
    (xs zs : List α) :
    ∃ xs' zs', modifyLast p f (xs ++ y :: zs) = xs' ++ y :: zs' ∧ xs'.length = xs.length := by
  obtain ⟨zs', xs', he, -, hl⟩ := modifyFirst_around (f := f) hy zs.reverse xs.reverse
  refine ⟨xs'.reverse, zs'.reverse, ?_, by simpa using hl⟩
  have hsplit : (xs ++ y :: zs).reverse = zs.reverse ++ y :: xs.reverse := by simp
  rw [modifyLast, hsplit, he]
  simp

theorem exists_last {α : Type} {p : α → Bool} {xs : List α} (h : ∃ x ∈ xs, p x = true) :
    ∃ pre x post, xs = pre ++ x :: post ∧ p x = true ∧ ∀ z ∈ post, p z = false := by
  induction xs with
  | nil =>
    obtain ⟨x, hx, -⟩ := h
    cases hx
  | cons y ys ih =>
    by_cases hy : ∃ x ∈ ys, p x = true
    · obtain ⟨pre, x, post, rfl, hx, hp⟩ := ih hy
      exact ⟨y :: pre, x, post, rfl, hx, hp⟩
    · have hn : ∀ z ∈ ys, p z = false := by
        intro z hz
        rw [Bool.eq_false_iff]
        exact fun ht => hy ⟨z, hz, ht⟩
      obtain ⟨x, hx, ht⟩ := h
      rcases List.mem_cons.mp hx with rfl | hx
      · exact ⟨[], x, ys, rfl, ht, hn⟩
      · exact absurd ⟨x, hx, ht⟩ hy

end NetDesc.Network
