import NetDesc.Tree.Edit

namespace NetDesc

theorem modifyFirst_append {α : Type} {p : α → Bool} {f : α → α} {xs : List α} {x : α}
    {ys : List α} (hx : p x = true) (hxs : ∀ z ∈ xs, p z = false) :
    modifyFirst p f (xs ++ x :: ys) = xs ++ f x :: ys := by
  induction xs with
  | nil => simp [modifyFirst, hx]
  | cons z xs ih =>
    have hz := hxs z (by simp)
    simp [modifyFirst, hz, ih fun w hw => hxs w (by simp [hw])]

theorem modifyFirst_eq_self {α : Type} {p : α → Bool} {f : α → α} {xs : List α}
    (hxs : ∀ z ∈ xs, p z = false) : modifyFirst p f xs = xs := by
  induction xs with
  | nil => rfl
  | cons z xs ih =>
    have hz := hxs z (by simp)
    simp [modifyFirst, hz, ih fun w hw => hxs w (by simp [hw])]

theorem filter_modifyFirst {α : Type} {p q : α → Bool} {f : α → α}
    (h : ∀ x, p x = true → q x = false ∧ q (f x) = false) (xs : List α) :
    (modifyFirst p f xs).filter q = xs.filter q := by
  induction xs with
  | nil => rfl
  | cons x xs ih =>
    by_cases hx : p x = true
    · simp [modifyFirst, hx, h x hx]
    · simp [modifyFirst, hx, List.filter_cons, ih]

theorem filter_modifyFirst_self {α : Type} {p : α → Bool} {f : α → α}
    (h : ∀ x, p x = true → p (f x) = true) (xs : List α) :
    (modifyFirst p f xs).filter p = modifyFirst p f (xs.filter p) := by
  induction xs with
  | nil => rfl
  | cons x xs ih =>
    by_cases hx : p x = true
    · simp [modifyFirst, hx, h x hx]
    · simp [modifyFirst, hx, ih]

theorem find?_modifyFirst {α : Type} {p : α → Bool} {f : α → α}
    (h : ∀ x, p x = true → p (f x) = true) (xs : List α) :
    (modifyFirst p f xs).find? p = (xs.find? p).map f := by
  induction xs with
  | nil => rfl
  | cons x xs ih =>
    by_cases hx : p x = true
    · simp [modifyFirst, hx, h x hx]
    · simp [modifyFirst, hx, ih]

theorem mem_modifyFirst {α : Type} {p : α → Bool} {f : α → α} {x : α} {xs : List α}
    (hx : x ∈ modifyFirst p f xs) : x ∈ xs ∨ ∃ y, xs.find? p = some y ∧ x = f y := by
  induction xs with
  | nil => cases hx
  | cons y ys ih =>
    by_cases hy : p y = true
    · rw [modifyFirst, if_pos hy] at hx
      rcases List.mem_cons.mp hx with rfl | hx
      · exact .inr ⟨y, List.find?_cons_of_pos hy, rfl⟩
      · exact .inl (List.mem_cons_of_mem y hx)
    · rw [modifyFirst, if_neg hy] at hx
      rw [List.find?_cons_of_neg hy]
      rcases List.mem_cons.mp hx with rfl | hx
      · exact .inl (List.mem_cons_self ..)
      · exact (ih hx).imp_left (List.mem_cons_of_mem y)

theorem length_modifyFirst {α : Type} {p : α → Bool} {f : α → α} (xs : List α) :
    (modifyFirst p f xs).length = xs.length := by
  induction xs with
  | nil => rfl
  | cons y ys ih =>
    rw [modifyFirst]
    split
    · rfl
    · rw [List.length_cons, List.length_cons, ih]

theorem modifyFirst_modifyFirst {α : Type} {p : α → Bool} {f g : α → α}
    (h : ∀ x, p x = true → p (g x) = true) (xs : List α) :
    modifyFirst p f (modifyFirst p g xs) = modifyFirst p (f ∘ g) xs := by
  induction xs with
  | nil => rfl
  | cons x xs ih =>
    by_cases hx : p x = true
    · simp [modifyFirst, hx, h x hx]
    · simp [modifyFirst, hx, ih]

theorem modifyFirst_congr {α : Type} {p : α → Bool} {f g : α → α} {xs : List α}
    (h : ∀ x, xs.find? p = some x → f x = g x) : modifyFirst p f xs = modifyFirst p g xs := by
  induction xs with
  | nil => rfl
  | cons x xs ih =>
    by_cases hx : p x = true
    · rw [modifyFirst, modifyFirst, if_pos hx, if_pos hx, h x (List.find?_cons_of_pos hx)]
    · rw [List.find?_cons_of_neg hx] at h
      rw [modifyFirst, modifyFirst, if_neg hx, if_neg hx, ih h]

theorem modifyFirst_fixed {α : Type} {p : α → Bool} {f : α → α} {xs : List α}
    (h : ∀ x, xs.find? p = some x → f x = x) : modifyFirst p f xs = xs := by
  induction xs with
  | nil => rfl
  | cons x xs ih =>
    by_cases hx : p x = true
    · rw [modifyFirst, if_pos hx, h x (List.find?_cons_of_pos hx)]
    · rw [List.find?_cons_of_neg hx] at h
      rw [modifyFirst, if_neg hx, ih h]

theorem modifyFirst_around {α : Type} {p : α → Bool} {f : α → α} {y : α} (hy : p y = false)
    (xs zs : List α) :
    ∃ xs' zs', modifyFirst p f (xs ++ y :: zs) = xs' ++ y :: zs' ∧ xs'.length = xs.length ∧
      zs'.length = zs.length := by
  induction xs with
  | nil => exact ⟨[], modifyFirst p f zs, by simp [modifyFirst, hy], rfl, length_modifyFirst zs⟩
  | cons x xs ih =>
    by_cases hx : p x = true
    · exact ⟨f x :: xs, zs, by simp [modifyFirst, hx], rfl, rfl⟩
    · obtain ⟨xs', zs', he, hl, hr⟩ := ih
      exact ⟨x :: xs', zs', by simp [modifyFirst, hx, he], by simp [hl], hr⟩

theorem getElem?_modifyFirst {α : Type} {p : α → Bool} {f : α → α} (xs : List α) (i : Nat) :
    (modifyFirst p f xs)[i]? = if xs.findIdx? p = some i then xs[i]?.map f else xs[i]? := by
  induction xs generalizing i with
  | nil => rfl
  | cons x xs ih =>
    by_cases hx : p x = true
    · cases i with
      | zero => simp [modifyFirst, hx, List.findIdx?_cons]
      | succ i => simp [modifyFirst, hx, List.findIdx?_cons]
    · cases i with
      | zero => simp [modifyFirst, hx, List.findIdx?_cons]
      | succ i => simp [modifyFirst, hx, List.findIdx?_cons, ih]

theorem filterMap_modifyFirst {α : Type} {p : α → Bool} {f : α → α} (xs : List (Option α)) :
    (modifyFirst (fun o => o.any p) (Option.map f) xs).filterMap id =
      modifyFirst p f (xs.filterMap id) := by
  induction xs with
  | nil => rfl
  | cons o xs ih =>
    cases o with
    | none => simpa [modifyFirst] using ih
    | some x =>
      by_cases hx : p x = true
      · simp [modifyFirst, hx]
      · simpa [modifyFirst, hx] using ih

section Translated

variable {α β : Type} {g : α → β} {p : α → Bool} {q : β → Bool}

theorem modifyFirst_map {f : α → α} {f' : β → β} (hp : ∀ x, q (g x) = p x)
    (hf : ∀ x, p x = true → f' (g x) = g (f x)) (xs : List α) :
    modifyFirst q f' (xs.map g) = (modifyFirst p f xs).map g := by
  induction xs with
  | nil => rfl
  | cons x xs ih =>
    rw [List.map_cons, modifyFirst, modifyFirst, hp]
    split
    · next hx => rw [hf x hx, List.map_cons]
    · rw [ih, List.map_cons]

theorem insertAt_map (g : α → β) (i : Int) (x : α) (xs : List α) :
    insertAt i (g x) (xs.map g) = (insertAt i x xs).map g := by
  simp only [insertAt, List.length_map, List.map_append, List.map_cons, List.map_take, List.map_drop]

end Translated

theorem insertAt_eq {α : Type} (i : Int) (x : α) (xs : List α) :
    ∃ pre post, xs = pre ++ post ∧ insertAt i x xs = pre ++ x :: post :=
  ⟨_, _, (List.take_append_drop _ xs).symm, rfl⟩

theorem sublist_insertAt {α : Type} (i : Int) (x : α) (xs : List α) :
    xs.Sublist (insertAt i x xs) := by
  obtain ⟨pre, post, rfl, he⟩ := insertAt_eq i x xs
  rw [he]
  exact (List.Sublist.refl pre).append (List.sublist_cons_self x post)

theorem mem_insertAt {α : Type} {i : Int} {x y : α} {xs : List α} :
    y ∈ insertAt i x xs ↔ y = x ∨ y ∈ xs := by
  obtain ⟨pre, post, rfl, he⟩ := insertAt_eq i x xs
  rw [he, List.mem_append, List.mem_cons, List.mem_append]
  exact or_left_comm

theorem insertAt_after {α : Type} (pre : List α) (y x : α) (post : List α) :
    insertAt (pre.length + 1) x (pre ++ y :: post) = pre ++ y :: x :: post := by
  have hn : ¬ ((pre.length : Int) + 1) < 0 := by omega
  have ht : ((pre.length : Int) + 1).toNat = (pre ++ [y]).length := by
    rw [List.length_append, List.length_singleton]
    omega
  have hs : pre ++ y :: post = (pre ++ [y]) ++ post := by simp
  rw [insertAt, if_neg hn, ht, hs, List.take_left, List.drop_left]
  simp

theorem filter_insertAt {α : Type} {p : α → Bool} {x : α} (hx : p x = false) (i : Int)
    (xs : List α) : (insertAt i x xs).filter p = xs.filter p := by
  obtain ⟨pre, post, rfl, he⟩ := insertAt_eq i x xs
  rw [he]
  simp [hx]

theorem mem_of_mem_dropMatching {α : Type} {p : α → Bool} {firstOnly : Bool} {x : α} {xs : List α}
    (hx : x ∈ dropMatching p firstOnly xs) : x ∈ xs := by
  unfold dropMatching at hx
  split at hx
  · exact List.mem_of_mem_eraseP hx
  · exact (List.mem_filter.mp hx).1

theorem filter_dropMatching {α : Type} {p q : α → Bool} (h : ∀ x, p x = true → ¬ q x = true)
    (firstOnly : Bool) (xs : List α) : (dropMatching p firstOnly xs).filter q = xs.filter q := by
  cases firstOnly with
  | false =>
    rw [dropMatching, if_neg (by decide), List.filter_filter]
    refine List.filter_congr fun x _ => ?_
    by_cases hp : p x = true
    · simp [hp, h x hp]
    · simp [hp]
  | true =>
    rw [dropMatching, if_pos rfl]
    induction xs with
    | nil => rfl
    | cons x xs ih =>
      by_cases hp : p x = true
      · rw [List.eraseP_cons_of_pos hp, List.filter_cons_of_neg (h x hp)]
      · rw [List.eraseP_cons_of_neg hp, List.filter_cons, List.filter_cons, ih]

namespace Node

variable {n child : Node} {name key value : String} {t : Option ValueType}

theorem findChild_eq_head? : n.findChild name = (n.findChildren name).head? :=
  List.head?_filter.symm

theorem findChild_eq_none_iff {name : String} :
    n.findChild name = none ↔ ∀ c ∈ n.children, c.name ≠ name := by
  rw [findChild, List.find?_eq_none]
  simp

theorem name_of_findChild {c : Node} (h : n.findChild name = some c) : c.name = name := by
  have hname := List.find?_some h
  exact LawfulBEq.eq_of_beq hname

theorem filter_eq_self_of_name {nodes : List Node} (h : ∀ c ∈ nodes, c.name = name) :
    nodes.filter (fun c => c.name == name) = nodes :=
  List.filter_eq_self.mpr fun c hc => by simp [h c hc]

theorem filter_name_of_ne {key other : String} (h : key ≠ other) (nodes : List Node) :
    (nodes.filter fun c => c.name == key) =
      (nodes.filter fun c => c.name != other).filter fun c => c.name == key := by
  rw [List.filter_filter]
  refine List.filter_congr fun c _ => ?_
  by_cases hc : c.name = key
  · simp [hc, h]
  · simp [hc]

theorem name_of_findChildIndex {c : Node} {i : Nat} (h : n.findChildIndex name = some i)
    (hc : n.children[i]? = some c) : c.name = name := by
  obtain ⟨hi, hp, -⟩ := List.findIdx?_eq_some_iff_getElem.mp h
  rw [List.getElem?_eq_getElem hi] at hc
  cases hc
  exact LawfulBEq.eq_of_beq hp

structure IsGrouped (groups : List (String × List Node)) : Prop where
  distinct : (groups.map Prod.fst).Nodup
  named : ∀ g ∈ groups, ∀ n ∈ g.2, n.name = g.1

theorem IsGrouped.tail {g : String × List Node} {groups : List (String × List Node)}
    (h : IsGrouped (g :: groups)) : IsGrouped groups :=
  ⟨(List.nodup_cons.mp h.distinct).2, fun k hk => h.named k (List.mem_cons_of_mem g hk)⟩

theorem filter_groups_of_notMem {groups : List (String × List Node)}
    (h : ∀ g ∈ groups, ∀ n ∈ g.2, n.name = g.1) (hn : name ∉ groups.map Prod.fst) :
    (groups.flatMap Prod.snd).filter (fun n => n.name == name) = [] := by
  rw [List.filter_eq_nil_iff]
  intro n hm
  obtain ⟨g, hg, hng⟩ := List.mem_flatMap.mp hm
  have hne : g.1 ≠ name := fun he => hn (he ▸ List.mem_map_of_mem hg)
  simpa [h g hg n hng] using hne

theorem filter_groups {groups : List (String × List Node)} (h : IsGrouped groups) :
    ∀ g ∈ groups, (groups.flatMap Prod.snd).filter (fun n => n.name == g.1) = g.2 := by
  induction groups with
  | nil =>
    intro g hg
    cases hg
  | cons k groups ih =>
    have hk := (List.nodup_cons.mp h.distinct).1
    intro g hg
    rw [List.flatMap_cons, List.filter_append]
    rcases List.mem_cons.mp hg with rfl | hg
    · rw [filter_eq_self_of_name (h.named g (List.mem_cons_self ..)),
        filter_groups_of_notMem h.tail.named hk, List.append_nil]
    · have hne : k.1 ≠ g.1 := fun he => hk (he ▸ List.mem_map_of_mem hg)
      have hnone : k.2.filter (fun n => n.name == g.1) = [] := by
        rw [List.filter_eq_nil_iff]
        intro n hn
        simpa [h.named k (List.mem_cons_self ..) n hn] using hne
      rw [hnone, List.nil_append, ih h.tail g hg]

theorem findChildren_insert (hk : child.name ≠ key) (i : Int) :
    (n.insert i child).findChildren key = n.findChildren key := by
  apply filter_insertAt
  simp [hk]

theorem findChildren_append (hk : child.name ≠ key) :
    (n.append child).findChildren key = n.findChildren key := by
  simp [findChildren, append, hk]

theorem findChildren_modifyChild {f : Node → Node} (hf : ∀ c, (f c).name = c.name)
    (hk : name ≠ key) : (n.modifyChild name f).findChildren key = n.findChildren key := by
  apply filter_modifyFirst
  intro c hc
  have hn : c.name = name := LawfulBEq.eq_of_beq hc
  simp [hf, hn, hk]

theorem findChildren_modifyChild_self {f : Node → Node} (hf : ∀ c, (f c).name = c.name) :
    (n.modifyChild name f).findChildren name =
      modifyFirst (fun c => c.name == name) f (n.findChildren name) := by
  refine filter_modifyFirst_self (fun c hc => ?_) n.children
  rwa [hf]

theorem findChildren_setValue (hk : name ≠ key) (n : Node) (value : String) (t : Option ValueType) :
    (n.setValue name value t).findChildren key = n.findChildren key := by
  unfold setValue
  split
  · exact findChildren_modifyChild (fun c => rfl) hk
  · exact findChildren_append hk

theorem findChild_modifyChild {f : Node → Node} (hf : ∀ c, (f c).name = c.name) :
    (n.modifyChild name f).findChild name = (n.findChild name).map f := by
  refine find?_modifyFirst (fun c hc => ?_) n.children
  rwa [hf]

theorem findChild_modifyChild_of_ne {f : Node → Node} (hf : ∀ c, (f c).name = c.name)
    (hk : name ≠ key) : (n.modifyChild name f).findChild key = n.findChild key := by
  rw [findChild_eq_head?, findChild_eq_head?, findChildren_modifyChild hf hk]

theorem modifyChild_eq_self {f : Node → Node} (h : ∀ c, n.findChild name = some c → f c = c) :
    n.modifyChild name f = n := by
  rw [modifyChild, modifyFirst_fixed h]
  cases n
  rfl

theorem modifyChild_of_findChild {f : Node → Node} (h : n.findChild name = none) :
    n.modifyChild name f = n := by
  apply modifyChild_eq_self
  intro c hc
  rw [h] at hc
  cases hc

theorem modifyChild_modifyChild {f g : Node → Node} (hg : ∀ c, (g c).name = c.name) :
    (n.modifyChild name g).modifyChild name f = n.modifyChild name (f ∘ g) := by
  simp only [modifyChild]
  rw [modifyFirst_modifyFirst]
  intro c hc
  rwa [hg]

theorem modifyChild_congr {f g : Node → Node} (h : ∀ c, n.findChild name = some c → f c = g c) :
    n.modifyChild name f = n.modifyChild name g := by
  simp only [modifyChild]
  rw [modifyFirst_congr h]

theorem findValue_modifyChild_of_ne {f : Node → Node} (hf : ∀ c, (f c).name = c.name)
    (hk : name ≠ key) : (n.modifyChild name f).findValue key = n.findValue key := by
  rw [findValue, findValue, findChild_modifyChild_of_ne hf hk]

theorem findChild_setValue_of_ne (hk : name ≠ key) (n : Node) (value : String)
    (t : Option ValueType) : (n.setValue name value t).findChild key = n.findChild key := by
  rw [findChild_eq_head?, findChild_eq_head?, findChildren_setValue hk]

@[simp]
theorem name_setValue : (n.setValue name value t).name = n.name := by
  unfold setValue
  split <;> rfl

theorem mem_setValue {c : Node} (hc : c ∈ (n.setValue name value t).children) :
    c ∈ n.children ∨ c.name = name := by
  unfold setValue at hc
  split at hc
  · refine (mem_modifyFirst hc).imp_right ?_
    rintro ⟨d, hd, rfl⟩
    have hname : d.name = name := name_of_findChild hd
    exact hname
  · exact (List.mem_append.mp hc).imp_right fun hc => congrArg Node.name (List.mem_singleton.mp hc)

theorem findValue_setValue (n : Node) (name value : String) (t : Option ValueType) :
    (n.setValue name value t).findValue name = some value := by
  unfold setValue
  split
  · next h =>
    obtain ⟨c, hc⟩ := Option.isSome_iff_exists.mp h
    have hf := find?_modifyFirst (p := fun c : Node => c.name == name)
      (f := fun c => c.withValue value (t.getD c.valueType)) (fun c hc => hc) n.children
    rw [findChild] at hc
    rw [findValue, findChild, modifyChild, hf, hc]
    rfl
  · next h =>
    rw [Bool.not_eq_true, Option.isSome_eq_false_iff, Option.isNone_iff_eq_none, findChild] at h
    rw [findValue, findChild, append, List.find?_append, h]
    simp [leaf]

theorem setValue_of_split {before after : List Node} (hs : n.children = before ++ child :: after)
    (hc : child.name = name) (hb : ∀ c ∈ before, c.name ≠ name) (value : String) (t : ValueType) :
    n.setValue name value (some t) =
      { n with children := before ++ child.withValue value t :: after } := by
  have hfound : (n.findChild name).isSome = true := by
    rw [findChild, List.find?_isSome, hs]
    exact ⟨child, by simp, by simp [hc]⟩
  rw [setValue, if_pos hfound, modifyChild, hs]
  rw [modifyFirst_append (by simp [hc]) fun c hc => by simpa using hb c hc]
  rfl

def Carries (n : Node) (name value : String) (t : ValueType) : Prop :=
  ∃ c, n.findChild name = some c ∧ c.value = some value ∧ c.valueType = t

theorem carries_setValue (n : Node) (name value : String) (t : ValueType) :
    (n.setValue name value (some t)).Carries name value t := by
  unfold setValue
  split
  · next h =>
    obtain ⟨c, hc⟩ := Option.isSome_iff_exists.mp h
    refine ⟨c.withValue value t, ?_, rfl, rfl⟩
    have hkeeps : ∀ c : Node, (c.withValue value t).name = c.name := fun c => rfl
    exact (findChild_modifyChild hkeeps).trans (by rw [hc]; rfl)
  · next h =>
    have hnone : n.children.find? (fun c => c.name == name) = none := by
      rwa [Option.not_isSome_iff_eq_none] at h
    refine ⟨leaf name value t, ?_, rfl, rfl⟩
    rw [findChild, append, List.find?_append, hnone]
    simp [leaf]

theorem Carries.setValue_eq {t : ValueType} (h : n.Carries name value t) :
    n.setValue name value (some t) = n := by
  obtain ⟨c, hc, hvalue, htype⟩ := h
  rw [setValue, if_pos (by rw [hc]; rfl)]
  apply modifyChild_eq_self
  intro d hd
  obtain rfl : c = d := Option.some.inj (hc.symm.trans hd)
  cases c
  cases hvalue
  cases htype
  rfl

theorem Carries.setValue_of_ne {other : String} {s : ValueType} (h : n.Carries name value s)
    (hk : key ≠ name) : (n.setValue key other t).Carries name value s := by
  obtain ⟨c, hc, hcarried⟩ := h
  exact ⟨c, (findChild_setValue_of_ne hk n other t).trans hc, hcarried⟩

theorem findValues_setValue (n : Node) (name value : String) (t : Option ValueType) :
    ∃ rest, (n.setValue name value t).findValues name = value :: rest ∧
      ∀ v ∈ rest, v ∈ n.findValues name := by
  unfold setValue
  split
  · next h =>
    rw [findChild_eq_head?, Option.isSome_iff_exists] at h
    obtain ⟨c, hc⟩ := h
    obtain ⟨rest, hrest⟩ := List.head?_eq_some_iff.mp hc
    have hname : (c.name == name) = true := by
      have hmem : c ∈ n.findChildren name := hrest ▸ List.mem_cons_self ..
      exact (List.mem_filter.mp hmem).2
    refine ⟨rest.filterMap (·.value), ?_, fun v hv => ?_⟩
    · have hkeeps : ∀ c : Node, (c.withValue value (t.getD c.valueType)).name = c.name := fun c => rfl
      rw [findValues, findChildren_modifyChild_self hkeeps, hrest, modifyFirst, if_pos hname]
      rfl
    · rw [findValues, hrest, List.filterMap_cons]
      split
      · exact hv
      · exact List.mem_cons_of_mem _ hv
  · next h =>
    rw [findChild_eq_head?, Option.not_isSome_iff_eq_none, List.head?_eq_none_iff] at h
    refine ⟨[], ?_, List.forall_mem_nil _⟩
    rw [findChildren] at h
    rw [findValues, findChildren, append, List.filter_append, h]
    simp [leaf]

theorem mem_removeValue {firstOnly : Bool} {c : Node}
    (hc : c ∈ (n.removeValue name value firstOnly).children) : c ∈ n.children :=
  mem_of_mem_dropMatching hc

theorem findChildren_removeValue (hk : name ≠ key) (n : Node) (value : String) (firstOnly : Bool) :
    (n.removeValue name value firstOnly).findChildren key = n.findChildren key := by
  have hne : ∀ c, hasNameValue name value c = true → ¬ (c.name == key) = true := by
    intro c hc
    have hn : c.name = name := LawfulBEq.eq_of_beq ((Bool.and_eq_true ..).mp hc).1
    simp [hn, hk]
  simp only [findChildren, removeValue]
  apply filter_dropMatching
  exact hne

end Node

end NetDesc
