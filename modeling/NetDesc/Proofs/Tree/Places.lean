import NetDesc.Proofs.Tree.Edit

namespace NetDesc

section Insertion

variable {α : Type} {p : α → Bool} {x : α} {xs : List α}

theorem insertAt_natCast (i : Nat) (x : α) (xs : List α) :
    insertAt (i : Int) x xs = xs.take i ++ x :: xs.drop i := by
  have hn : ¬ (i : Int) < 0 := by omega
  rw [insertAt, if_neg hn, Int.toNat_natCast]

theorem findIdx?_insertAt_self (hx : p x = true) (h : ∀ y ∈ xs, p y = false) (i : Nat) :
    (insertAt (i : Int) x xs).findIdx? p = some (min i xs.length) := by
  have htake : (xs.take i).findIdx? p = none :=
    List.findIdx?_eq_none_iff.mpr fun y hy => h y (List.mem_of_mem_take hy)
  rw [insertAt_natCast, List.findIdx?_append, htake, List.findIdx?_cons, if_pos hx]
  simp

theorem findIdx?_insertAt_of_lt {i j : Nat} (hj : xs.findIdx? p = some j) (hi : j < i) :
    (insertAt (i : Int) x xs).findIdx? p = some j := by
  have htake : (xs.take i).findIdx? p = some j := by
    rw [List.findIdx?_take, hj]
    simp [hi]
  rw [insertAt_natCast, List.findIdx?_append, htake]
  rfl

theorem length_insertAt (i : Int) (x : α) (xs : List α) :
    (insertAt i x xs).length = xs.length + 1 := by
  obtain ⟨pre, post, rfl, he⟩ := insertAt_eq i x xs
  simp [he]
  omega

theorem map_modifyFirst {β : Type} {g : α → β} {f : α → α} (h : ∀ x, g (f x) = g x) (xs : List α) :
    (modifyFirst p f xs).map g = xs.map g := by
  induction xs with
  | nil => rfl
  | cons x xs ih =>
    rw [modifyFirst]
    split
    · rw [List.map_cons, List.map_cons, h]
    · rw [List.map_cons, List.map_cons, ih]

theorem filterMap_id_of_findIdx? {xs : List (Option α)} {i : Nat}
    (h : xs.findIdx? (fun o => o.any p) = some i) :
    (xs.filterMap id).findIdx? p = some ((xs.take i).countP Option.isSome) ∧
      (xs.filterMap id).length =
        (xs.take i).countP Option.isSome + 1 + (xs.drop (i + 1)).countP Option.isSome := by
  obtain ⟨hi, hp, hbefore⟩ := List.findIdx?_eq_some_iff_getElem.mp h
  obtain ⟨x, hx, hpx⟩ : ∃ x, xs[i] = some x ∧ p x = true := by
    cases hx : xs[i] with
    | none => simp [hx] at hp
    | some x => exact ⟨x, rfl, by simpa [hx] using hp⟩
  have hsplit : xs.filterMap id = (xs.take i).filterMap id ++ x :: (xs.drop (i + 1)).filterMap id := by
    have hdrop : xs.drop i = some x :: xs.drop (i + 1) := by
      rw [← hx, List.getElem_cons_drop]
    calc xs.filterMap id
        = (xs.take i ++ xs.drop i).filterMap id := by rw [List.take_append_drop]
      _ = (xs.take i).filterMap id ++ x :: (xs.drop (i + 1)).filterMap id := by
        rw [hdrop, List.filterMap_append]
        rfl
  have hnone : ((xs.take i).filterMap id).findIdx? p = none := by
    rw [List.findIdx?_eq_none_iff]
    intro y hy
    obtain ⟨o, ho, rfl⟩ := List.mem_filterMap.mp hy
    obtain ⟨k, hk, hko⟩ := List.mem_take_iff_getElem.mp ho
    have hlt := hbefore k (by omega)
    rw [hko] at hlt
    simpa using hlt
  have hlength (ys : List (Option α)) : (ys.filterMap id).length = ys.countP Option.isSome :=
    List.length_filterMap_eq_countP ..
  rw [hsplit]
  constructor
  · rw [List.findIdx?_append, hnone, List.findIdx?_cons, if_pos hpx, hlength]
    simp
  · rw [List.length_append, List.length_cons, hlength, hlength]
    omega

theorem countP_isSome_add_isNone (xs : List (Option α)) :
    xs.countP Option.isSome + xs.countP Option.isNone = xs.length := by
  rw [List.length_eq_countP_add_countP Option.isSome]
  congr 1
  refine List.countP_congr fun o _ => ?_
  cases o <;> simp

end Insertion

namespace Node

variable {n child : Node} {name key : String}

theorem findChild_insert_self (h : n.findChild name = none) (hc : child.name = name) (i : Int) :
    (n.insert i child).findChild name = some child := by
  obtain ⟨pre, post, hsplit, he⟩ := insertAt_eq i child n.children
  have hpre : pre.find? (fun c => c.name == name) = none := by
    rw [findChild, hsplit, List.find?_append, Option.or_eq_none_iff] at h
    exact h.1
  rw [findChild, insert, he, List.find?_append, hpre, List.find?_cons_of_pos (by simp [hc])]
  rfl

def childNames (n : Node) : List String :=
  n.children.map (·.name)

theorem length_childNames (n : Node) : n.childNames.length = n.children.length :=
  List.length_map _

theorem findChildIndex_eq (n : Node) (key : String) :
    n.findChildIndex key = n.childNames.findIdx? (· == key) := by
  rw [findChildIndex, childNames, List.findIdx?_map]
  rfl

theorem childNames_insert (i : Int) :
    (n.insert i child).childNames = insertAt i child.name n.childNames :=
  (insertAt_map Node.name i child n.children).symm

theorem childNames_modifyChild {f : Node → Node} (hf : ∀ c, (f c).name = c.name) :
    (n.modifyChild name f).childNames = n.childNames :=
  map_modifyFirst hf n.children

theorem ne_of_mem_childNames (h : n.findChild name = none) : ∀ k ∈ n.childNames, (k == name) = false := by
  intro k hk
  obtain ⟨c, hc, rfl⟩ := List.mem_map.mp hk
  exact beq_false_of_ne (findChild_eq_none_iff.mp h c hc)

end Node

end NetDesc
