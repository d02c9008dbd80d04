import Mathlib.Data.List.Forall2
import NetDesc.Proofs.Network.Running

namespace NetDesc.Network

open Node

theorem sublist_keepFirst {α : Type} (p : α → Bool) (n : Nat) (xs : List α) :
    (keepFirst p n xs).Sublist xs := by
  induction xs generalizing n with
  | nil => cases n <;> exact .refl []
  | cons x xs ih =>
    cases n with
    | zero =>
      rw [keepFirst]
      split
      · exact (ih 0).cons x
      · exact (ih 0).cons_cons x
    | succ n =>
      rw [keepFirst]
      split
      · exact (ih n).cons_cons x
      · exact (ih (n + 1)).cons_cons x

theorem filter_keepFirst_self {α : Type} (p : α → Bool) (n : Nat) (xs : List α) :
    (keepFirst p n xs).filter p = (xs.filter p).take n := by
  induction xs generalizing n with
  | nil => cases n <;> simp [keepFirst]
  | cons x xs ih =>
    by_cases hp : p x = true
    · cases n with
      | zero => simp [keepFirst, hp, ih]
      | succ n => simp [keepFirst, hp, ih]
    · cases n with
      | zero => simp [keepFirst, hp, ih]
      | succ n => simp [keepFirst, hp, ih]

structure LosesBottoms (l l' : Node) : Prop where
  name : l'.name = l.name
  value : l'.value = l.value
  valueType : l'.valueType = l.valueType
  children : l'.children.Sublist l.children
  others : (l'.children.filter fun c => c.name != "bottom") =
    l.children.filter fun c => c.name != "bottom"

namespace LosesBottoms

theorem refl (l : Node) : LosesBottoms l l := ⟨rfl, rfl, rfl, .refl _, rfl⟩

theorem trans {a b c : Node} (h : LosesBottoms a b) (h' : LosesBottoms b c) : LosesBottoms a c where
  name := h'.name.trans h.name
  value := h'.value.trans h.value
  valueType := h'.valueType.trans h.valueType
  children := h'.children.trans h.children
  others := h'.others.trans h.others

theorem trimmed {l l' : Node} (h : LosesBottoms l l') : Trimmed l l' where
  name := h.name
  children key hk := by
    rw [findChildren, findChildren, filter_name_of_ne hk, h.others, ← filter_name_of_ne hk]

end LosesBottoms

theorem losesBottoms_keepBottoms (n : Nat) (l : Node) : LosesBottoms l (keepBottoms n l) where
  name := rfl
  value := rfl
  valueType := rfl
  children := sublist_keepFirst _ n l.children
  others := by
    apply filter_keepFirst
    intro c hc
    have hb : c.name = "bottom" := LawfulBEq.eq_of_beq hc
    simp [hb]

def limited (kind : LayerKind) (limit : Option Int) (l : Node) : Node :=
  let l := if kind = .binaryHash then dropLastBottom l else l
  limit.elim l fun c => keepBottoms c.toNat l

theorem losesBottoms_limited (kind : LayerKind) (limit : Option Int) (l : Node) :
    LosesBottoms l (limited kind limit l) := by
  have hb : LosesBottoms l (if kind = .binaryHash then dropLastBottom l else l) := by
    split
    · exact losesBottoms_keepBottoms _ l
    · exact .refl l
  unfold limited
  cases limit with
  | none => exact hb
  | some c => exact hb.trans (losesBottoms_keepBottoms c.toNat _)

theorem running_cases {t : Traits} {l : Node} {o : Option Node} (h : running t l = .ok o) :
    (t.runs = false ∧ o = none) ∨
      (t.runs = true ∧ ∃ limit, runLimit? (l.findChildren "max_bottom_count") = .ok limit ∧
        o = some (limited t.kind limit l)) := by
  unfold running at h
  split at h
  · next hr =>
    refine .inr ⟨hr, ?_⟩
    obtain ⟨limit, hl, h⟩ := bind_eq_ok.mp h
    have hsame : (if t.kind = .binaryHash then dropLastBottom l else l).findChildren
        "max_bottom_count" = l.findChildren "max_bottom_count" := by
      split
      · exact (trimmed_keepBottoms _ l).children _ (by decide)
      · rfl
    rw [hsame] at hl
    refine ⟨limit, hl, ?_⟩
    cases limit with
    | none =>
      cases h
      rfl
    | some c =>
      cases h
      rfl
  · next hr =>
    cases h
    exact .inl ⟨Bool.eq_false_iff.mpr hr, rfl⟩

/-- A layer of a kind that is there to run, and kept from it by no rule; a loss is there to run where
it can be the softmax of a network that has no other. -/
def Survives (n : Node) (kind : LayerKind) (l : Node) : Prop :=
  if kind = .softmaxWithLoss then IsOpenLoss l ∧ ¬ HasSoftmax n
  else kind ≠ .labelMapping ∧ kind ≠ .debug ∧ Runs l

theorem survives_iff {n l : Node} {t : Traits} (ht : traits l = .ok t) :
    Survives n t.kind l ↔ t.runs = true ∧ (t.kind = .softmaxWithLoss → ¬ HasSoftmax n) := by
  have hopen : IsOpenLoss l ↔ t.kind = .softmaxWithLoss ∧ .run ∉ t.excluded := by
    constructor
    · rintro ⟨u, hu, hloss, hex⟩
      cases ht.symm.trans hu
      exact ⟨hloss, hex⟩
    · rintro ⟨hloss, hex⟩
      exact ⟨t, ht, hloss, hex⟩
  have hruns : Runs l ↔ .run ∉ t.excluded ∧
      (.run ∈ t.included ∨ (.train ∉ t.included ∧ .test ∉ t.included)) := by
    constructor
    · rintro ⟨u, hu, hrules⟩
      cases ht.symm.trans hu
      exact hrules
    · intro hrules
      exact ⟨t, ht, hrules⟩
  rw [Survives, Traits.runs_iff]
  split
  · next hk =>
    rw [hopen, hk]
    simp
  · next hk =>
    rw [hruns]
    simp [hk, and_assoc]

/-- What comes of a layer of a network: nothing, the softmax of a loss, or the layer with bottoms gone
at most. -/
structure Becomes (n : Node) (kind : LayerKind) (l : Node) (o : Option Node) : Prop where
  ofKind : LayerKind.ofNode l = .ok kind
  survives : (∃ l', o = some l') ↔ Survives n kind l
  named : ∀ l' ∈ o, l'.name = l.name
  layer : ∀ l' ∈ o, kind ≠ .softmaxWithLoss → LosesBottoms l l'
  loss : ∀ l' ∈ o, kind = .softmaxWithLoss → IsDemoted l l'

theorem becomes_settle {n l : Node} {t : Traits} {o : Option Node} {hasSoftmax : Bool}
    (ht : traits l = .ok t) (ho : running t l = .ok o) (hs : hasSoftmax = true ↔ HasSoftmax n) :
    Becomes n t.kind l (settle hasSoftmax t o) := by
  have hkind := ofNode_of_traits ht
  have hsurvives := survives_iff (n := n) ht
  unfold settle
  rcases running_cases ho with ⟨hr, rfl⟩ | ⟨hr, limit, -, rfl⟩
  · have hnone : (if t.kind = .softmaxWithLoss then
        (if hasSoftmax then none else (none : Option Node).map toSoftmax) else none) = none := by
      split
      · split <;> rfl
      · rfl
    rw [hnone]
    refine ⟨hkind, ?_, by simp, by simp, by simp⟩
    rw [hsurvives, hr]
    simp
  · have hloses := losesBottoms_limited t.kind limit l
    by_cases hk : t.kind = .softmaxWithLoss
    · rw [if_pos hk]
      by_cases hsoft : HasSoftmax n
      · rw [if_pos (hs.mpr hsoft)]
        refine ⟨hkind, ?_, by simp, by simp, by simp⟩
        rw [hsurvives]
        simp [hk, hsoft]
      · rw [if_neg fun h => hsoft (hs.mp h)]
        have hdemoted := isDemoted_toSoftmax ht hk hr hloses.trimmed
        refine ⟨hkind, ?_, ?_, fun l' _ hne => absurd hk hne, ?_⟩
        · rw [hsurvives]
          simp [hr, hsoft]
        · rintro l' ⟨⟩
          exact (name_toSoftmax _).trans hloses.name
        · rintro l' ⟨⟩ -
          exact hdemoted
    · rw [if_neg hk]
      refine ⟨hkind, ?_, ?_, ?_, fun l' _ he => absurd he hk⟩
      · rw [hsurvives]
        simp [hr, hk]
      · rintro l' ⟨⟩
        exact hloses.name
      · rintro l' ⟨⟩ -
        exact hloses

inductive Interleaves {α : Type} : List α → List α → List α → Prop
  | nil : Interleaves [] [] []
  | left (x : α) {xs ys zs : List α} : Interleaves xs ys zs → Interleaves (x :: xs) ys (x :: zs)
  | right (y : α) {xs ys zs : List α} : Interleaves xs ys zs → Interleaves xs (y :: ys) (y :: zs)

namespace Interleaves

variable {α : Type} {xs ys zs : List α}

theorem self (xs : List α) : Interleaves xs [] xs := by
  induction xs with
  | nil => exact .nil
  | cons x xs ih => exact .left x ih

theorem modifyFirst {p : α → Bool} (h : Interleaves xs ys zs) (f : α → α)
    (hy : ∀ y ∈ ys, p y = false) :
    Interleaves (NetDesc.modifyFirst p f xs) ys (NetDesc.modifyFirst p f zs) := by
  induction h with
  | nil => exact .nil
  | left x hrest ih =>
    rw [NetDesc.modifyFirst, NetDesc.modifyFirst]
    split
    · exact .left _ hrest
    · exact .left x (ih hy)
  | right y hrest ih =>
    rw [NetDesc.modifyFirst, hy y (List.mem_cons_self ..)]
    exact .right y (ih fun w hw => hy w (List.mem_cons_of_mem y hw))

theorem insert {pre post : List α} (h : Interleaves xs ys (pre ++ post)) (x : α) :
    ∃ ws, ws.Perm (x :: ys) ∧ Interleaves xs ws (pre ++ x :: post) := by
  induction pre generalizing xs ys with
  | nil => exact ⟨x :: ys, .refl _, .right x h⟩
  | cons z pre ih =>
    cases h with
    | left _ h =>
      obtain ⟨ws, hp, hw⟩ := ih h
      exact ⟨ws, hp, .left z hw⟩
    | @right _ _ ys' _ h =>
      obtain ⟨ws, hp, hw⟩ := ih h
      exact ⟨z :: ws, (hp.cons z).trans (.swap x z ys'), .right z hw⟩

theorem insertAt (h : Interleaves xs ys zs) (i : Int) (x : α) :
    ∃ ws, ws.Perm (x :: ys) ∧ Interleaves xs ws (NetDesc.insertAt i x zs) := by
  obtain ⟨pre, post, rfl, he⟩ := insertAt_eq i x zs
  rw [he]
  exact h.insert x

end Interleaves

def successors (key : String) : List Node → List (Option Node) → List (Option Node)
  | [], _ => []
  | c :: cs, new =>
    if c.name = key then new.head?.join :: successors key cs new.tail
    else some c :: successors key cs new

theorem replaceLayers_eq (key : String) (cs : List Node) (new : List (Option Node)) :
    replaceLayers key cs new = (successors key cs new).filterMap id := by
  induction cs generalizing new with
  | nil => rfl
  | cons c cs ih =>
    unfold replaceLayers successors
    by_cases hc : c.name = key
    · rw [if_pos hc, if_pos hc]
      cases new with
      | nil => exact ih []
      | cons o new =>
        have hi := ih new
        cases o with
        | none => exact hi
        | some l => exact congrArg (l :: ·) hi
    · rw [if_neg hc, if_neg hc, ih]
      rfl

theorem forall₂_successors {key : String} {P : Node → Option Node → Prop} {cs : List Node}
    {new : List (Option Node)} (h : List.Forall₂ P (cs.filter fun c => c.name == key) new) :
    List.Forall₂ (fun c o => (c.name = key → P c o) ∧ (c.name ≠ key → o = some c)) cs
      (successors key cs new) := by
  induction cs generalizing new with
  | nil => exact .nil
  | cons c cs ih =>
    by_cases hc : c.name = key
    · rw [List.filter_cons_of_pos (by simpa using hc)] at h
      cases h with
      | cons hp hrest =>
        rw [successors, if_pos hc]
        exact .cons ⟨fun _ => hp, fun hne => absurd hc hne⟩ (ih hrest)
    · rw [List.filter_cons_of_neg (by simpa using hc)] at h
      rw [successors, if_neg hc]
      exact .cons ⟨fun he => absurd he hc, fun _ => rfl⟩ (ih h)

theorem findIdx?_eq_of_getElem? {α β : Type} {p : α → Bool} {q : β → Bool} {xs : List α}
    {ys : List β} (hl : xs.length = ys.length)
    (h : ∀ (i : Nat) x y, xs[i]? = some x → ys[i]? = some y → p x = q y) :
    xs.findIdx? p = ys.findIdx? q := by
  induction xs generalizing ys with
  | nil =>
    obtain rfl := List.length_eq_zero_iff.mp hl.symm
    rfl
  | cons x xs ih =>
    cases ys with
    | nil => cases hl
    | cons y ys =>
      rw [List.findIdx?_cons, List.findIdx?_cons, h 0 x y rfl rfl,
        ih (Nat.succ.inj hl) fun i => h (i + 1)]

/-- Every child of a network in its place: what comes of it where it is a layer, and itself where it is
not, but that the first child of each edited name may have changed. -/
structure Keeps (n : Node) (edited : List String) (kept : List (Option Node)) : Prop where
  length : kept.length = n.children.length
  layer : ∀ {i : Nat} {c : Node} {o : Option Node}, n.children[i]? = some c → kept[i]? = some o →
    c.name = layerKey n → ∃ kind, Becomes n kind c o
  other : ∀ {i : Nat} {c : Node} {o : Option Node}, n.children[i]? = some c → kept[i]? = some o →
    c.name ≠ layerKey n → ∃ c', o = some c' ∧ c'.name = c.name ∧
      (c' = c ∨ (c.name ∈ edited ∧ n.findChildIndex c.name = some i))

def editFirst (name : String) (f : Node → Node) (kept : List (Option Node)) : List (Option Node) :=
  modifyFirst (fun o => o.any fun c => c.name == name) (Option.map f) kept

namespace Keeps

variable {n : Node} {edited : List String} {kept : List (Option Node)} {name : String}

theorem any_name (h : Keeps n edited kept) (hname : name ≠ layerKey n) {i : Nat} {o : Option Node}
    {c : Node} (ho : kept[i]? = some o) (hc : n.children[i]? = some c) :
    (o.any fun c => c.name == name) = (c.name == name) := by
  by_cases hk : c.name = layerKey n
  · obtain ⟨kind, hb⟩ := h.layer hc ho hk
    cases o with
    | none => simp [hk, hname.symm]
    | some l => simp [hb.named l rfl]
  · obtain ⟨c', rfl, hn, -⟩ := h.other hc ho hk
    simp [hn]

theorem findIdx?_name (h : Keeps n edited kept) (hname : name ≠ layerKey n) :
    kept.findIdx? (fun o => o.any fun c => c.name == name) = n.findChildIndex name :=
  findIdx?_eq_of_getElem? h.length fun _ _ _ ho hc => h.any_name hname ho hc

theorem edit (h : Keeps n edited kept) (hname : name ≠ layerKey n) {f : Node → Node}
    (hf : ∀ c, (f c).name = c.name) : Keeps n (name :: edited) (editFirst name f kept) where
  length := (length_modifyFirst kept).trans h.length
  layer := by
    intro i c o hc ho hk
    rw [editFirst, getElem?_modifyFirst, h.findIdx?_name hname] at ho
    split at ho
    · next hi =>
      exact absurd ((name_of_findChildIndex hi hc).symm.trans hk) hname
    · exact h.layer hc ho hk
  other := by
    intro i c o hc ho hk
    rw [editFirst, getElem?_modifyFirst, h.findIdx?_name hname] at ho
    split at ho
    · next hi =>
      obtain ⟨q, hq, rfl⟩ := Option.map_eq_some_iff.mp ho
      obtain ⟨c', rfl, hn, -⟩ := h.other hc hq hk
      have hfound : c.name = name := name_of_findChildIndex hi hc
      exact ⟨f c', rfl, (hf c').trans hn, .inr ⟨by simp [hfound], by rw [hfound]; exact hi⟩⟩
    · obtain ⟨c', rfl, hn, he⟩ := h.other hc ho hk
      exact ⟨c', rfl, hn, he.imp_right fun he => ⟨List.mem_cons_of_mem name he.1, he.2⟩⟩

end Keeps

section Whole

variable {settings : Settings} {input : String} {shape : InputShape} {n r : Node}
  {transform : Option Node}

theorem forRunning_eq_declared (h : forRunning settings input shape n = .ok (r, transform)) :
    ∃ scanned : List (Traits × Node × Option Node), scanned.map (fun s => s.2.1) = layers n ∧
      (∀ s ∈ scanned, traits s.2.1 = .ok s.1 ∧ running s.1 s.2.1 = .ok s.2.2) ∧
      (∀ d ∈ shape.dims, Decimal.isTooLong d.natAbs = false) ∧
      (∃ kept, kept = withLayers n (scanned.map fun s =>
          settle (scanned.any fun l => l.1.kind = .softmax) s.1 s.2.2) ∧
        r = addSuffix settings.liveSuffix (declareInput ((n.findChildIndex "name").elim 0 (· + 1))
          (inputName kept input) shape.dims kept)) ∧
      transform = testTransform? (scanned.map fun s => (s.1, s.2.1)) := by
  unfold forRunning at h
  split at h
  · cases h
  next hdims =>
  obtain ⟨scanned, hs, h⟩ := bind_eq_ok.mp h
  cases h
  obtain ⟨hm, hall⟩ := scanned_of_mapM hs
  exact ⟨scanned, hm, hall, by simpa using hdims, ⟨_, rfl, rfl⟩, rfl⟩

theorem forall₂_becomes {scanned : List (Traits × Node × Option Node)}
    (hm : scanned.map (fun s => s.2.1) = layers n)
    (hall : ∀ s ∈ scanned, traits s.2.1 = .ok s.1 ∧ running s.1 s.2.1 = .ok s.2.2) :
    List.Forall₂ (fun l o => ∃ kind, Becomes n kind l o) (layers n)
      (scanned.map fun s => settle (scanned.any fun l => l.1.kind = .softmax) s.1 s.2.2) := by
  have hsoft := any_softmax_iff hm fun s hs => (hall s hs).1
  rw [← hm, List.forall₂_map_left_iff, List.forall₂_map_right_iff, List.forall₂_same]
  intro s hs
  exact ⟨s.1.kind, becomes_settle (hall s hs).1 (hall s hs).2 hsoft⟩

theorem keeps_successors {new : List (Option Node)}
    (h : List.Forall₂ (fun l o => ∃ kind, Becomes n kind l o) (layers n) new) :
    Keeps n [] (successors (layerKey n) n.children new) := by
  have hall : List.Forall₂ (fun c o => (c.name = layerKey n → ∃ kind, Becomes n kind c o) ∧
      (c.name ≠ layerKey n → o = some c)) n.children (successors (layerKey n) n.children new) :=
    forall₂_successors h
  have hat {i : Nat} {c : Node} {o : Option Node} (hc : n.children[i]? = some c)
      (ho : (successors (layerKey n) n.children new)[i]? = some o) :
      (c.name = layerKey n → ∃ kind, Becomes n kind c o) ∧ (c.name ≠ layerKey n → o = some c) := by
    obtain ⟨hi, rfl⟩ := List.getElem?_eq_some_iff.mp hc
    obtain ⟨hj, rfl⟩ := List.getElem?_eq_some_iff.mp ho
    exact hall.get hi hj
  constructor
  · exact hall.length_eq.symm
  · intro i c o hc ho
    exact (hat hc ho).1
  · intro i c o hc ho hk
    exact ⟨c, (hat hc ho).2 hk, rfl, .inl rfl⟩

theorem findChild_withLayers_of_ne {new : List (Option Node)} {key : String}
    (hn : ∀ o ∈ new, ∀ l ∈ o, l.name = layerKey n) (hk : key ≠ layerKey n) :
    (withLayers n new).findChild key = n.findChild key := by
  rw [findChild_eq_head?, findChild_eq_head?, findChildren_withLayers_of_ne hn hk]

def withInput (name : String) (m : Node) : Node :=
  m.modifyChild "input" fun c => c.withValue name .string

def withShape (dims : List Int) (m : Node) : Node :=
  m.modifyChild "input_shape" fun c => { c with children := setDims c.children dims }

def undeclared (m : Node) : List String :=
  ["input", "input_shape"].filter fun key => (m.findChild key).isNone

theorem undeclared_eq (m : Node) :
    undeclared m = (["input"].filter fun key => (m.findChild key).isNone) ++
      ["input_shape"].filter fun key => (m.findChild key).isNone := by
  rw [← List.filter_append]
  rfl

theorem interleaves_declareName (place : Nat) (name : String) (m : Node) :
    ∃ added, Interleaves (withInput name m).children added (declareName place name m).children ∧
      added.map (·.name) = ["input"].filter fun key => (m.findChild key).isNone := by
  rw [declareName]
  cases hi : m.findChild "input" with
  | some c => exact ⟨[], .self _, by simp [hi]⟩
  | none =>
    rw [withInput, modifyChild_of_findChild hi]
    obtain ⟨ws, hp, hw⟩ := (Interleaves.self m.children).insertAt place (leaf "input" name .string)
    obtain rfl := List.perm_singleton.mp hp
    exact ⟨_, hw, by simp [hi, leaf]⟩

theorem interleaves_declareInput (place : Nat) (name : String) (dims : List Int) (m : Node) :
    ∃ added, Interleaves (withShape dims (withInput name m)).children added
        (declareInput place name dims m).children ∧
      (added.map (·.name)).Perm (undeclared m) := by
  obtain ⟨first, hfirst, hnames⟩ := interleaves_declareName place name m
  rw [undeclared_eq, ← hnames, declareInput_eq, declareShape, findChild_declareName_of_ne (by decide)]
  cases hs : m.findChild "input_shape" with
  | some c =>
    -- An input that was added is no shape, so that the shape to change is still the first one.
    refine ⟨first, hfirst.modifyFirst _ fun y hy => ?_, by simp [hs]⟩
    have hname : y.name ∈ ["input"].filter fun key => (m.findChild key).isNone :=
      hnames ▸ List.mem_map_of_mem hy
    rw [List.mem_singleton.mp (List.mem_filter.mp hname).1]
    rfl
  | none =>
    have hnone : (withInput name m).findChild "input_shape" = none :=
      (findChild_modifyChild_of_ne (f := fun c => c.withValue name .string) (fun _ => rfl)
        (by decide : "input" ≠ "input_shape")).trans hs
    obtain ⟨ws, hp, hw⟩ := hfirst.insertAt _ (block "input_shape" (setDims [] dims))
    rw [withShape, modifyChild_of_findChild hnone]
    refine ⟨ws, hw, (hp.map (·.name)).trans ?_⟩
    simpa [hs, block] using (List.perm_append_singleton "input_shape" (first.map (·.name))).symm

theorem filterMap_editFirst (name : String) (f : Node → Node) (kept : List (Option Node)) :
    (editFirst name f kept).filterMap id =
      modifyFirst (fun c => c.name == name) f (kept.filterMap id) :=
  filterMap_modifyFirst kept

theorem layerKey_ne (n : Node) :
    "name" ≠ layerKey n ∧ "input" ≠ layerKey n ∧ "input_shape" ≠ layerKey n := by
  rcases layerKey_eq n with hk | ⟨hk, -⟩ <;> rw [hk] <;> decide

theorem undeclared_withLayers {new : List (Option Node)}
    (hn : ∀ o ∈ new, ∀ l ∈ o, l.name = layerKey n) : undeclared (withLayers n new) = undeclared n := by
  obtain ⟨-, hinput, hshape⟩ := layerKey_ne n
  refine List.filter_congr fun key hkey => ?_
  have hne : key ≠ layerKey n := by
    simp only [List.mem_cons, List.not_mem_nil, or_false] at hkey
    rcases hkey with rfl | rfl
    · exact hinput
    · exact hshape
  rw [findChild_withLayers_of_ne hn hne]

theorem keeps_forRunning (h : forRunning settings input shape n = .ok (r, transform)) :
    ∃ kept added, Keeps n ["name", "input_shape", "input"] kept ∧
      Interleaves (kept.filterMap id) added r.children ∧
      (added.map (·.name)).Perm (undeclared n) := by
  obtain ⟨scanned, hm, hall, -, ⟨m, rfl, hr⟩, -⟩ := forRunning_eq_declared h
  obtain ⟨hname, hinput, hshape⟩ := layerKey_ne n
  have hkeeps := keeps_successors (forall₂_becomes hm hall)
  have hnew := name_of_settled hm (fun s hs => (hall s hs).2)
    (scanned.any fun l => l.1.kind = .softmax)
  generalize (scanned.map fun s =>
    settle (scanned.any fun l => l.1.kind = .softmax) s.1 s.2.2) = new at hr hkeeps hnew
  generalize (n.findChildIndex "name").elim 0 (· + 1) = place at hr
  generalize inputName (withLayers n new) input = name at hr
  obtain ⟨added, hadded, hnames⟩ := interleaves_declareInput place name shape.dims (withLayers n new)
  rw [undeclared_withLayers hnew] at hnames
  have hfirst : ∀ c ∈ added, (c.name == "name") = false := by
    intro c hc
    have hmem := (List.mem_filter.mp (hnames.subset (List.mem_map_of_mem hc))).1
    simp only [List.mem_cons, List.not_mem_nil, or_false] at hmem
    rcases hmem with he | he <;> rw [he] <;> rfl
  -- The three edits are made of the children before any is added, where they find the same ones.
  have hedited := ((hkeeps.edit hinput (f := fun c => c.withValue name .string) fun _ => rfl).edit hshape
    (f := fun c => { c with children := setDims c.children shape.dims }) fun _ => rfl).edit hname
    (f := fun c => { c with value := c.value.map (· ++ settings.liveSuffix) }) fun _ => rfl
  refine ⟨_, added, hedited, ?_, hnames⟩
  rw [filterMap_editFirst, filterMap_editFirst, filterMap_editFirst, ← replaceLayers_eq, hr]
  exact hadded.modifyFirst _ hfirst

theorem kind_of_mem_forRunning (h : forRunning settings input shape n = .ok (r, transform)) :
    ∀ l ∈ r.findChildren (layerKey n), ∃ kind, LayerKind.ofNode l = .ok kind ∧
      kind ≠ .softmaxWithLoss ∧ kind ≠ .labelMapping ∧ kind ≠ .debug := by
  intro l hl
  obtain ⟨s, hs, t, l', ht, hruns, htrimmed, ⟨hkind, rfl⟩ | ⟨hkind, -, rfl⟩⟩ := origin h hl
  · have hrules := (Traits.runs_iff.mp hruns).1
    exact ⟨t.kind, ofNode_of_traits (htrimmed.traits_eq.trans ht), hkind, hrules.1, hrules.2.1⟩
  · have hsoft := traits_toSoftmax (htrimmed.traits_eq.trans ht)
    exact ⟨.softmax, ofNode_of_traits hsoft, by decide, by decide, by decide⟩

theorem transform_forRunning (h : forRunning settings input shape n = .ok (r, transform)) (p : Node) :
    transform = some p ↔ ∃ pre l post, layers n = pre ++ l :: post ∧ Feeds .test l ∧
      l.findChild "transform_param" = some p ∧
      ∀ q ∈ pre, Feeds .test q → q.findChild "transform_param" = none := by
  obtain ⟨scanned, hm, hall, -, -, rfl⟩ := forRunning_eq_declared h
  have hfeeds : ∀ s ∈ scanned, (s.1.feeds .test = true ↔ Feeds .test s.2.1) := fun s hs =>
    (feeds_iff_of_traits (hall s hs).1).symm
  rw [testTransform?, List.findSome?_map, List.findSome?_eq_some_iff]
  constructor
  · rintro ⟨pre, s, post, rfl, hs, hpre⟩
    obtain ⟨hf, hp⟩ := Option.ite_none_right_eq_some.mp hs
    refine ⟨pre.map (·.2.1), s.2.1, post.map (·.2.1), ?_, (hfeeds s (by simp)).mp hf, hp, ?_⟩
    · rw [← hm, List.map_append, List.map_cons]
    · intro q hq hfq
      obtain ⟨u, hu, rfl⟩ := List.mem_map.mp hq
      have hnone := hpre u hu
      rwa [Function.comp_apply, if_pos ((hfeeds u (by simp [hu])).mpr hfq)] at hnone
  · rintro ⟨pre, l, post, hsplit, hf, hp, hpre⟩
    obtain ⟨spre, srest, rfl, rfl, hrest⟩ := List.map_eq_append_iff.mp (hm.trans hsplit)
    obtain ⟨s, spost, rfl, rfl, rfl⟩ := List.map_eq_cons_iff.mp hrest
    refine ⟨spre, s, spost, rfl, ?_, ?_⟩
    · rw [Function.comp_apply, if_pos ((hfeeds s (by simp)).mpr hf)]
      exact hp
    · intro u hu
      rw [Function.comp_apply]
      split
      · next hfu =>
        exact hpre u.2.1 (List.mem_map_of_mem hu) ((hfeeds u (by simp [hu])).mp hfu)
      · rfl

/-- Of a network that is stripped for inference, exactly the layers survive that are there to run and
that no rule keeps from it, each in its place and with bottoms gone at most; a loss can survive as its
softmax. All other children stay where they were and as they were, but for the first name, the first
input and the first shape, and an input and a shape are added where there is none. The transform is
that of the first layer with data for tests that has one. -/
theorem forRunning_frame (h : forRunning settings input shape n = .ok (r, transform)) :
    (∃ kept added, Keeps n ["name", "input_shape", "input"] kept ∧
      Interleaves (kept.filterMap id) added r.children ∧
      (added.map (·.name)).Perm
        (["input", "input_shape"].filter fun key => (n.findChild key).isNone)) ∧
    (∀ l ∈ r.findChildren (layerKey n), ∃ kind, LayerKind.ofNode l = .ok kind ∧
      kind ≠ .softmaxWithLoss ∧ kind ≠ .labelMapping ∧ kind ≠ .debug) ∧
    ∀ p, transform = some p ↔ ∃ pre l post, layers n = pre ++ l :: post ∧ Feeds .test l ∧
      l.findChild "transform_param" = some p ∧
      ∀ q ∈ pre, Feeds .test q → q.findChild "transform_param" = none :=
  ⟨keeps_forRunning h, kind_of_mem_forRunning h, transform_forRunning h⟩

end Whole

def readerAndRunner : Node :=
  root [leaf "name" "net" .string,
    block "layer" [leaf "type" "Data" .string, block "include" [leaf "phase" "TEST" .unknown],
      block "transform_param" [leaf "scale" "2" .numeric]],
    block "layer" [leaf "type" "ReLU" .string, leaf "bottom" "a" .string],
    block "layer" [leaf "type" "Debug" .string]]

theorem forRunning_frame_reader :
    ∃ r transform, forRunning .standard "data" smallInput readerAndRunner = .ok (r, transform) ∧
      transform = some (block "transform_param" [leaf "scale" "2" .numeric]) ∧
      ∃ kept added, Keeps readerAndRunner ["name", "input_shape", "input"] kept ∧
        Interleaves (kept.filterMap id) added r.children ∧
        (added.map (·.name)).Perm ["input", "input_shape"] := by
  obtain ⟨⟨r, transform⟩, hr, -⟩ : ∃ r, forRunning .standard "data" smallInput readerAndRunner =
      .ok r ∧ r.2.isSome = true := exists_ok (by decide +kernel)
  obtain ⟨⟨kept, added, hkeeps, hplaced, hnames⟩, -, htransform⟩ := forRunning_frame hr
  refine ⟨r, transform, hr, (htransform _).mpr ?_, kept, added, hkeeps, hplaced, hnames⟩
  refine ⟨[], _, _, rfl, ?_, rfl, by simp⟩
  decide +kernel

end NetDesc.Network
