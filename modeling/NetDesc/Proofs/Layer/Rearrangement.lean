import Mathlib.Data.List.Forall2
import NetDesc.Proofs.Layer.Settled

/-!
What a block is read as depends on the children of each known name in their order. Children of
different names may stand in any order, and what has no meaning for the block may stand anywhere.
-/

namespace NetDesc

/-- What a block or a leaf is read as; a layer with the slots that are legal for its kind. -/
inductive Place where
  | layer (legal : List Slot)
  | limit
  | record (c : RecordClass)
  | scalar
deriving DecidableEq

namespace Place

def layerFields : List (String × Place) :=
  [("name", .scalar), ("type", .scalar), ("bottom", .scalar), ("top", .scalar), ("phase", .scalar),
    ("loss_weight", .scalar), ("param", .record .paramSpec), ("blobs", .record .blob),
    ("propagate_down", .scalar), ("include", .record .stateRule), ("exclude", .record .stateRule),
    ("max_bottom_count", .limit)]

def ofShape : Shape → Place
  | .record inner => .record inner
  | _ => .scalar

/-- What the children of a name are read as, if the name has a meaning in the block. A slot that is
not legal has none. -/
def child? : Place → String → Option Place
  | .layer legal, name => (layerFields.lookup name).or
      ((Slot.ofName? name).bind fun s => if s ∈ legal then some (.record s.recordClass) else none)
  | .limit, name => if name = "phase" ∨ name = "count" then some .scalar else none
  | .record c, name => (c.field? name).map fun f => ofShape f.shape
  | .scalar, _ => none

end Place

namespace Node

/-- The same nodes in another order, in which those of each name follow each other as before. -/
def IsReordered (nodes nodes' : List Node) : Prop :=
  nodes.Perm nodes' ∧
    ∀ name, (nodes.filter fun c => c.name == name) = nodes'.filter fun c => c.name == name

/-- Nodes that differ in the order of children of different names and in children without a meaning,
at any depth. A child without a meaning can be taken out and another one put in for it, so that it
does not matter what is inside. -/
inductive Rearranged : Place → Node → Node → Prop
  | refl (p : Place) (n : Node) : Rearranged p n n
  | trans {p : Place} {n m k : Node} (h : Rearranged p n m) (h' : Rearranged p m k) : Rearranged p n k
  | reorder {p : Place} {n : Node} {children : List Node} (h : IsReordered n.children children) :
      Rearranged p n { n with children := children }
  | insert {p : Place} {n c : Node} {before after : List Node} (hc : p.child? c.name = none)
      (hn : n.children = before ++ after) :
      Rearranged p n { n with children := before ++ c :: after }
  | delete {p : Place} {n c : Node} {before after : List Node} (hc : p.child? c.name = none)
      (hn : n.children = before ++ c :: after) :
      Rearranged p n { n with children := before ++ after }
  | inside {p q : Place} {n c d : Node} {before after : List Node} (hq : p.child? c.name = some q)
      (hn : n.children = before ++ c :: after) (h : Rearranged q c d) :
      Rearranged p n { n with children := before ++ d :: after }

theorem IsReordered.swap {c d : Node} (h : c.name ≠ d.name) (before after : List Node) :
    IsReordered (before ++ c :: d :: after) (before ++ d :: c :: after) := by
  refine ⟨(List.Perm.swap d c after).append_left before, ?_⟩
  intro name
  rw [List.filter_append, List.filter_append]
  congr 1
  by_cases hc : c.name = name
  · have hd : (d.name == name) = false := beq_false_of_ne fun hd => h (hc.trans hd.symm)
    simp [hc, hd]
  · simp [hc, List.filter_cons]

end Node

section Lists

variable {α β : Type} {f : α → β} {xs ys : List α}

theorem map_eq_of_forall₂ (h : List.Forall₂ (fun x y => f x = f y) xs ys) : xs.map f = ys.map f := by
  induction h with
  | nil => rfl
  | cons hxy _ ih => rw [List.map_cons, List.map_cons, hxy, ih]

end Lists

section Reading

open Layer Node

def SameReading : Place → Node → Node → Prop
  | .layer legal, n, m =>
    readFields n = readFields m ∧ ∀ s ∈ legal, slotRecords s n.children = slotRecords s m.children
  | .limit, n, m =>
    n.findInts "count" = m.findInts "count" ∧ n.findValue "phase" = m.findValue "phase"
  | .record c, n, m => Record.ofNode c n = Record.ofNode c m
  | .scalar, n, m => n.value = m.value

theorem SameReading.refl (p : Place) (n : Node) : SameReading p n n := by
  cases p with
  | layer legal => exact ⟨rfl, fun _ _ => rfl⟩
  | limit => exact ⟨rfl, rfl⟩
  | record c => rfl
  | scalar => rfl

theorem SameReading.trans {p : Place} {n m k : Node} (h : SameReading p n m)
    (h' : SameReading p m k) : SameReading p n k := by
  cases p with
  | layer legal => exact ⟨h.1.trans h'.1, fun s hs => (h.2 s hs).trans (h'.2 s hs)⟩
  | limit => exact ⟨h.1.trans h'.1, h.2.trans h'.2⟩
  | record c => exact Eq.trans h h'
  | scalar => exact Eq.trans h h'

def SameChildren (p : Place) (n m : Node) : Prop :=
  ∀ name q, p.child? name = some q →
    List.Forall₂ (SameReading q) (n.findChildren name) (m.findChildren name)

namespace SameChildren

variable {p : Place} {n m : Node} {c : RecordClass}

theorem findValues (h : SameChildren p n m) (name : String) (hp : p.child? name = some .scalar) :
    n.findValues name = m.findValues name := by
  have hmap (k : Node) :
      k.findValues name = ((k.findChildren name).map Node.value).filterMap id := by
    rw [List.filterMap_map]
    rfl
  rw [hmap, hmap, map_eq_of_forall₂ (h name _ hp)]

theorem findValue (h : SameChildren p n m) (name : String) (hp : p.child? name = some .scalar) :
    n.findValue name = m.findValue name := by
  have hmap (k : Node) :
      k.findValue name = ((k.findChildren name).map Node.value).head?.bind id := by
    rw [Node.findValue, findChild_eq_head?, List.head?_map, Option.bind_map]
    rfl
  rw [hmap, hmap, map_eq_of_forall₂ (h name _ hp)]

theorem readScalars {α : Type} (h : SameChildren p n m) (name : String)
    (hp : p.child? name = some .scalar) (what : String) (read : String → Option α) :
    n.readScalars what read name = m.readScalars what read name := by
  rw [Node.readScalars, Node.readScalars, h.findValues name hp]

theorem records (h : SameChildren p n m) (name : String) (hp : p.child? name = some (.record c)) :
    (n.findChildren name).mapM (Record.ofNode c) = (m.findChildren name).mapM (Record.ofNode c) :=
  mapM_of_map_eq (map_eq_of_forall₂ (h name _ hp))

end SameChildren

theorem readLimits_of_forall₂ {nodes nodes' : List Node}
    (h : List.Forall₂ (SameReading .limit) nodes nodes') (limits : List (Phase × Int)) :
    readLimits limits nodes = readLimits limits nodes' := by
  induction h generalizing limits with
  | nil => rfl
  | cons hn _ ih =>
    rw [readLimits, readLimits, hn.1, hn.2]
    simp only [ih]

section Children

variable {n m : Node} {c : RecordClass}

theorem child?_of_mem {f : FieldSpec} (hf : f ∈ c.fields) :
    (Place.record c).child? f.name = some (.ofShape f.shape) := by
  rw [Place.child?, c.field?_name hf]
  rfl

theorem SameChildren.readChildren (h : SameChildren (.record c) n m) {f : FieldSpec}
    (hf : f ∈ c.fields) :
    Record.readChildren (Record.knownChildren c n.children) f =
      Record.readChildren (Record.knownChildren c m.children) f := by
  have hplace := child?_of_mem hf
  by_cases hs : ∃ inner, f.shape = .record inner
  · obtain ⟨inner, hs⟩ := hs
    rw [hs] at hplace
    rw [Record.readChildren_of_record _ hs, Record.readChildren_of_record _ hs,
      Record.childRecords_knownChildren (c.field?_name hf) hs,
      Record.childRecords_knownChildren (c.field?_name hf) hs]
    exact congrArg _ (h.records f.name hplace)
  · have hs : ∀ inner, f.shape ≠ .record inner := fun inner hi => hs ⟨inner, hi⟩
    have hscalar : Place.ofShape f.shape = .scalar := by
      unfold Place.ofShape
      split
      · next inner hi => exact absurd hi (hs inner)
      · rfl
    rw [hscalar] at hplace
    rw [Record.readChildren_of_text _ hs, Record.readChildren_of_text _ hs,
      Record.childTexts_knownChildren (c.field?_name hf) hs,
      Record.childTexts_knownChildren (c.field?_name hf) hs]
    exact congrArg (fun texts => Except.ok (Record.checkTexts f texts)) (h.findValues f.name hplace)

theorem SameChildren.ofNode (h : SameChildren (.record c) n m) (hname : n.name = m.name) :
    Record.ofNode c n = Record.ofNode c m := by
  have hread : c.fields.mapM (Record.readChildren (Record.knownChildren c n.children)) =
      c.fields.mapM (Record.readChildren (Record.knownChildren c m.children)) :=
    mapM_of_map_eq (List.map_congr_left fun f hf => h.readChildren hf)
  obtain ⟨name, value, valueType, children⟩ := n
  obtain ⟨name', value', valueType', children'⟩ := m
  obtain rfl : name = name' := hname
  rw [Record.ofNode, Record.ofNode, Record.ofChildren, Record.ofChildren]
  exact congrArg (· >>= _) hread

theorem lookup_layerFields (s : Slot) : Place.layerFields.lookup s.name = none := by
  cases s <;> rfl

theorem child?_of_legal {legal : List Slot} {s : Slot} (hs : s ∈ legal) :
    (Place.layer legal).child? s.name = some (.record s.recordClass) := by
  rw [Place.child?, lookup_layerFields, Option.none_or, Slot.ofName?_name, Option.bind_some,
    if_pos hs]

theorem SameChildren.readFields {legal : List Slot} (h : SameChildren (.layer legal) n m) :
    Layer.readFields n = Layer.readFields m := by
  have hlimits := readLimits_of_forall₂ (h "max_bottom_count" .limit rfl)
  simp only [Layer.readFields, LayerKind.ofNode, Node.findDoubles, Node.findBools,
    h.findValue "type" rfl, h.findValue "name" rfl,
    h.findValue "phase" rfl, h.readScalars "loss_weight" rfl,
    h.readScalars "propagate_down" rfl, h.findValues "bottom" rfl,
    h.findValues "top" rfl, h.records "param" rfl,
    h.records "blobs" rfl, h.records "include" rfl,
    h.records "exclude" rfl, hlimits]

theorem sameReading_of_children {p : Place} (h : SameChildren p n m) (hname : n.name = m.name)
    (hvalue : n.value = m.value) : SameReading p n m := by
  cases p with
  | layer legal => exact ⟨h.readFields, fun s hs => h.records s.name (child?_of_legal hs)⟩
  | limit => exact ⟨h.readScalars "count" rfl "int" Decimal.readInt?, h.findValue "phase" rfl⟩
  | record c => exact h.ofNode hname
  | scalar => exact hvalue

end Children

section Steps

variable {p : Place} {n m : Node}

theorem sameChildren_of_eq (h : ∀ name q, p.child? name = some q →
    n.findChildren name = m.findChildren name) : SameChildren p n m := by
  intro name q hq
  rw [h name q hq]
  exact List.forall₂_same.mpr fun c _ => SameReading.refl q c

theorem filter_insert {c : Node} {name : String} (hc : c.name ≠ name) (before after : List Node) :
    ((before ++ c :: after).filter fun d => d.name == name) =
      (before ++ after).filter fun d => d.name == name := by
  rw [List.filter_append, List.filter_append, List.filter_cons, if_neg (by simpa using hc)]

theorem filter_unread {c : Node} {name : String} {q : Place} {before after : List Node}
    (hc : p.child? c.name = none) (hq : p.child? name = some q) :
    ((before ++ c :: after).filter fun d => d.name == name) =
      (before ++ after).filter fun d => d.name == name := by
  refine filter_insert ?_ before after
  rintro rfl
  cases hc.symm.trans hq

theorem sameChildren_inside {q : Place} {c d : Node} {before after : List Node}
    (hn : n.children = before ++ c :: after) (hm : m.children = before ++ d :: after)
    (hname : c.name = d.name) (hq : p.child? c.name = some q) (h : SameReading q c d) :
    SameChildren p n m := by
  intro name r hr
  have hrefl (nodes : List Node) : List.Forall₂ (SameReading r) nodes nodes :=
    List.forall₂_same.mpr fun e _ => SameReading.refl r e
  rw [Node.findChildren, Node.findChildren, hn, hm]
  by_cases hc : c.name = name
  · rw [hc] at hq
    obtain rfl := Option.some.inj (hq.symm.trans hr)
    rw [List.filter_append, List.filter_append, List.filter_cons, List.filter_cons,
      if_pos (by simpa using hc), if_pos (by simpa using hname.symm.trans hc)]
    exact List.rel_append (hrefl _) (.cons h (hrefl _))
  · rw [filter_insert hc, filter_insert (hname ▸ hc)]
    exact hrefl _

theorem Node.Rearranged.same (h : Rearranged p n m) :
    n.name = m.name ∧ n.value = m.value ∧ SameReading p n m := by
  induction h with
  | refl p n => exact ⟨rfl, rfl, .refl p n⟩
  | trans _ _ ih ih' => exact ⟨ih.1.trans ih'.1, ih.2.1.trans ih'.2.1, ih.2.2.trans ih'.2.2⟩
  | reorder h =>
    refine ⟨rfl, rfl, sameReading_of_children (sameChildren_of_eq ?_) rfl rfl⟩
    intro name q _
    exact h.2 name
  | @insert p n c before after hc hn =>
    refine ⟨rfl, rfl, sameReading_of_children (sameChildren_of_eq ?_) rfl rfl⟩
    intro name q hq
    rw [findChildren, findChildren, hn]
    exact (filter_unread hc hq).symm
  | @delete p n c before after hc hn =>
    refine ⟨rfl, rfl, sameReading_of_children (sameChildren_of_eq ?_) rfl rfl⟩
    intro name q hq
    rw [findChildren, findChildren, hn]
    exact filter_unread hc hq
  | inside hq hn _ ih =>
    exact ⟨rfl, rfl, sameReading_of_children (sameChildren_inside hn rfl ih.1 hq ih.2.2) rfl rfl⟩

end Steps

def Place.ofLayer (n : Node) : Place :=
  match LayerKind.ofNode n with
  | .ok kind => .layer kind.legalSlots
  | .error _ => .layer []

theorem readSlots_congr {kind : LayerKind} {params ps : List (Slot × Record)}
    {nodes nodes' : List Node} (hp : IsArranged params)
    (h : ∀ s ∈ kind.legalSlots, slotRecords s nodes = slotRecords s nodes') :
    (readSlots kind params nodes).2 = .ok ps ↔ (readSlots kind params nodes').2 = .ok ps := by
  have hsettled (s : Slot) : settled kind params nodes s = settled kind params nodes' s := by
    unfold settled
    split
    · next hs => rw [h s hs]
    · rfl
  rw [readSlots_eq_ok_iff hp, readSlots_eq_ok_iff hp]
  simp only [hsettled]

theorem layer_of_rearranged {n m : Node} (h : Rearranged (.ofLayer n) n m) (l : Layer) :
    Layer.ofNode n = .ok l ↔ Layer.ofNode m = .ok l := by
  obtain ⟨-, -, hsame⟩ := h.same
  have hfields : readFields n = readFields m := by
    unfold Place.ofLayer at hsame
    split at hsame
    · exact hsame.1
    · exact hsame.1
  rw [Layer.ofNode, Layer.ofNode, decode, decode, ← hfields]
  cases hf : readFields n with
  | error e => rfl
  | ok k =>
    obtain ⟨hkind, hparams, -⟩ := of_readFields hf
    rw [Place.ofLayer, hkind] at hsame
    have hp : IsArranged k.params := by
      rw [hparams]
      exact isArranged_create _ _
    simp only [map_eq_ok, readSlots_congr hp hsame.2]

/-- Neither the order of children of different names nor children without a meaning have any effect
on what a block is read as, at any depth: a layer is read or refused all the same, and so is a record,
which is refused for the same reason. -/
theorem ofNode_of_rearranged :
    (∀ n m, Rearranged (.ofLayer n) n m → ∀ l, Layer.ofNode n = .ok l ↔ Layer.ofNode m = .ok l) ∧
      ∀ c n m, Rearranged (.record c) n m → Record.ofNode c n = Record.ofNode c m :=
  ⟨fun _ _ h => layer_of_rearranged h, fun _ _ _ h => h.same.2.2⟩

def writtenData : Node :=
  .block "data_param" [.leaf "batch_size" "4" .numeric, .leaf "source" "s" .string]

def shuffledData : Node :=
  .block "data_param"
    [.leaf "source" "s" .string, .leaf "extra" "1" .numeric, .leaf "batch_size" "4" .numeric]

def writtenLayer : Node :=
  .block "layer" [.leaf "name" "a" .string, .leaf "type" "Data" .string, writtenData]

def shuffledLayer : Node :=
  .block "layer"
    [.leaf "type" "Data" .string, .leaf "name" "a" .string, shuffledData, .block "note" []]

theorem rearranged_data : Rearranged (.record .data) writtenData shuffledData :=
  .trans (.reorder (.swap (by decide) [] []))
    (@Rearranged.insert _ _ (.leaf "extra" "1" .numeric) [.leaf "source" "s" .string] _
      (by decide +kernel) rfl)

theorem rearranged_layer : Rearranged (.ofLayer writtenLayer) writtenLayer shuffledLayer := by
  have hplace : Place.ofLayer writtenLayer = .layer LayerKind.data.legalSlots := by
    decide +kernel
  rw [hplace]
  refine .trans (.reorder (.swap (by decide) [] [writtenData])) ?_
  refine .trans (@Rearranged.inside _ _ _ writtenData _ [_, _] [] (by decide +kernel) rfl
    rearranged_data) ?_
  exact @Rearranged.insert _ _ _ [_, _, _] [] (by decide +kernel) rfl

theorem ofNode_of_rearranged_data :
    (∃ l, Layer.ofNode writtenLayer = .ok l ∧ Layer.ofNode shuffledLayer = .ok l) ∧
      Record.ofNode .data writtenData = Record.ofNode .data shuffledData := by
  refine ⟨?_, ofNode_of_rearranged.2 .data _ _ rearranged_data⟩
  obtain ⟨l, hl, -⟩ : ∃ l, Layer.ofNode writtenLayer = .ok l ∧ (l.kind == .data) = true :=
    exists_ok (by decide +kernel)
  exact ⟨l, hl, (ofNode_of_rearranged.1 _ _ rearranged_layer l).mp hl⟩

end Reading

end NetDesc
