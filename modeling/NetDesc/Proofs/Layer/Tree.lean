import NetDesc.Layer.Tree
import NetDesc.Proofs.Layer.Fits
import NetDesc.Proofs.Layer.Kind
import NetDesc.Proofs.Record.Tree
import NetDesc.Proofs.Tree.RoundTrip
import NetDesc.Proofs.Tree.Scalars

namespace NetDesc

open Decimal

theorem Slot.ofName?_name (s : Slot) : Slot.ofName? s.name = some s := by
  cases s <;> decide +kernel

theorem Slot.name_of_ofName? {name : String} {s : Slot} (h : Slot.ofName? name = some s) :
    s.name = name := by
  have hname := List.find?_some h
  exact LawfulBEq.eq_of_beq hname

theorem Slot.isName_name (s : Slot) : Literal.isName s.name.toList = true := by
  cases s <;> decide +kernel

namespace Node

variable {n : Node} {name : String} {α β : Type} {xs : List α} {text : α → String} {t : ValueType}

theorem findValue_of_leaf {value : String}
    (h : n.findChildren name = [.leaf name value t]) : n.findValue name = some value := by
  rw [findValue, findChild_eq_head?, h]
  rfl

theorem findValue_of_none (h : n.findChildren name = []) : n.findValue name = none := by
  rw [findValue, findChild_eq_head?, h]
  rfl

theorem findValues_of_leaves (h : n.findChildren name = xs.map fun a => .leaf name (text a) t) :
    n.findValues name = xs.map text := by
  rw [findValues, h, List.filterMap_map]
  change xs.filterMap (some ∘ text) = _
  rw [List.filterMap_eq_map]

theorem readScalars_of_leaves {kind : String} {read : String → Option β} {g : α → β}
    (h : n.findChildren name = xs.map fun a => .leaf name (text a) t)
    (hread : ∀ a ∈ xs, read (text a) = some (g a)) :
    n.readScalars kind read name = .ok (xs.map g) := by
  rw [readScalars_eq_ok, findValues_of_leaves h, List.map_map, List.map_map]
  exact List.map_congr_left hread

theorem findChildren_reread (n : Node) (name : String) :
    n.reread.findChildren name = (n.findChildren name).map reread := by
  rw [findChildren, children_reread, List.filter_map]
  simp only [Function.comp_def, name_reread]
  rfl

theorem findValue_reread (n : Node) (name : String) :
    n.reread.findValue name = n.findValue name := by
  rw [findValue, findValue, findChild_eq_head?, findChild_eq_head?, findChildren_reread,
    List.head?_map, Option.bind_map]
  simp only [Function.comp_def, value_reread]

theorem findValues_reread (n : Node) (name : String) :
    n.reread.findValues name = n.findValues name := by
  rw [findValues, findValues, findChildren_reread, List.filterMap_map]
  simp only [Function.comp_def, value_reread]

theorem readScalars_reread (n : Node) (kind : String) (read : String → Option β) (name : String) :
    n.reread.readScalars kind read name = n.readScalars kind read name := by
  rw [readScalars, readScalars, findValues_reread]

theorem findInts_reread (n : Node) (name : String) : n.reread.findInts name = n.findInts name :=
  readScalars_reread n "int" readInt? name

theorem readBool?_scalarText (b : Bool) : readBool? (Json.bool b).scalarText = some b := by
  cases b <;> rfl

end Node

namespace Layer

section Block

def fieldGroups (l : Layer) : List (String × List Node) :=
  [("name", if l.name.isEmpty then [] else [.leaf "name" l.name .string]),
    ("type", [.leaf "type" l.kind.name .string]),
    ("bottom", l.bottom.map fun s => .leaf "bottom" s .string),
    ("top", l.top.map fun s => .leaf "top" s .string),
    ("phase", l.phase.toList.map fun p => .leaf "phase" p.name .unknown),
    ("loss_weight", l.lossWeight.map fun x => .leaf "loss_weight" (format x) .numeric),
    ("param", l.parameters.map fun r => r.toNode "param"),
    ("blobs", l.blobs.map fun r => r.toNode "blobs"),
    ("propagate_down",
      l.propagateDown.map fun b => .leaf "propagate_down" (Json.bool b).scalarText .bool),
    ("include", l.includeRules.map fun r => r.toNode "include"),
    ("exclude", l.excludeRules.map fun r => r.toNode "exclude"),
    ("max_bottom_count", l.maxBottomCount.map limitNode)]

def fieldNames : List String :=
  ["name", "type", "bottom", "top", "phase", "loss_weight", "param", "blobs", "propagate_down",
    "include", "exclude", "max_bottom_count"]

def slotNodes (params : List (Slot × Record)) : List Node :=
  params.map fun p => p.2.toNode p.1.name

variable {l : Layer} {name : String}

theorem children_toNode :
    (l.toNode name).children = l.fieldGroups.flatMap Prod.snd ++ slotNodes l.params := by
  simp [toNode, fieldGroups, slotNodes, Node.block]

theorem isGrouped_fieldGroups : Node.IsGrouped l.fieldGroups where
  distinct := by
    change fieldNames.Nodup
    decide
  named := by
    simp only [fieldGroups, List.forall_mem_cons, List.forall_mem_map]
    simp [Node.leaf, Record.toNode, limitNode, Node.block]

theorem mem_fieldNames {g : String × List Node} (hg : g ∈ l.fieldGroups) : g.1 ∈ fieldNames := by
  have hm : g.1 ∈ l.fieldGroups.map Prod.fst := List.mem_map_of_mem hg
  exact hm

theorem ofName?_fieldNames : ∀ x ∈ fieldNames, Slot.ofName? x = none := by
  decide +kernel

theorem ofName?_of_mem_fieldGroups {n : Node} (hn : n ∈ l.fieldGroups.flatMap Prod.snd) :
    Slot.ofName? n.name = none := by
  obtain ⟨g, hg, hn⟩ := List.mem_flatMap.mp hn
  rw [isGrouped_fieldGroups.named g hg n hn]
  exact ofName?_fieldNames g.1 (mem_fieldNames hg)

theorem findChildren_toNode {x : String} {nodes : List Node} (h : (x, nodes) ∈ l.fieldGroups) :
    (l.toNode name).findChildren x = nodes := by
  have hslots : (slotNodes l.params).filter (fun n => n.name == x) = [] := by
    rw [List.filter_eq_nil_iff]
    intro n hn hx
    obtain ⟨p, -, rfl⟩ := List.mem_map.mp hn
    have hname : p.1.name = x := LawfulBEq.eq_of_beq hx
    -- No slot has the name of a field, since the field's name is not found among the slots.
    have hnone := ofName?_fieldNames x (mem_fieldNames h)
    rw [← hname, Slot.ofName?_name] at hnone
    cases hnone
  rw [Node.findChildren, children_toNode, List.filter_append, hslots, List.append_nil]
  exact Node.filter_groups isGrouped_fieldGroups _ h

end Block

section Limits

theorem findInts_limitNode {p : Phase × Int}
    (h : isTooLong p.2.natAbs = false) :
    (limitNode p).findInts "count" = .ok [p.2] := by
  have hv : (limitNode p).findValues "count" = [toString p.2] := rfl
  rw [Node.findInts, Node.readScalars_eq_ok, hv, List.map_cons, readInt?_toString_of_short h]
  rfl

theorem findInts_limitNode_of_tooLong {p : Phase × Int}
    (h : isTooLong p.2.natAbs = true) (counts : List Int) :
    (limitNode p).findInts "count" ≠ .ok counts := by
  have hv : (limitNode p).findValues "count" = [toString p.2] := rfl
  intro hc
  obtain ⟨m, hm⟩ := Node.readScalars_isOk_iff.mp ⟨counts, hc⟩ (toString p.2) (by simp [hv])
  rw [readInt?_toString, h] at hm
  cases hm

theorem readLimits_limitNodes {added : List (Phase × Int)}
    (h : ∀ p ∈ added, isTooLong p.2.natAbs = false)
    (limits : List (Phase × Int)) :
    readLimits limits (added.map limitNode) =
      .ok (added.foldl (fun ls p => putLimit ls p.1 p.2) limits) := by
  induction added generalizing limits with
  | nil => rfl
  | cons p added ih =>
    have hphase : (limitNode p).findValue "phase" = some p.1.name := rfl
    have hp := findInts_limitNode (h p (List.mem_cons_self ..))
    rw [List.map_cons, readLimits, hp, ok_bind, hphase]
    simp only [parsePhase_name, ok_bind]
    exact ih (fun q hq => h q (List.mem_cons_of_mem p hq)) _

end Limits

section Slots

variable {kind : LayerKind}

theorem readSlots_cons_of_none {n : Node} (hn : Slot.ofName? n.name = none) (nodes : List Node)
    (params : List (Slot × Record)) :
    readSlots kind params (n :: nodes) = readSlots kind params nodes := by
  rw [readSlots, hn]

theorem readSlots_append_of_none {before : List Node}
    (h : ∀ n ∈ before, Slot.ofName? n.name = none) (nodes : List Node)
    (params : List (Slot × Record)) :
    readSlots kind params (before ++ nodes) = readSlots kind params nodes := by
  induction before with
  | nil => rfl
  | cons n before ih =>
    rw [List.cons_append, readSlots_cons_of_none (h n (List.mem_cons_self ..)),
      ih fun m hm => h m (List.mem_cons_of_mem n hm)]

theorem readSlots_cons_of_ok {n : Node} {s : Slot} {r : Record} (hn : Slot.ofName? n.name = some s)
    (hs : s ∈ kind.legalSlots) (hr : Record.ofNode s.recordClass n = .ok r) (nodes : List Node)
    (params : List (Slot × Record)) :
    readSlots kind params (n :: nodes) = readSlots kind (putParam params s r) nodes := by
  have hc : ¬ (!kind.legalSlots.contains s) = true := by simpa using hs
  rw [readSlots, hn]
  dsimp only
  rw [if_neg hc, hr]

theorem readSlots_slotNodes {added : List (Slot × Record)}
    (h : ∀ p ∈ added, p.1 ∈ kind.legalSlots ∧ p.2.fits Json.isSpelled p.1.recordClass = true)
    (params : List (Slot × Record)) :
    readSlots kind params (slotNodes added) =
      ([], .ok ((rereadParams .tree added).foldl (fun ps p => putParam ps p.1 p.2) params)) := by
  induction added generalizing params with
  | nil => rfl
  | cons p added ih =>
    obtain ⟨hs, hr⟩ := h p (List.mem_cons_self ..)
    have hn : Slot.ofName? (p.2.toNode p.1.name).name = some p.1 := p.1.ofName?_name
    rw [slotNodes, List.map_cons, readSlots_cons_of_ok hn hs (Record.ofNode_toNode hr _)]
    exact ih (fun q hq => h q (List.mem_cons_of_mem p hq)) _

end Slots

section Decoding

structure IsComplete (l : Layer) : Prop where
  slots : l.kind.spec.slots ⊆ l.params.map Prod.fst
  limits : l.kind.spec.maxBottom.map Prod.fst ⊆ l.maxBottomCount.map Prod.fst

variable {l : Layer}

theorem findValues_toNode {x : String} {texts : List String} (name : String)
    (h : (x, texts.map fun s => .leaf x s .string) ∈ l.fieldGroups) :
    (l.toNode name).findValues x = texts := by
  rw [Node.findValues_of_leaves (findChildren_toNode h)]
  exact List.map_id texts

theorem readScalars_toNode {α β : Type} {x : String} {xs : List α} {kind : String}
    {read : String → Option β} {g : α → β} (name : String) (text : α → String) (t : ValueType)
    (h : (x, xs.map fun a => .leaf x (text a) t) ∈ l.fieldGroups)
    (hread : ∀ a ∈ xs, read (text a) = some (g a)) :
    (l.toNode name).readScalars kind read x = .ok (xs.map g) :=
  Node.readScalars_of_leaves (findChildren_toNode h) hread

theorem readRecords_toNode {x : String} {rs : List Record} {c : RecordClass} (name : String)
    (h : (x, rs.map fun r => r.toNode x) ∈ l.fieldGroups)
    (hf : ∀ r ∈ rs, r.fits Json.isSpelled c = true) :
    ((l.toNode name).findChildren x).mapM (Record.ofNode c) =
      .ok (rs.map (Record.reread .tree)) := by
  rw [findChildren_toNode h]
  apply mapM_map_of_ok
  intro r hr
  exact Record.ofNode_toNode (hf r hr) x

theorem name_toNode (name : String) : ((l.toNode name).findValue "name").getD "" = l.name := by
  have hc : (l.toNode name).findChildren "name" =
      if l.name.isEmpty then [] else [.leaf "name" l.name .string] :=
    findChildren_toNode (by simp [fieldGroups])
  by_cases he : l.name.isEmpty = true
  · rw [if_pos he] at hc
    rw [Node.findValue_of_none hc]
    exact (String.isEmpty_iff.mp he).symm
  · rw [if_neg he] at hc
    rw [Node.findValue_of_leaf hc]
    rfl

theorem kind_toNode (name : String) : LayerKind.ofNode (l.toNode name) = .ok l.kind := by
  apply LayerKind.ofNode_of_findValue
  apply Node.findValue_of_leaf
  exact findChildren_toNode (by simp [fieldGroups]; rfl)

theorem phase_toNode (name : String) :
    ((l.toNode name).findValue "phase").mapM parsePhase = .ok l.phase := by
  have hc : (l.toNode name).findChildren "phase" =
      l.phase.toList.map fun p => .leaf "phase" p.name .unknown :=
    findChildren_toNode (by simp [fieldGroups])
  cases hp : l.phase with
  | none =>
    rw [hp] at hc
    rw [Node.findValue_of_none hc]
    rfl
  | some p =>
    rw [hp] at hc
    rw [Node.findValue_of_leaf hc]
    rw [Option.mapM_some, parsePhase_name]
    rfl

theorem readFields_toNode (h : l.Fits Json.isSpelled)
    (hcounts : ∀ p ∈ l.maxBottomCount, isTooLong p.2.natAbs = false)
    (name : String) :
    readFields (l.toNode name) = .ok { l.reread .tree with
      maxBottomCount :=
        l.maxBottomCount.foldl (fun ls p => putLimit ls p.1 p.2) l.kind.spec.maxBottom
      params := (create l.kind l.name).params } := by
  have hbottom : (l.toNode name).findValues "bottom" = l.bottom :=
    findValues_toNode name (by simp [fieldGroups])
  have htop : (l.toNode name).findValues "top" = l.top :=
    findValues_toNode name (by simp [fieldGroups])
  have hweights : (l.toNode name).findDoubles "loss_weight" =
      .ok (l.lossWeight.map Double.canonical) := by
    apply readScalars_toNode name format .numeric (by simp [fieldGroups])
    intro x _
    exact readDouble?_format x
  have hdown : (l.toNode name).findBools "propagate_down" = .ok (l.propagateDown.map id) := by
    apply readScalars_toNode name (fun b => (Json.bool b).scalarText) .bool (by simp [fieldGroups])
    intro b _
    exact Node.readBool?_scalarText b
  rw [List.map_id] at hdown
  have hlimits := readLimits_limitNodes hcounts l.kind.spec.maxBottom
  have hfound : (l.toNode name).findChildren "max_bottom_count" = l.maxBottomCount.map limitNode :=
    findChildren_toNode (by simp [fieldGroups])
  unfold readFields
  rw [kind_toNode, ok_bind, name_toNode, phase_toNode, ok_bind, hweights, ok_bind,
    readRecords_toNode name (by simp [fieldGroups]) h.parameters, ok_bind,
    readRecords_toNode name (by simp [fieldGroups]) h.blobs, ok_bind, hdown, ok_bind,
    readRecords_toNode name (by simp [fieldGroups]) h.includeRules, ok_bind,
    readRecords_toNode name (by simp [fieldGroups]) h.excludeRules, ok_bind, hfound]
  change readLimits l.kind.spec.maxBottom _ >>= _ = _
  rw [hlimits, ok_bind, hbottom, htop]
  simp only [reread, h.solverCount, h.solverRank]
  rfl

theorem decode_of_ok {n : Node} {m : Layer} {params : List (Slot × Record)}
    (hf : readFields n = .ok m)
    (hs : readSlots m.kind m.params n.children = ([], .ok params)) :
    decode n = ([], .ok { m with params := params }) := by
  rw [decode, hf]
  dsimp only
  rw [hs]
  rfl

theorem decode_toNode (h : l.Fits Json.isSpelled)
    (hslots : l.kind.spec.slots ⊆ l.params.map Prod.fst)
    (hcounts : ∀ p ∈ l.maxBottomCount, isTooLong p.2.natAbs = false)
    (name : String) :
    decode (l.toNode name) = ([], .ok { l.reread .tree with
      maxBottomCount :=
        l.maxBottomCount.foldl (fun ls p => putLimit ls p.1 p.2) l.kind.spec.maxBottom }) := by
  have harranged : IsArranged (rereadParams .tree l.params) := by
    rw [IsArranged, keys_rereadParams]
    exact h.arranged
  -- The records of the new layer are all overwritten: each of their slots is among those read.
  have hsub : (create l.kind l.name).params.map Prod.fst ⊆
      (rereadParams .tree l.params).map Prod.fst := by
    rw [keys_rereadParams]
    exact List.Subset.trans (keys_create l.kind l.name) hslots
  have hread := readSlots_slotNodes h.params (create l.kind l.name).params
  rw [foldl_putParam_eq (isArranged_create l.kind l.name) harranged hsub] at hread
  apply decode_of_ok (readFields_toNode h hcounts name)
  rw [children_toNode, readSlots_append_of_none fun n hn => ofName?_of_mem_fieldGroups hn]
  exact hread

end Decoding

section Conversely

theorem findInts_of_readLimits {nodes : List Node} {limits ls : List (Phase × Int)}
    (h : readLimits limits nodes = .ok ls) :
    ∀ n ∈ nodes, ∃ counts, n.findInts "count" = .ok counts := by
  induction nodes generalizing limits with
  | nil =>
    intro n hn
    cases hn
  | cons n nodes ih =>
    obtain ⟨counts, hc, h⟩ := bind_eq_ok.mp h
    have hrest : ∃ rest, readLimits rest nodes = .ok ls := by
      split at h
      · obtain ⟨p, -, h⟩ := bind_eq_ok.mp h
        exact ⟨_, h⟩
      · exact ⟨_, h⟩
    obtain ⟨rest, hrest⟩ := hrest
    intro m hm
    rcases List.mem_cons.mp hm with rfl | hm
    · exact ⟨counts, hc⟩
    · exact ih hrest m hm

theorem of_readFields {n : Node} {m : Layer} (h : readFields n = .ok m) :
    LayerKind.ofNode n = .ok m.kind ∧ m.params = (create m.kind m.name).params ∧
      ∀ c ∈ n.findChildren "max_bottom_count", ∃ counts, c.findInts "count" = .ok counts := by
  obtain ⟨kind, hk, h⟩ := bind_eq_ok.mp h
  obtain ⟨phase, -, h⟩ := bind_eq_ok.mp h
  obtain ⟨lossWeight, -, h⟩ := bind_eq_ok.mp h
  obtain ⟨parameters, -, h⟩ := bind_eq_ok.mp h
  obtain ⟨blobs, -, h⟩ := bind_eq_ok.mp h
  obtain ⟨propagateDown, -, h⟩ := bind_eq_ok.mp h
  obtain ⟨includeRules, -, h⟩ := bind_eq_ok.mp h
  obtain ⟨excludeRules, -, h⟩ := bind_eq_ok.mp h
  obtain ⟨limits, hl, h⟩ := bind_eq_ok.mp h
  cases h
  exact ⟨hk, rfl, findInts_of_readLimits hl⟩

theorem of_readSlots_cons {kind : LayerKind} {n : Node} {nodes : List Node}
    {params ps : List (Slot × Record)} (h : (readSlots kind params (n :: nodes)).2 = .ok ps) :
    (∀ s, Slot.ofName? n.name = some s → s ∈ kind.legalSlots →
      ∃ r, Record.ofNode s.recordClass n = .ok r) ∧
      ∃ rest, (readSlots kind rest nodes).2 = .ok ps := by
  cases hn : Slot.ofName? n.name with
  | none =>
    rw [readSlots_cons_of_none hn] at h
    refine ⟨?_, params, h⟩
    intro s hs
    cases hs
  | some t =>
    rw [readSlots, hn] at h
    dsimp only at h
    split at h
    · next hc =>
      refine ⟨fun s hs hlegal => ?_, params, h⟩
      cases hs
      simp [hlegal] at hc
    · cases hr : Record.ofNode t.recordClass n with
      | error e =>
        rw [hr] at h
        cases h
      | ok r =>
        rw [hr] at h
        refine ⟨fun s hs _ => ?_, _, h⟩
        cases hs
        exact ⟨r, hr⟩

theorem ofNode_of_readSlots {kind : LayerKind} {nodes : List Node} {params ps : List (Slot × Record)}
    (h : (readSlots kind params nodes).2 = .ok ps) :
    ∀ n ∈ nodes, ∀ s, Slot.ofName? n.name = some s → s ∈ kind.legalSlots →
      ∃ r, Record.ofNode s.recordClass n = .ok r := by
  induction nodes generalizing params with
  | nil =>
    intro n hn
    cases hn
  | cons n nodes ih =>
    obtain ⟨hfirst, rest, hrest⟩ := of_readSlots_cons h
    intro m hm
    rcases List.mem_cons.mp hm with rfl | hm
    · exact hfirst
    · exact ih hrest m hm

theorem of_decode {n : Node} {m : Layer} (h : (decode n).2 = .ok m) :
    LayerKind.ofNode n = .ok m.kind ∧
      (∀ c ∈ n.findChildren "max_bottom_count", ∃ counts, c.findInts "count" = .ok counts) ∧
      ∀ c ∈ n.children, ∀ s, Slot.ofName? c.name = some s → s ∈ m.kind.legalSlots →
        ∃ r, Record.ofNode s.recordClass c = .ok r := by
  cases hf : readFields n with
  | error e =>
    rw [decode, hf] at h
    cases h
  | ok l =>
    rw [decode, hf] at h
    obtain ⟨ps, hps, rfl⟩ := map_eq_ok.mp h
    obtain ⟨hk, -, hl⟩ := of_readFields hf
    exact ⟨hk, hl, ofNode_of_readSlots hps⟩

variable {l m : Layer}

theorem decode_toNode_of_count {p : Phase × Int} (hp : p ∈ l.maxBottomCount)
    (h : isTooLong p.2.natAbs = true) (name : String) :
    (decode (l.toNode name)).2 ≠ .ok m := by
  intro hm
  obtain ⟨-, hcounts, -⟩ := of_decode hm
  have hc : limitNode p ∈ (l.toNode name).findChildren "max_bottom_count" := by
    rw [findChildren_toNode (x := "max_bottom_count") (by simp [fieldGroups]; rfl)]
    exact List.mem_map_of_mem hp
  obtain ⟨counts, hi⟩ := hcounts _ hc
  exact findInts_limitNode_of_tooLong h counts hi

theorem decode_toNode_of_param {p : Slot × Record} (hp : p ∈ l.params)
    (hs : p.1 ∈ l.kind.legalSlots) {name : String}
    (h : ∀ r, Record.ofNode p.1.recordClass (p.2.toNode p.1.name) ≠ .ok r) :
    (decode (l.toNode name)).2 ≠ .ok m := by
  intro hm
  obtain ⟨hk, -, hread⟩ := of_decode hm
  rw [kind_toNode] at hk
  obtain ⟨r, hr⟩ := hread (p.2.toNode p.1.name) (by
    rw [children_toNode]
    exact List.mem_append_right _ (List.mem_map_of_mem hp)) p.1 p.1.ofName?_name
    (Except.ok.inj hk ▸ hs)
  exact h r hr

end Conversely

section Rereading

theorem readLimits_reread (nodes : List Node) (limits : List (Phase × Int)) :
    readLimits limits (nodes.map Node.reread) = readLimits limits nodes := by
  induction nodes generalizing limits with
  | nil => rfl
  | cons n nodes ih =>
    rw [List.map_cons, readLimits, readLimits]
    simp only [Node.findInts_reread, Node.findValue_reread, ih]

theorem readSlots_reread (kind : LayerKind) (nodes : List Node) (params : List (Slot × Record)) :
    readSlots kind params (nodes.map Node.reread) = readSlots kind params nodes := by
  induction nodes generalizing params with
  | nil => rfl
  | cons n nodes ih =>
    rw [List.map_cons, readSlots, readSlots]
    simp only [Node.name_reread, Record.ofNode_reread, ih]

theorem readFields_reread (n : Node) : readFields n.reread = readFields n := by
  have hrecords (c : RecordClass) (nodes : List Node) :
      (nodes.map Node.reread).mapM (Record.ofNode c) = nodes.mapM (Record.ofNode c) := by
    rw [List.mapM_map]
    exact congrArg nodes.mapM (funext (Record.ofNode_reread c))
  simp only [readFields, LayerKind.ofNode, Node.findValue_reread, Node.findValues_reread,
    Node.findDoubles, Node.findBools, Node.readScalars_reread, Node.findChildren_reread, hrecords,
    readLimits_reread]

theorem decode_reread (n : Node) : decode n.reread = decode n := by
  simp only [decode, readFields_reread, Node.children_reread, readSlots_reread]

end Rereading

section Again

variable {l : Layer} {m : Rereading} {test : Json → Bool}

theorem toNodes_reread (hm : m.KeepsText) {rs : List Record} {c : RecordClass}
    (h : ∀ r ∈ rs, r.fits test c = true) (name : String) :
    (rs.map (Record.reread m)).map (fun r => r.toNode name) = rs.map fun r => r.toNode name := by
  rw [List.map_map]
  apply List.map_congr_left
  intro r hr
  exact Record.toNode_reread hm (h r hr) name

theorem slotNodes_reread (hm : m.KeepsText) {params : List (Slot × Record)}
    (h : ∀ p ∈ params, p.2.fits test p.1.recordClass = true) :
    slotNodes (rereadParams m params) = slotNodes params := by
  rw [slotNodes, slotNodes, rereadParams, List.map_map]
  apply List.map_congr_left
  intro p hp
  exact Record.toNode_reread hm (h p hp) p.1.name

theorem toNode_reread (hm : m.KeepsText) (h : l.Fits test) (name : String) :
    (l.reread m).toNode name = l.toNode name := by
  have hweights : (l.lossWeight.map m.number).map (fun x => .leaf "loss_weight" (format x) .numeric) =
      l.lossWeight.map fun x => Node.leaf "loss_weight" (format x) .numeric := by
    rw [List.map_map]
    exact List.map_congr_left fun x _ => congrArg (fun t => Node.leaf "loss_weight" t .numeric) (hm x)
  have hslots := slotNodes_reread hm fun p hp => (h.params p hp).2
  rw [slotNodes, slotNodes] at hslots
  simp only [toNode, reread, hweights, toNodes_reread hm h.parameters, toNodes_reread hm h.blobs,
    toNodes_reread hm h.includeRules, toNodes_reread hm h.excludeRules, hslots]
  rfl

end Again

section Text

open Literal Node

variable {l : Layer}

theorem isWritable_string {name value : String} (hn : isName name.toList = true) :
    IsWritable (.leaf name value .string) :=
  .leaf hn (.inl rfl)

theorem isWritable_word {name value : String} {t : ValueType} (hn : isName name.toList = true)
    (hv : isBareWord value.toList = true) : IsWritable (.leaf name value t) :=
  .leaf hn (.inr hv)

theorem isBareWord_phase (p : Phase) : isBareWord p.name.toList = true := by
  cases p <;> decide

theorem isBareWord_bool (b : Bool) : isBareWord (Json.bool b).scalarText.toList = true := by
  cases b <;> decide

theorem isWritable_limitNode (limit : Phase × Int) : IsWritable (limitNode limit) := by
  apply IsWritable.block (by decide)
  rw [List.forall_mem_cons, List.forall_mem_singleton]
  constructor
  · exact isWritable_word (by decide) (isBareWord_phase limit.1)
  · exact isWritable_word (by decide) (isBareWord_toString limit.2)

theorem isWritable_fieldGroups (h : l.Fits Json.isSpelled) :
    ∀ g ∈ l.fieldGroups, ∀ n ∈ g.2, IsWritable n := by
  simp only [fieldGroups, List.forall_mem_cons, List.forall_mem_map, List.not_mem_nil,
    false_implies, implies_true, and_true]
  refine ⟨?_, isWritable_string (by decide), fun s _ => isWritable_string (by decide),
    fun s _ => isWritable_string (by decide),
    fun p _ => isWritable_word (by decide) (isBareWord_phase p),
    fun x _ => isWritable_word (by decide) (isBareWord_format x),
    fun r hr => Record.isWritable_toNode (h.parameters r hr) (by decide),
    fun r hr => Record.isWritable_toNode (h.blobs r hr) (by decide),
    fun b _ => isWritable_word (by decide) (isBareWord_bool b),
    fun r hr => Record.isWritable_toNode (h.includeRules r hr) (by decide),
    fun r hr => Record.isWritable_toNode (h.excludeRules r hr) (by decide),
    fun p _ => isWritable_limitNode p⟩
  split
  · intro n hn
    cases hn
  · intro n hn
    rw [List.mem_singleton.mp hn]
    exact isWritable_string (by decide)

theorem isWritable_toNode (h : l.Fits Json.isSpelled) : IsWritable (l.toNode "layer") := by
  change IsWritable ⟨"layer", none, .unknown, (l.toNode "layer").children⟩
  apply IsWritable.block (by decide)
  rw [children_toNode]
  intro n hn
  rcases List.mem_append.mp hn with hn | hn
  · obtain ⟨g, hg, hn⟩ := List.mem_flatMap.mp hn
    exact isWritable_fieldGroups h g hg n hn
  · obtain ⟨p, hp, rfl⟩ := List.mem_map.mp hn
    exact Record.isWritable_toNode (h.params p hp).2 p.1.isName_name

theorem encode_of_fits (h : l.Fits Json.isSpelled)
    (hcounts : ∀ p ∈ l.maxBottomCount, isTooLong p.2.natAbs = false) (name : String) :
    l.encode name = .ok (l.toNode name) := by
  have hrecords : l.records.all Record.isWritable = true := by
    simp only [records, List.all_append, List.all_map, Bool.and_eq_true, List.all_eq_true]
    exact ⟨⟨⟨⟨fun r hr => Record.isWritable_of_fits (h.parameters r hr),
      fun r hr => Record.isWritable_of_fits (h.blobs r hr)⟩,
      fun r hr => Record.isWritable_of_fits (h.includeRules r hr)⟩,
      fun r hr => Record.isWritable_of_fits (h.excludeRules r hr)⟩,
      fun p hp => Record.isWritable_of_fits (h.params p hp).2⟩
  have hlimits : (l.maxBottomCount.all fun p => !isTooLong p.2.natAbs) = true :=
    List.all_eq_true.mpr fun p hp => by rw [hcounts p hp]; rfl
  rw [encode, isWritable, hrecords, hlimits]
  rfl

theorem decode_roundTrip (h : l.Fits Json.isWritten) (hl : l.IsComplete)
    (hcounts : ∀ p ∈ l.maxBottomCount, isTooLong p.2.natAbs = false) :
    ∃ n m, l.encode "layer" = .ok n ∧ decode n = ([], .ok m) ∧ l.same m = true ∧
      ∃ text n', serialize n = .ok text ∧ parse text = .ok (.root [n']) ∧
        decode n' = ([], .ok m) := by
  have hs := h.mono fun _ => Json.isSpelled_of_isWritten
  have hread := decode_toNode hs hl.slots hcounts "layer"
  -- The limits of the new layer come first, so that only the order may differ.
  have hlimit := sameLimits_foldl_putLimit (nodup_maxBottom l.kind) h.limits hl.limits
  have hroot : (l.toNode "layer").name ≠ rootName := by
    change "layer" ≠ "root"
    decide
  obtain ⟨text, ht, hp⟩ := (isWritable_toNode hs).parse_serialize hroot
  refine ⟨_, _, encode_of_fits hs hcounts "layer", hread,
    same_reread Rereading.keeps_tree h hlimit, text, _, ht, hp, ?_⟩
  rw [decode_reread, hread]

def fillerOf (type : String) (std : Decimal.Double) : Value :=
  (((Record.standard .filler).put "type" (.plain (.text type))).put "std"
    (.plain (.float std))).value

def shapeOf (dims : List Int) : Value :=
  ((Record.standard .blobShape).put "dim" (.list (dims.map fun d => .plain (.int d)))).value

def gaussianConvolution : Layer :=
  { create .convolution "conv \"1\"" with
    bottom := ["data", "mask"]
    top := ["conv"]
    phase := some .train
    lossWeight := [0.1, -1e22]
    parameters := [(Record.standard .paramSpec).put "name" (.plain (.text "shared")),
      (Record.standard .paramSpec).put "lr_mult" (.plain (.float 2.0))]
    blobs := [((Record.standard .blob).put "shape" (shapeOf [2, -3])).put "data"
      (.list [.plain (.float 0.5), .plain (.float (-0.0))])]
    propagateDown := [true, false]
    includeRules := [(Record.standard .stateRule).put "phase" (.choice "TRAIN")]
    excludeRules := [(Record.standard .stateRule).put "stage"
      (.list [.plain (.text "deploy"), .plain (.text "")])]
    maxBottomCount := [(.run, 1), (.train, 2)]
    params := [(.convolution, ((Record.standard .convolution).put "kernel_size"
      (.list [.plain (.int 3), .plain (.int 5)])).put "weight_filler"
        (fillerOf "gaussian" 0.01))] }

theorem fits_gaussianConvolution : gaussianConvolution.Fits Json.isWritten where
  lossWeight := by decide +kernel
  parameters := by decide +kernel
  blobs := by decide +kernel
  includeRules := by decide +kernel
  excludeRules := by decide +kernel
  limits := by decide
  arranged := by
    change [Slot.convolution].Sublist Slot.every
    decide
  params := by decide +kernel
  solverCount := rfl
  solverRank := rfl

theorem decode_roundTrip_convolution :
    ∃ n m, gaussianConvolution.encode "layer" = .ok n ∧ decode n = ([], .ok m) ∧
      gaussianConvolution.same m = true ∧
      ∃ text n', serialize n = .ok text ∧ parse text = .ok (.root [n']) ∧
        decode n' = ([], .ok m) := by
  have hl : gaussianConvolution.IsComplete := ⟨by decide +kernel, by decide +kernel⟩
  exact decode_roundTrip fits_gaussianConvolution hl (by decide +kernel)

def along (axis : Int) : Layer :=
  { create .innerProduct "ip" with
    params := [(.innerProduct, (Record.standard .innerProduct).put "axis" (.plain (.int axis)))] }

theorem fits_along (axis : Int) : (along axis).Fits Json.isNumeric :=
  { fits_create .innerProduct "ip" with
    arranged := by
      change [Slot.innerProduct].Sublist Slot.every
      decide
    params := by
      have hlegal : Slot.innerProduct ∈ LayerKind.innerProduct.legalSlots := by
        decide
      intro p hp
      obtain rfl := List.mem_singleton.mp hp
      exact ⟨hlegal, rfl⟩ }

theorem isComplete_along (axis : Int) : (along axis).IsComplete where
  slots := by
    change LayerKind.innerProduct.spec.slots ⊆ [Slot.innerProduct]
    decide
  limits := List.nil_subset _

theorem ofNode_axis {text : String} {e : FieldFault}
    (h : Record.valueOfText (.int .any) text = .error e) (r : Record) :
    Record.ofNode .innerProduct (.block "inner_product_param" [.leaf "axis" text .numeric]) ≠
      .ok r := by
  have hn : Record.ofNode .innerProduct
      (.block "inner_product_param" [.leaf "axis" text .numeric]) =
      (Record.assemble .innerProduct
        [("axis", oneFault (Record.valueOfText (.int .any) text))]).mapError
        (Failure.ofFaults "inner_product_param") := rfl
  rw [hn, h]
  intro hr
  cases hr

theorem encode_along {axis : Int} (h : isTooLong axis.natAbs = true) :
    (along axis).encode "layer" = .error (.badLiteral .unwritten) := by
  have hrecords : (along axis).records =
      [(Record.standard .innerProduct).put "axis" (.plain (.int axis))] := rfl
  have hjson : ((Record.standard .innerProduct).put "axis" (.plain (.int axis))).toJson =
      [("axis", .int axis)] := rfl
  have hobject : (Json.object [("axis", .int axis)]).isWritable = false := by
    rw [Json.isWritable, Json.isWritableFields, Json.isWritable_int, h]
    rfl
  have hw : (along axis).isWritable = false := by
    rw [isWritable, hrecords, List.all_cons, Record.isWritable, hjson, hobject]
    rfl
  rw [encode, hw]
  rfl

theorem decode_along {axis : Int} (h : isTooLong axis.natAbs = true) (m : Layer) :
    (decode ((along axis).toNode "layer")).2 ≠ .ok m := by
  have hlegal : Slot.innerProduct ∈ LayerKind.innerProduct.legalSlots := by
    decide
  apply decode_toNode_of_param (List.mem_singleton.mpr rfl) hlegal
  exact ofNode_axis (Record.valueOfText_tooLong h .any)

def limited (count : Int) : Layer :=
  { create .knn "near" with maxBottomCount := [(.run, count)] }

theorem fits_limited (count : Int) : (limited count).Fits Json.isNumeric :=
  { fits_create .knn "near" with limits := List.nodup_singleton _ }

theorem isComplete_limited (count : Int) : (limited count).IsComplete where
  slots := by
    change LayerKind.knn.spec.slots ⊆ (create .knn "near").params.map Prod.fst
    decide +kernel
  limits := by
    change LayerKind.knn.spec.maxBottom.map Prod.fst ⊆ [Phase.run]
    decide

theorem encode_limited {count : Int} (h : isTooLong count.natAbs = true) :
    (limited count).encode "layer" = .error (.badLiteral .unwritten) := by
  have hw : (limited count).isWritable = false := by
    have hlimits : (limited count).maxBottomCount = [(.run, count)] := rfl
    simp [isWritable, hlimits, h]
  rw [encode, hw]
  rfl

theorem decode_limited {count : Int} (h : isTooLong count.natAbs = true) (m : Layer) :
    (decode ((limited count).toNode "layer")).2 ≠ .ok m := by
  have hc : (Phase.run, count) ∈ (limited count).maxBottomCount := List.mem_singleton.mpr rfl
  exact decode_toNode_of_count hc h "layer"

/-- One digit too many, in a record and in a limit: the layer has no block, and a block with the number
in it is not read. -/
theorem encode_tooLong :
    ((along (tenTo 4300)).Fits Json.isNumeric ∧ (along (tenTo 4300)).IsComplete ∧
      (along (tenTo 4300)).encode "layer" = .error (.badLiteral .unwritten) ∧
      ∀ m, (decode ((along (tenTo 4300)).toNode "layer")).2 ≠ .ok m) ∧
    ((limited (tenTo 4300)).Fits Json.isNumeric ∧ (limited (tenTo 4300)).IsComplete ∧
      (limited (tenTo 4300)).encode "layer" = .error (.badLiteral .unwritten) ∧
      ∀ m, (decode ((limited (tenTo 4300)).toNode "layer")).2 ≠ .ok m) := by
  have hlong : isTooLong (tenTo 4300 : Int).natAbs = true := by
    decide +kernel
  exact ⟨⟨fits_along _, isComplete_along _, encode_along hlong, decode_along hlong⟩,
    fits_limited _, isComplete_limited _, encode_limited hlong, decode_limited hlong⟩

end Text

end Layer

end NetDesc
