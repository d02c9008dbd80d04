import NetDesc.Proofs.Decimal.Length
import NetDesc.Proofs.Network.Bottoms
import NetDesc.Proofs.Tree.Places

namespace NetDesc.Network

open Node

section Dimensions

theorem values_setDims (cs : List Node) (ds : List Int) :
    ((setDims cs ds).filter fun c => c.name == "dim").filterMap (·.value) =
      ds.map toString ++ ((cs.filter fun c => c.name == "dim").drop ds.length).filterMap (·.value) := by
  -- For any dimensions, since each child of their name uses one up.
  induction cs generalizing ds with
  | nil =>
    cases ds with
    | nil => rfl
    | cons d ds =>
      have hself : ((d :: ds).map fun d => scalar "dim" (toString d)).filter (fun c => c.name == "dim") =
          (d :: ds).map fun d => scalar "dim" (toString d) :=
        filter_eq_self_of_name fun c hc => by
          obtain ⟨e, -, rfl⟩ := List.mem_map.mp hc
          rfl
      rw [setDims, hself, List.filterMap_map]
      · simp [scalar, leaf]
      · simp
  | cons c cs ih =>
    cases ds with
    | nil => simp [setDims]
    | cons d ds =>
      by_cases hc : c.name = "dim"
      · have hvalue : (c.withValue (toString d) .numeric).value = some (toString d) := rfl
        rw [setDims, if_pos hc, List.filter_cons_of_pos (by simpa [withValue] using hc),
          List.filterMap_cons_some hvalue, ih, List.filter_cons_of_pos (by simpa using hc)]
        rfl
      · rw [setDims, if_neg hc, List.filter_cons_of_neg (by simpa using hc), ih,
          List.filter_cons_of_neg (by simpa using hc)]

end Dimensions

section Declaration

variable {name key suffix : String} {dims : List Int} {m : Node}

theorem findChild_declareName (place : Nat) (name : String) (m : Node) :
    (declareName place name m).findChild "input" =
      some ((m.findChild "input").elim (leaf "input" name .string) fun c =>
        c.withValue name .string) := by
  rw [declareName]
  cases hi : m.findChild "input" with
  | some c =>
    rw [if_pos Option.isSome_some,
      findChild_modifyChild (f := fun c => c.withValue name .string) fun _ => rfl, hi]
    rfl
  | none => exact findChild_insert_self hi rfl _

theorem findChild_declareShape (place : Nat) (dims : List Int) (m : Node) :
    (declareShape place dims m).findChild "input_shape" =
      some ((m.findChild "input_shape").elim (block "input_shape" (setDims [] dims)) fun s =>
        { s with children := setDims s.children dims }) := by
  rw [declareShape]
  cases hs : m.findChild "input_shape" with
  | some s =>
    rw [if_pos Option.isSome_some,
      findChild_modifyChild (f := fun s => { s with children := setDims s.children dims })
        fun _ => rfl, hs]
    rfl
  | none => exact findChild_insert_self hs rfl _

theorem childNames_declareName (hi : m.findChild "input" = none) (place : Nat) :
    (declareName place name m).childNames = insertAt place "input" m.childNames := by
  rw [declareName, hi]
  exact childNames_insert _

theorem childNames_declareShape (place : Nat) : (declareShape place dims m).childNames =
    if (m.findChild "input_shape").isSome then m.childNames
    else insertAt place "input_shape" m.childNames := by
  rw [declareShape]
  split
  · exact childNames_modifyChild (f := fun s => { s with children := setDims s.children dims })
      fun _ => rfl
  · exact childNames_insert _

theorem childNames_declareInput (hi : m.findChild "input" = none) (place : Nat) :
    (declareInput place name dims m).childNames =
      if (m.findChild "input_shape").isSome then insertAt place "input" m.childNames
      else insertAt (place + 1 : Nat) "input_shape" (insertAt place "input" m.childNames) := by
  rw [declareInput_eq, childNames_declareShape, findChild_declareName_of_ne (by decide),
    childNames_declareName hi, hi]
  rfl

theorem findChildIndex_declareInput (hi : m.findChild "input" = none) (place : Nat) :
    (declareInput place name dims m).findChildIndex "input" = some (min place m.children.length) := by
  have hinput : (insertAt (place : Int) "input" m.childNames).findIdx? (· == "input") =
      some (min place m.childNames.length) :=
    findIdx?_insertAt_self (by decide) (ne_of_mem_childNames hi) place
  rw [findChildIndex_eq, childNames_declareInput hi, ← length_childNames]
  split
  · exact hinput
  · exact findIdx?_insertAt_of_lt hinput (by omega)

theorem findChildIndex_name_declareInput (hi : m.findChild "input" = none) {place j : Nat}
    (hj : m.findChildIndex "name" = some j) (hlt : j < place) :
    (declareInput place name dims m).findChildIndex "name" = some j := by
  rw [findChildIndex_eq] at hj ⊢
  have hname := findIdx?_insertAt_of_lt (x := "input") hj hlt
  rw [childNames_declareInput hi]
  split
  · exact hname
  · exact findIdx?_insertAt_of_lt hname (by omega)

theorem findChildIndex_shape_declareInput (hi : m.findChild "input" = none)
    (hs : m.findChild "input_shape" = none) (place : Nat) :
    (declareInput place name dims m).findChildIndex "input_shape" =
      some (min place m.children.length + 1) := by
  have hnone : ∀ k ∈ insertAt (place : Int) "input" m.childNames, (k == "input_shape") = false := by
    intro k hk
    rcases mem_insertAt.mp hk with rfl | hk
    · decide
    · exact ne_of_mem_childNames hs k hk
  rw [findChildIndex_eq, childNames_declareInput hi, hs, ← length_childNames]
  refine (findIdx?_insertAt_self (by decide) hnone (place + 1)).trans ?_
  rw [length_insertAt, Nat.add_min_add_right]

theorem childNames_addSuffix : (addSuffix suffix m).childNames = m.childNames :=
  childNames_modifyChild fun _ => rfl

theorem findChild_addSuffix_of_ne (hk : key ≠ "name") :
    (addSuffix suffix m).findChild key = m.findChild key :=
  findChild_modifyChild_of_ne (fun _ => rfl) hk.symm

theorem findValue_declareInput (place : Nat) (name : String) (dims : List Int) (m : Node) :
    (declareInput place name dims m).findValue "input" = some name := by
  rw [declareInput_eq, findValue, findChild_declareShape_of_ne (by decide), findChild_declareName]
  cases m.findChild "input" <;> rfl

def declaredDims (m : Node) : List Node :=
  (m.findChild "input_shape").elim [] fun s => s.findChildren "dim"

theorem findValues_declareInput (place : Nat) (name : String) (dims : List Int) (m : Node) :
    ∃ s, (declareInput place name dims m).findChild "input_shape" = some s ∧
      s.findValues "dim" =
        dims.map toString ++ ((declaredDims m).drop dims.length).filterMap (·.value) := by
  rw [declareInput_eq, findChild_declareShape, findChild_declareName_of_ne (by decide), declaredDims]
  cases m.findChild "input_shape" with
  | none => exact ⟨_, rfl, values_setDims [] dims⟩
  | some s => exact ⟨_, rfl, values_setDims s.children dims⟩

theorem layers_congr {m m' : Node}
    (h : ∀ key, key = "layer" ∨ key = "layers" → m'.findChildren key = m.findChildren key) :
    layers m' = layers m := by
  have hkey : layerKey m' = layerKey m := by
    simp only [layerKey, findChild_eq_head?, h "layer" (.inl rfl), h "layers" (.inr rfl)]
  rw [layers, layers, hkey]
  exact h _ ((layerKey_eq m).imp_right fun hk => hk.1)

theorem layers_declareInput (place : Nat) :
    layers (declareInput place name dims m) = layers m := by
  refine layers_congr fun key hkey => findChildren_declareInput ?_ ?_
  · rcases hkey with rfl | rfl <;> decide
  · rcases hkey with rfl | rfl <;> decide

theorem layers_addSuffix : layers (addSuffix suffix m) = layers m := by
  refine layers_congr fun key hkey => findChildren_addSuffix ?_
  rcases hkey with rfl | rfl <;> decide

end Declaration

section Whole

variable {settings : Settings} {input : String} {shape : InputShape} {n r : Node}
  {transform : Option Node}

theorem forRunning_edits (h : forRunning settings input shape n = .ok (r, transform)) :
    ∃ new : List (Option Node),
      List.Forall₂ (fun l o => ∃ kind, Becomes n kind l o) (layers n) new ∧
      (∀ o ∈ new, ∀ l' ∈ o, ∃ l ∈ layers n, ∃ kind, Becomes n kind l o ∧ l' = inferred kind l) ∧
      (∀ d ∈ shape.dims, Decimal.isTooLong d.natAbs = false) ∧
      r = addSuffix settings.liveSuffix
        (declareInput ((n.findChildIndex "name").elim 0 (· + 1)) (inputName (withLayers n new) input)
          shape.dims (withLayers n new)) := by
  obtain ⟨scanned, hm, hall, hdims, ⟨m, rfl, hr⟩, -⟩ := forRunning_eq_declared h
  refine ⟨_, forall₂_becomes hm hall, ?_, hdims, hr⟩
  have hsoft := any_softmax_iff hm fun s hs => (hall s hs).1
  intro o ho l' hl
  obtain ⟨s, hs, rfl⟩ := List.mem_map.mp ho
  obtain ⟨ht, hr⟩ := hall s hs
  refine ⟨s.2.1, ?_, s.1.kind, becomes_settle ht hr hsoft, (mem_settle hr hl).2⟩
  rw [← hm]
  exact List.mem_map_of_mem hs

theorem name_of_becomes {new : List (Option Node)}
    (h : ∀ o ∈ new, ∀ l' ∈ o, ∃ l ∈ layers n, ∃ kind, Becomes n kind l o ∧ l' = inferred kind l) :
    ∀ o ∈ new, ∀ l ∈ o, l.name = layerKey n := by
  intro o ho l' hl'
  obtain ⟨l, hl, kind, hb, -⟩ := h o ho l' hl'
  exact (hb.named l' hl').trans (name_of_mem_layers hl)

theorem declaredDims_withLayers {new : List (Option Node)}
    (hn : ∀ o ∈ new, ∀ l ∈ o, l.name = layerKey n) :
    declaredDims (withLayers n new) = declaredDims n := by
  rw [declaredDims, findChild_withLayers_of_ne hn (layerKey_ne n).2.2, declaredDims]

theorem findInts_eq_ok_iff {s : Node} {ds : List Int} {rest : List Node}
    (hds : ∀ d ∈ ds, Decimal.isTooLong d.natAbs = false)
    (hv : s.findValues "dim" = ds.map toString ++ rest.filterMap (·.value)) :
    s.findInts "dim" = .ok ds ↔ rest.filterMap (·.value) = [] := by
  constructor
  · intro h
    have hlength := (of_mapM h).1
    rw [hv, List.length_append, List.length_map] at hlength
    exact List.length_eq_zero_iff.mp (by omega)
  · intro hrest
    rw [findInts, readScalars_eq_ok, hv, hrest, List.append_nil, List.map_map]
    exact List.map_congr_left fun d hd => Decimal.readInt?_toString_of_short (hds d hd)

theorem filterMap_value_eq_nil_iff {cs : List Node} (h : ∀ c ∈ cs, c.isBlock = false) :
    cs.filterMap (·.value) = [] ↔ cs = [] := by
  constructor
  · intro hnil
    cases cs with
    | nil => rfl
    | cons c cs =>
      have hc := h c (List.mem_cons_self ..)
      have hnone := List.filterMap_eq_nil_iff.mp hnil c (List.mem_cons_self ..)
      rw [isBlock, hnone] at hc
      cases hc
  · rintro rfl
    rfl

/-- The input of a network for inference is the first bottom of the first layer left, or the name that
was asked for. Its shape starts with the dimensions that were asked for; what it declared beyond four
of them stays, so that it is the shape asked for exactly if it declared no fifth one. -/
theorem forRunning_declares (h : forRunning settings input shape n = .ok (r, transform)) :
    r.findValue "input" =
        some (((layers r).head?.bind fun l => (l.findValues "bottom").head?).getD input) ∧
      ∃ s, r.findChild "input_shape" = some s ∧
        s.findValues "dim" =
          shape.dims.map toString ++ ((declaredDims n).drop 4).filterMap (·.value) ∧
        ((∀ c ∈ declaredDims n, c.isBlock = false) →
          (s.findInts "dim" = .ok shape.dims ↔ (declaredDims n).length ≤ 4)) := by
  obtain ⟨new, -, hnew, hdims, rfl⟩ := forRunning_edits h
  rw [findValue, findChild_addSuffix_of_ne (by decide), ← findValue, findValue_declareInput,
    layers_addSuffix, layers_declareInput, findChild_addSuffix_of_ne (by decide), inputName]
  refine ⟨by rw [Option.bind_map]; rfl, ?_⟩
  obtain ⟨s, hs, hv⟩ := findValues_declareInput ((n.findChildIndex "name").elim 0 (· + 1))
    (inputName (withLayers n new) input) shape.dims (withLayers n new)
  rw [declaredDims_withLayers (name_of_becomes hnew)] at hv
  refine ⟨s, hs, hv, fun hscalar => ?_⟩
  rw [findInts_eq_ok_iff hdims hv,
    filterMap_value_eq_nil_iff fun c hc => hscalar c (List.mem_of_mem_drop hc),
    List.drop_eq_nil_iff]
  rfl

end Whole

def halfShaped : Node :=
  root [leaf "name" "net" .string, leaf "input" "old" .string,
    block "input_shape" [leaf "dim" "5" .numeric, leaf "axis" "n" .string, leaf "dim" "7" .numeric],
    block "layer" [leaf "type" "ReLU" .string, leaf "bottom" "pixels" .string]]

theorem forRunning_declares_halfShaped :
    ∃ r transform s, forRunning .standard "data" smallInput halfShaped = .ok (r, transform) ∧
      r.findChild "input_shape" = some s ∧ s.findInts "dim" = .ok smallInput.dims := by
  obtain ⟨⟨r, transform⟩, hr, -⟩ : ∃ r, forRunning .standard "data" smallInput halfShaped = .ok r ∧
      (r.1.findChild "layer").isSome = true := exists_ok (by decide +kernel)
  obtain ⟨-, s, hs, -, hdims⟩ := forRunning_declares hr
  exact ⟨r, transform, s, hr, hs, (hdims (by decide)).mpr (by decide)⟩

def fiveDims : String :=
  "input_shape \x7b dim: 1 dim: 3 dim: 8 dim: 8 dim: 9 \x7d"

theorem forRunning_fifthDim :
    ∃ n r, parse fiveDims = .ok n ∧ forRunning .standard "data" smallInput n = .ok r ∧
      (∀ c ∈ declaredDims n, c.isBlock = false) ∧
      ((r.1.findChild "input_shape").map fun s => s.findValues "dim") =
        some (smallInput.dims.map toString ++ ["9"]) := by
  obtain ⟨n, r, hn, hr, hd⟩ := exists_forRunning fiveDims String.toList_ofList (fun n r => decide
    ((∀ c ∈ declaredDims n, c.isBlock = false) ∧
      ((r.findChild "input_shape").map fun s => s.findValues "dim") =
        some (smallInput.dims.map toString ++ ["9"]))) (by decide +kernel)
  exact ⟨n, r, hn, hr, of_decide_eq_true hd⟩

section Places

variable {settings : Settings} {input : String} {shape : InputShape} {n r : Node}
  {transform : Option Node}

instance (n : Node) (kind : LayerKind) (l : Node) : Decidable (Survives n kind l) :=
  inferInstanceAs (Decidable (if kind = .softmaxWithLoss then IsOpenLoss l ∧ ¬ HasSoftmax n
    else kind ≠ .labelMapping ∧ kind ≠ .debug ∧ Runs l))

def IsDropped (n c : Node) : Prop :=
  c.name = layerKey n ∧ ∃ kind, LayerKind.ofNode c = .ok kind ∧ ¬ Survives n kind c

instance (n c : Node) : Decidable (IsDropped n c) :=
  inferInstanceAs (Decidable (c.name = layerKey n ∧
    ∃ kind, LayerKind.ofNode c = .ok kind ∧ ¬ Survives n kind c))

theorem Becomes.isNone_iff {kind : LayerKind} {l : Node} {o : Option Node} (h : Becomes n kind l o) :
    o.isNone = true ↔ ∃ kind, LayerKind.ofNode l = .ok kind ∧ ¬ Survives n kind l := by
  rw [Option.isNone_iff_eq_none, Option.eq_none_iff_forall_ne_some]
  constructor
  · intro hnone
    refine ⟨kind, h.ofKind, fun hs => ?_⟩
    obtain ⟨l', hl⟩ := h.survives.mpr hs
    exact hnone l' hl
  · rintro ⟨kind', hk, hs⟩ l' hl
    obtain rfl : kind = kind' := Except.ok.inj (h.ofKind.symm.trans hk)
    exact hs (h.survives.mp ⟨l', hl⟩)

theorem map_isNone_successors {new : List (Option Node)}
    (h : List.Forall₂ (fun l o => ∃ kind, Becomes n kind l o) (layers n) new) :
    (successors (layerKey n) n.children new).map Option.isNone =
      n.children.map fun c => decide (IsDropped n c) := by
  rw [eq_comm, ← List.forall₂_eq_eq_eq, List.forall₂_map_left_iff, List.forall₂_map_right_iff]
  refine (forall₂_successors h).imp fun c o hc => ?_
  rw [Bool.eq_iff_iff, decide_eq_true_iff, IsDropped]
  by_cases hk : c.name = layerKey n
  · obtain ⟨kind, hb⟩ := hc.1 hk
    rw [hb.isNone_iff]
    exact and_iff_right hk
  · rw [hc.2 hk]
    simp [hk]

def droppedBefore (n : Node) (i : Nat) : Nat :=
  (n.children.take i).countP fun c => decide (IsDropped n c)

def leftFrom (n : Node) (i : Nat) : Nat :=
  (n.children.drop i).countP fun c => decide (¬ IsDropped n c)

section Counts

variable {kept : List (Option Node)}
  (h : kept.map Option.isNone = n.children.map fun c => decide (IsDropped n c))
include h

theorem droppedBefore_eq (i : Nat) : droppedBefore n i = (kept.take i).countP Option.isNone := by
  calc droppedBefore n i
      = ((n.children.map fun c => decide (IsDropped n c)).take i).countP (· = true) := by
        rw [← List.map_take, List.countP_map, droppedBefore]
        simp only [Function.comp_def, Bool.decide_eq_true]
    _ = (kept.take i).countP Option.isNone := by
        rw [← h, ← List.map_take, List.countP_map]
        simp only [Function.comp_def, Bool.decide_eq_true]

theorem leftFrom_eq (i : Nat) : leftFrom n i = (kept.drop i).countP Option.isSome := by
  calc leftFrom n i
      = ((n.children.map fun c => decide (IsDropped n c)).drop i).countP (· = false) := by
        rw [← List.map_drop, List.countP_map, leftFrom]
        simp only [Function.comp_def, decide_eq_false_iff_not]
    _ = (kept.drop i).countP Option.isSome := by
        rw [← h, ← List.map_drop, List.countP_map]
        refine List.countP_congr fun o _ => ?_
        cases o <;> simp

end Counts

theorem findChildIndex_addSuffix (suffix : String) (m : Node) (key : String) :
    (addSuffix suffix m).findChildIndex key = m.findChildIndex key := by
  rw [findChildIndex_eq, childNames_addSuffix, ← findChildIndex_eq]

theorem name_withLayers {new : List (Option Node)} {i : Nat}
    (h : List.Forall₂ (fun l o => ∃ kind, Becomes n kind l o) (layers n) new)
    (hn : n.findChildIndex "name" = some i) :
    ∃ j, j + droppedBefore n i = i ∧ (withLayers n new).findChildIndex "name" = some j ∧
      (withLayers n new).children.length = j + 1 + leftFrom n (i + 1) := by
  have hkeeps := keeps_successors h
  have hdropped := map_isNone_successors h
  have hchildren : (withLayers n new).children =
      (successors (layerKey n) n.children new).filterMap id := replaceLayers_eq ..
  generalize successors (layerKey n) n.children new = kept at hkeeps hdropped hchildren
  obtain ⟨hj, hlength⟩ :=
    filterMap_id_of_findIdx? ((hkeeps.findIdx?_name (layerKey_ne n).1).trans hn)
  rw [← hchildren] at hj hlength
  rw [← leftFrom_eq hdropped] at hlength
  have hi : i < n.children.length := (List.findIdx?_eq_some_iff_getElem.mp hn).1
  have hbefore := countP_isSome_add_isNone (kept.take i)
  rw [List.length_take, hkeeps.length, ← droppedBefore_eq hdropped] at hbefore
  exact ⟨_, by omega, hj, hlength⟩

/-- An input that a network for inference lacked stands first where the network has no name. Else it
stands where it would stand next to the name before layers are dropped: for each layer that is gone
before the name, one more of the children that are left gets between them. A shape that was lacking too
stands next to the input. -/
theorem forRunning_inserts (h : forRunning settings input shape n = .ok (r, transform))
    (hi : n.findChild "input" = none) :
    (n.findChild "input_shape" = none →
      r.findChildIndex "input_shape" = (r.findChildIndex "input").map (· + 1)) ∧
    (n.findChildIndex "name" = none → r.findChildIndex "input" = some 0) ∧
    ∀ i, n.findChildIndex "name" = some i →
      ∃ j, r.findChildIndex "name" = some j ∧ j + droppedBefore n i = i ∧
        r.findChildIndex "input" = some (j + 1 + min (droppedBefore n i) (leftFrom n (i + 1))) ∧
        (r.findChildIndex "input" = some (j + 1) ↔
          (∀ c ∈ n.children.take i, ¬ IsDropped n c) ∨
            ∀ c ∈ n.children.drop (i + 1), IsDropped n c) := by
  obtain ⟨new, hnew, hmem, -, rfl⟩ := forRunning_edits h
  obtain ⟨-, hinput, hshape⟩ := layerKey_ne n
  have hnames := name_of_becomes hmem
  have hi' : (withLayers n new).findChild "input" = none :=
    (findChild_withLayers_of_ne hnames hinput).trans hi
  simp only [findChildIndex_addSuffix, findChildIndex_declareInput hi']
  refine ⟨fun hs => ?_, fun hn => ?_, fun i hn => ?_⟩
  · exact findChildIndex_shape_declareInput hi'
      ((findChild_withLayers_of_ne hnames hshape).trans hs) _
  · rw [hn, Option.elim_none, Nat.zero_min]
  · obtain ⟨j, hj, hindex, hlength⟩ := name_withLayers hnew hn
    -- The place is past the end where fewer children are left behind the name than are gone before it.
    have hplace : min (i + 1) (withLayers n new).children.length =
        j + 1 + min (droppedBefore n i) (leftFrom n (i + 1)) := by
      omega
    have hgone : droppedBefore n i = 0 ↔ ∀ c ∈ n.children.take i, ¬ IsDropped n c := by
      simp [droppedBefore, List.countP_eq_zero]
    have hleft : leftFrom n (i + 1) = 0 ↔ ∀ c ∈ n.children.drop (i + 1), IsDropped n c := by
      simp [leftFrom, List.countP_eq_zero]
    rw [hn, Option.elim_some, hplace]
    refine ⟨j, findChildIndex_name_declareInput hi' hindex (by omega), hj, rfl, ?_⟩
    rw [← hgone, ← hleft, Option.some_inj]
    omega

end Places

theorem forRunning_inserts_reader :
    ∃ r transform, forRunning .standard "data" smallInput readerAndRunner = .ok (r, transform) ∧
      r.findChildIndex "name" = some 0 ∧ r.findChildIndex "input" = some 1 ∧
      r.findChildIndex "input_shape" = some 2 := by
  obtain ⟨⟨r, transform⟩, hr, -⟩ : ∃ r, forRunning .standard "data" smallInput readerAndRunner =
      .ok r ∧ r.2.isSome = true := exists_ok (by decide +kernel)
  obtain ⟨hshape, -, hplace⟩ := forRunning_inserts hr (by decide)
  obtain ⟨j, hname, hj, -, hnext⟩ := hplace 0 (by decide)
  obtain rfl : j = 0 := by omega
  have hinput : r.findChildIndex "input" = some 1 := hnext.mpr (.inl (by decide))
  refine ⟨r, transform, hr, hname, hinput, ?_⟩
  rw [hshape (by decide), hinput]
  rfl

def debugBeforeName : String :=
  "layer \x7b type: \"Debug\" \x7d name: \"n\" layer \x7b type: \"ReLU\" \x7d"

theorem forRunning_apart :
    ∃ n r, parse debugBeforeName = .ok n ∧ forRunning .standard "data" smallInput n = .ok r ∧
      n.findChild "input" = none ∧ r.1.findChildIndex "name" = some 0 ∧
      r.1.findChildIndex "layer" = some 1 ∧ r.1.findChildIndex "input" = some 2 := by
  obtain ⟨n, r, hn, hr, hd⟩ := exists_forRunning debugBeforeName String.toList_ofList
      (fun n r => decide
    ((n.findChild "input").isNone = true ∧ r.findChildIndex "name" = some 0 ∧
      r.findChildIndex "layer" = some 1 ∧ r.findChildIndex "input" = some 2)) (by decide +kernel)
  obtain ⟨hinput, hplaces⟩ := of_decide_eq_true hd
  exact ⟨n, r, hn, hr, Option.isNone_iff_eq_none.mp hinput, hplaces⟩

end NetDesc.Network
