import NetDesc.Network.Lookup
import NetDesc.Proofs.Network.Apart
import NetDesc.Proofs.Network.Running
import NetDesc.Proofs.Network.Training

namespace NetDesc.Network

open Node

def newKey (key : String) : String :=
  if key = "layers" then "layer" else key

def rekey (c : Node) : Node :=
  { c with name := newKey c.name }

def renew (n : Node) : Node :=
  { n with children := n.children.map rekey }

section Keys

variable {n c : Node} {key name : String}

theorem newKey_of_ne (h : key ≠ "layers") : newKey key = key :=
  if_neg h

theorem newKey_ne_layers (key : String) : newKey key ≠ "layers" := by
  unfold newKey
  split
  · decide
  · assumption

theorem newKey_layerKey (n : Node) : newKey (layerKey n) = "layer" := by
  rcases layerKey_eq n with h | ⟨h, -⟩ <;> rw [h] <;> rfl

theorem rekey_of_ne (h : c.name ≠ "layers") : rekey c = c := by
  cases c
  exact congrArg (Node.mk · _ _ _) (newKey_of_ne h)

theorem renew_root (cs : List Node) : renew (root cs) = root (cs.map rekey) := rfl

theorem layerKey_renew (n : Node) : layerKey (renew n) = "layer" := by
  have hnone : (renew n).findChild "layers" = none := by
    rw [findChild_eq_none_iff]
    intro c hc
    obtain ⟨d, -, rfl⟩ := List.mem_map.mp hc
    exact newKey_ne_layers d.name
  rw [layerKey, hnone, Option.isSome_none, Bool.and_false, if_neg (by decide)]

theorem newKey_eq_layer_iff (hn : n.findChild "layer" = none) (hc : c ∈ n.children) :
    newKey c.name = "layer" ↔ c.name = layerKey n := by
  have hlayer : c.name ≠ "layer" := findChild_eq_none_iff.mp hn c hc
  unfold layerKey
  rw [hn, Option.isNone_none, Bool.true_and]
  by_cases hc' : c.name = "layers"
  · have hsome : (n.findChild "layers").isSome = true := by
      rw [findChild, List.find?_isSome]
      exact ⟨c, hc, beq_iff_eq.mpr hc'⟩
    rw [hc', hsome, if_pos rfl]
    exact iff_of_true rfl rfl
  · rw [newKey_of_ne hc']
    refine iff_of_false hlayer ?_
    split
    · exact hc'
    · exact hlayer

theorem layers_renew (hn : n.findChild "layer" = none) : layers (renew n) = (layers n).map rekey := by
  have hkey : ∀ c ∈ n.children, (newKey c.name == "layer") = (c.name == layerKey n) := by
    intro c hc
    rw [Bool.eq_iff_iff]
    simpa using newKey_eq_layer_iff hn hc
  rw [layers, layerKey_renew, layers, findChildren, findChildren, renew, List.filter_map]
  exact congrArg (List.map rekey) (List.filter_congr hkey)

theorem layerKey_ne_of_mem {l : Node} (hn : n.findChild "layer" = none) (hl : l ∈ layers n) :
    layerKey n ≠ "layer" := by
  rw [← name_of_mem_layers hl]
  exact findChild_eq_none_iff.mp hn l (List.mem_filter.mp hl).1

theorem replaceLayers_rekey {cs : List Node} (h : ∀ c ∈ cs, newKey c.name = "layer" ↔ c.name = key)
    (new : List (Option Node)) :
    replaceLayers "layer" (cs.map rekey) (new.map (Option.map rekey)) =
      (replaceLayers key cs new).map rekey := by
  induction cs generalizing new with
  | nil => rfl
  | cons c cs ih =>
    obtain ⟨hc, hcs⟩ := List.forall_mem_cons.mp h
    have hname : (rekey c).name = "layer" ↔ c.name = key := hc
    by_cases hk : c.name = key
    · cases new with
      | nil =>
        simp only [List.map_cons, List.map_nil, replaceLayers, hname, if_pos hk]
        exact ih hcs []
      | cons o new =>
        simp only [List.map_cons, replaceLayers, hname, if_pos hk, List.map_append, ih hcs new]
        cases o <;> rfl
    · simp only [List.map_cons, replaceLayers, hname, if_neg hk, ih hcs new]

theorem withLayers_renew (hn : n.findChild "layer" = none) (new : List (Option Node)) :
    withLayers (renew n) (new.map (Option.map rekey)) = renew (withLayers n new) := by
  rw [withLayers, layerKey_renew, withLayers, renew, renew,
    replaceLayers_rekey fun c hc => newKey_eq_layer_iff hn hc]

theorem findChild_withLayers {new : List (Option Node)} (hn : n.findChild "layer" = none)
    (hnew : ∀ l, some l ∈ new → l.name ≠ "layer") : (withLayers n new).findChild "layer" = none := by
  rw [findChild_eq_none_iff] at hn ⊢
  intro c hc
  rcases mem_replaceLayers hc with hc | ⟨hc, -⟩
  · exact hnew c hc
  · exact hn c hc

end Keys

section Names

variable {n : Node} {name : String}

def IsBeside (name : String) : Prop :=
  name ≠ "layer" ∧ name ≠ "layers"

instance (name : String) : Decidable (IsBeside name) :=
  inferInstanceAs (Decidable (_ ∧ _))

theorem beq_newKey (h : IsBeside name) (key : String) : (newKey key == name) = (key == name) := by
  by_cases hk : key = "layers"
  · rw [hk, newKey, if_pos rfl, beq_false_of_ne h.1.symm, beq_false_of_ne h.2.symm]
  · rw [newKey_of_ne hk]

theorem map_rekey_findChild (h : IsBeside name) (n : Node) :
    (n.findChild name).map rekey = n.findChild name := by
  cases hc : n.findChild name with
  | none => rfl
  | some c =>
    rw [Option.map_some, rekey_of_ne (name_of_findChild hc ▸ h.2)]

theorem named_comp_rekey (h : IsBeside name) :
    (fun c : Node => c.name == name) ∘ rekey = fun c => c.name == name := by
  funext c
  exact beq_newKey h c.name

theorem findChild_renew (h : IsBeside name) (n : Node) : (renew n).findChild name = n.findChild name := by
  rw [findChild, renew, List.find?_map, named_comp_rekey h, ← findChild, map_rekey_findChild h]

theorem findChildIndex_renew (h : IsBeside name) (n : Node) :
    (renew n).findChildIndex name = n.findChildIndex name := by
  rw [findChildIndex, renew, List.findIdx?_map, named_comp_rekey h]
  rfl

theorem modifyChild_renew (h : IsBeside name) {f : Node → Node} (hf : ∀ c, (f c).name = c.name)
    (n : Node) : (renew n).modifyChild name f = renew (n.modifyChild name f) := by
  have hname : ∀ c, (c.name == name) = true → f (rekey c) = rekey (f c) := by
    intro c hc
    have hc : c.name ≠ "layers" := LawfulBEq.eq_of_beq hc ▸ h.2
    rw [rekey_of_ne hc, rekey_of_ne]
    rwa [hf]
  have hfirst := modifyFirst_map (q := fun c => c.name == name) (fun c => beq_newKey h c.name) hname
  simp only [modifyChild, renew, hfirst]

theorem insert_renew {child : Node} (h : child.name ≠ "layers") (i : Int) (n : Node) :
    (renew n).insert i child = renew (n.insert i child) := by
  have hinsert := insertAt_map rekey i child n.children
  rw [rekey_of_ne h] at hinsert
  simp only [Node.insert, renew, hinsert]

end Names

section Training

variable {n : Node} {settings : Settings}

theorem setValue_rekey (l : Node) (name value : String) (t : Option ValueType) :
    (rekey l).setValue name value t = rekey (l.setValue name value t) := by
  have hfind : (rekey l).findChild name = l.findChild name := rfl
  unfold setValue
  rw [hfind]
  split <;> rfl

theorem toLoss_rekey (settings : Settings) (l : Node) :
    toLoss settings (rekey l) = rekey (toLoss settings l) := by
  simp only [toLoss, setValue_rekey]
  rfl

def withTraits (l : Node) : Result (Traits × Node) := do
  return (← traits l, l)

theorem withTraits_rekey (l : Node) :
    withTraits (rekey l) = (withTraits l).map (Prod.map id rekey) := by
  have htraits : traits (rekey l) = traits l := rfl
  rw [withTraits, withTraits, htraits, map_of_bind]
  rfl

theorem withLoss_rekey (settings : Settings) (kept : List (Traits × Node)) :
    withLoss settings (kept.map (Prod.map id rekey)) = (withLoss settings kept).map rekey := by
  let demote (l : Traits × Node) : Traits × Node := (l.1, toLoss settings l.2)
  have hlast : modifyLast isSoftmax demote (kept.map (Prod.map id rekey)) =
      (modifyLast isSoftmax demote kept).map (Prod.map id rekey) := by
    apply modifyLast_map
    · exact fun l => rfl
    · exact fun l _ => congrArg (Prod.mk l.1) (toLoss_rekey settings l.2)
  rw [withLoss, hlast, withLoss, List.map_map, List.map_map]
  rfl

theorem withTests_rekey (make : Phase → Node) (kinds : List Traits) (ls : List Node) :
    withTests (fun p => rekey (make p)) kinds (ls.map rekey) = (withTests make kinds ls).map rekey := by
  unfold withTests
  split
  · rfl
  · split
    · exact insertAt_map rekey _ _ _
    · rfl

theorem withData_rekey (make : Phase → Node) (kinds : List Traits) (ls : List Node) :
    withData (fun p => rekey (make p)) kinds (ls.map rekey) = (withData make kinds ls).map rekey := by
  rw [withData_eq, withData_eq, withTests_rekey]
  split <;> rfl

theorem map_fst_rekey (kept : List (Traits × Node)) :
    (kept.map (Prod.map id rekey)).map Prod.fst = kept.map Prod.fst := by
  rw [List.map_map]
  rfl

theorem fed_renew (name : String) (native : Bool) (kept : List (Traits × Node)) :
    fed settings name native (renew n) (kept.map (Prod.map id rekey)) =
      (fed settings name native n kept).map rekey := by
  have hmake : (fun p => dataLayer (layerKey (renew n)) name p native "" settings) =
      fun p => rekey (dataLayer (layerKey n) name p native "" settings) := by
    rw [layerKey_renew, ← newKey_layerKey n]
    rfl
  rw [fed, hmake, map_fst_rekey, withLoss_rekey, withData_rekey, fed]

theorem accuracyFor?_rekey (key : String) (kinds : List Traits) (ls : List Node) :
    accuracyFor? (newKey key) settings kinds (ls.map rekey) =
      (accuracyFor? key settings kinds ls).map rekey := by
  unfold accuracyFor?
  split
  · rfl
  · rw [List.getLast?_map, Option.map_map]
    cases ls.getLast? <;> rfl

theorem measure?_renew (name : String) (native : Bool) (kept : List (Traits × Node)) :
    measure? settings name native (renew n) (kept.map (Prod.map id rekey)) =
      (measure? settings name native n kept).map rekey := by
  rw [measure?, fed_renew, map_fst_rekey, layerKey_renew, ← newKey_layerKey n, accuracyFor?_rekey,
    measure?]

def completed (settings : Settings) (name : String) (native : Bool) (n : Node)
    (scanned : List (Traits × Node)) : Result Node :=
  let kept := staying scanned
  let kinds := kept.map Prod.fst
  let accuracy := measure? settings name native n kept
  if isUnwritten settings kinds accuracy then .error (.badLiteral .unwritten)
  else if kinds.any (Traits.feeds .train) && kinds.any (Traits.feeds .test) && !kept.any isSoftmax &&
      accuracy.isNone && (n.findChild "input_dim").isNone then
    .ok (withLayers n (scanned.map fun l => if l.1.trains then some l.2 else none))
  else
    .ok (root ((n.findChild "name").toList ++ fed settings name native n kept ++ accuracy.toList))

theorem forTraining_eq (settings : Settings) (name : String) (native : Bool) (n : Node) :
    forTraining settings name native n =
      (layers n).mapM withTraits >>= completed settings name native n := rfl

theorem staying_rekey (scanned : List (Traits × Node)) :
    staying (scanned.map (Prod.map id rekey)) = (staying scanned).map (Prod.map id rekey) := by
  rw [staying, List.filter_map]
  rfl

theorem completed_renew (hn : n.findChild "layer" = none) (name : String) (native : Bool)
    (scanned : List (Traits × Node)) :
    completed settings name native (renew n) (scanned.map (Prod.map id rekey)) =
      (completed settings name native n scanned).map renew := by
  have hsoft (kept : List (Traits × Node)) :
      (kept.map (Prod.map id rekey)).any isSoftmax = kept.any isSoftmax := List.any_map
  have hunwritten (kinds : List Traits) (accuracy : Option Node) :
      isUnwritten settings kinds (accuracy.map rekey) = isUnwritten settings kinds accuracy := by
    rw [isUnwritten, Option.isSome_map, isUnwritten]
  have hnew : (scanned.map (Prod.map id rekey)).map (fun l => if l.1.trains then some l.2 else none) =
      (scanned.map fun l => if l.1.trains then some l.2 else none).map (Option.map rekey) := by
    rw [List.map_map, List.map_map]
    refine List.map_congr_left fun l _ => ?_
    dsimp only [Function.comp_apply, Prod.map, id]
    split <;> rfl
  unfold completed
  simp only [staying_rekey, map_fst_rekey, measure?_renew, fed_renew, hunwritten, hsoft, hnew,
    Option.isNone_map, withLayers_renew hn, findChild_renew (by decide : IsBeside "input_dim"),
    findChild_renew (by decide : IsBeside "name")]
  split
  · rfl
  split
  · rfl
  · have hname : (n.findChild "name").toList.map rekey = (n.findChild "name").toList := by
      rw [← Option.toList_map, map_rekey_findChild (by decide)]
    refine congrArg Except.ok ?_
    rw [renew_root, List.map_append, List.map_append, hname, Option.toList_map]

theorem forTraining_renew (hn : n.findChild "layer" = none) (settings : Settings) (name : String)
    (native : Bool) :
    forTraining settings name native (renew n) = (forTraining settings name native n).map renew := by
  rw [forTraining_eq, forTraining_eq, layers_renew hn, mapM_of_commutes withTraits_rekey, bind_of_map,
    map_of_bind]
  exact bind_congr fun scanned => completed_renew hn name native scanned

end Training

section Running

variable {n : Node}

theorem running_rekey (t : Traits) (l : Node) :
    running t (rekey l) = (running t l).map (Option.map rekey) := by
  have hdrop : (if t.kind = .binaryHash then dropLastBottom (rekey l) else rekey l) =
      rekey (if t.kind = .binaryHash then dropLastBottom l else l) := by
    split <;> rfl
  unfold running
  split
  · dsimp only
    rw [hdrop, map_of_bind]
    refine bind_congr fun limit => ?_
    cases limit <;> rfl
  · rfl

theorem toSoftmax_rekey (l : Node) : toSoftmax (rekey l) = rekey (toSoftmax l) := by
  simp only [toSoftmax, setValue_rekey]
  rfl

theorem settle_rekey (hasSoftmax : Bool) (t : Traits) (o : Option Node) :
    settle hasSoftmax t (o.map rekey) = (settle hasSoftmax t o).map rekey := by
  unfold settle
  split
  · split
    · rfl
    · cases o with
      | none => rfl
      | some l => exact congrArg some (toSoftmax_rekey l)
  · rfl

theorem declareName_renew (place : Nat) (input : String) (n : Node) :
    declareName place input (renew n) = renew (declareName place input n) := by
  have hbeside : IsBeside "input" := by decide
  simp only [declareName, findChild_renew hbeside]
  split
  · exact modifyChild_renew (f := fun c => c.withValue input .string) hbeside (fun c => rfl) n
  · exact insert_renew hbeside.2 place n

theorem declareShape_renew (place : Nat) (dims : List Int) (n : Node) :
    declareShape place dims (renew n) = renew (declareShape place dims n) := by
  have hbeside : IsBeside "input_shape" := by decide
  have hdims : ∀ c : Node, ({ c with children := setDims c.children dims } : Node).name = c.name :=
    fun c => rfl
  simp only [declareShape, findChild_renew hbeside]
  split
  · exact modifyChild_renew hbeside hdims n
  · exact insert_renew hbeside.2 _ n

theorem declareInput_renew (place : Nat) (input : String) (dims : List Int) (n : Node) :
    declareInput place input dims (renew n) = renew (declareInput place input dims n) := by
  rw [declareInput_eq, declareInput_eq, findChild_renew (by decide), declareName_renew,
    declareShape_renew]

theorem addSuffix_renew (suffix : String) (n : Node) :
    addSuffix suffix (renew n) = renew (addSuffix suffix n) := by
  have hname : ∀ c : Node, ({ c with value := c.value.map (· ++ suffix) } : Node).name = c.name :=
    fun c => rfl
  exact modifyChild_renew (by decide) hname n

theorem inputName_renew (hn : n.findChild "layer" = none) (input : String) :
    inputName (renew n) input = inputName n input := by
  rw [inputName, layers_renew hn, List.head?_map, Option.map_map, inputName]
  rfl

def withRunning (l : Node) : Result (Traits × Node × Option Node) := do
  let t ← traits l
  return (t, l, ← running t l)

def rekeyRunning (s : Traits × Node × Option Node) : Traits × Node × Option Node :=
  (s.1, rekey s.2.1, s.2.2.map rekey)

theorem withRunning_rekey (l : Node) : withRunning (rekey l) = (withRunning l).map rekeyRunning := by
  have htraits : traits (rekey l) = traits l := rfl
  rw [withRunning, htraits, withRunning, map_of_bind]
  refine bind_congr fun t => ?_
  rw [running_rekey, bind_of_map, map_of_bind]
  rfl

def settled (scanned : List (Traits × Node × Option Node)) : List (Option Node) :=
  scanned.map fun l => settle (scanned.any fun l => l.1.kind = .softmax) l.1 l.2.2

theorem settled_rekey (scanned : List (Traits × Node × Option Node)) :
    settled (scanned.map rekeyRunning) = (settled scanned).map (Option.map rekey) := by
  have hsoftmax : ((scanned.map rekeyRunning).any fun l => l.1.kind = .softmax) =
      scanned.any fun l => l.1.kind = .softmax := List.any_map
  rw [settled, hsoftmax, settled, List.map_map, List.map_map]
  exact List.map_congr_left fun l _ => settle_rekey _ l.1 l.2.2

def stripped (settings : Settings) (input : String) (shape : InputShape) (n : Node)
    (scanned : List (Traits × Node × Option Node)) : Node × Option Node :=
  let kept := withLayers n (settled scanned)
  let place := (n.findChildIndex "name").elim 0 (· + 1)
  (addSuffix settings.liveSuffix (declareInput place (inputName kept input) shape.dims kept),
    testTransform? (scanned.map fun l => (l.1, l.2.1)))

theorem forRunning_eq (settings : Settings) (input : String) (shape : InputShape) (n : Node) :
    forRunning settings input shape n =
      if shape.dims.any fun d => Decimal.isTooLong d.natAbs then .error (.badLiteral .unwritten)
      else (layers n).mapM withRunning >>= fun scanned => .ok (stripped settings input shape n scanned) :=
  rfl

theorem stripped_renew {scanned : List (Traits × Node × Option Node)} (settings : Settings)
    (input : String) (shape : InputShape) (hn : n.findChild "layer" = none)
    (hkept : (withLayers n (settled scanned)).findChild "layer" = none) :
    stripped settings input shape (renew n) (scanned.map rekeyRunning) =
      (stripped settings input shape n scanned).map renew id := by
  have htransform : testTransform? ((scanned.map rekeyRunning).map fun l => (l.1, l.2.1)) =
      testTransform? (scanned.map fun l => (l.1, l.2.1)) := by
    rw [testTransform?, testTransform?, List.map_map, List.findSome?_map, List.findSome?_map]
    rfl
  simp only [stripped, settled_rekey, withLayers_renew hn,
    findChildIndex_renew (by decide : IsBeside "name"), inputName_renew hkept, declareInput_renew,
    addSuffix_renew, htransform]
  rfl

theorem forRunning_renew (hn : n.findChild "layer" = none) (settings : Settings) (input : String)
    (shape : InputShape) :
    forRunning settings input shape (renew n) =
      (forRunning settings input shape n).map (Prod.map renew id) := by
  rw [forRunning_eq, forRunning_eq]
  split
  · rfl
  rw [layers_renew hn, mapM_of_commutes withRunning_rekey, bind_of_map, map_of_bind]
  cases hs : (layers n).mapM withRunning with
  | error e => rfl
  | ok scanned =>
    obtain ⟨hm, hall⟩ := scanned_of_mapM hs
    -- The input is looked up after layers were dropped, when the key is settled once more.
    have hkept : (withLayers n (settled scanned)).findChild "layer" = none := by
      apply findChild_withLayers hn
      intro l hl
      obtain ⟨s, hmem, -⟩ := List.mem_map.mp hl
      have hlayer : s.2.1 ∈ layers n := hm ▸ List.mem_map_of_mem hmem
      rw [name_of_settled hm (fun s hs => (hall s hs).2) _ _ hl l rfl]
      exact layerKey_ne_of_mem hn hlayer
    exact congrArg Except.ok (stripped_renew settings input shape hn hkept)

end Running

section Rebinding

variable {n : Node}

def Rebound.rekeyed (r : Rebound) : Rebound :=
  { r with layer := rekey r.layer }

theorem recrop_rekey (height : Nat) (l : Node) :
    recrop height (rekey l) = (recrop height l).map rekey := by
  have hfind : (rekey l).findChild "transform_param" = l.findChild "transform_param" := rfl
  unfold recrop
  rw [hfind]
  cases l.findChild "transform_param" with
  | none => rfl
  | some t =>
    dsimp only
    rw [map_of_bind]
    refine bind_congr fun sizes => ?_
    cases sizes with
    | nil => rfl
    | cons c cs =>
      dsimp only
      split
      · split <;> rfl
      · rfl

theorem rebindLayer_rekey (b : Binding) (l : Node) :
    rebindLayer b (rekey l) = (rebindLayer b l).map Rebound.rekeyed := by
  have hkind : LayerKind.ofNode (rekey l) = LayerKind.ofNode l := rfl
  have hfeed (kind : LayerKind) : feed? kind (rekey l) = feed? kind l := rfl
  have hplace (kind : LayerKind) (source : Option Source) :
      place kind source (rekey l) = rekey (place kind source l) := by
    cases source <;> rfl
  rw [rebindLayer, hkind, rebindLayer, map_of_bind]
  refine bind_congr fun kind => ?_
  split
  · rw [rebindData_eq, hfeed, rebindData_eq, map_of_bind]
    refine bind_congr fun feed => ?_
    rw [hplace, recrop_rekey, bind_of_map, map_of_bind]
    rfl
  · rfl

theorem raiseBatch_rekeyed (rs : List Rebound) :
    raiseBatch (rs.map Rebound.rekeyed) = (raiseBatch rs).map Rebound.rekeyed := by
  have hlast (slot : Phase) : (rs.map Rebound.rekeyed).reverse.findSome? (Rebound.batch? slot) =
      rs.reverse.findSome? (Rebound.batch? slot) := by
    rw [← List.map_reverse, List.findSome?_map]
    rfl
  simp only [raiseBatch, hlast]
  split
  · next test _ _ =>
    split
    · exact modifyLast_map (g := Rebound.rekeyed) (p := fun r => (r.batch? .train).isSome)
        (f := Rebound.setBatch test) (fun r => rfl) (fun r _ => rfl) rs
    · rfl
  · rfl

theorem finish_renew (hn : n.findChild "layer" = none) (count? : Option Nat)
    (rs : List (Rebound × Bool)) :
    finish count? (renew n) (rs.map (Prod.map Rebound.rekeyed id)) =
      (finish count? n rs).map (Prod.map renew id) := by
  have hany : (rs.map (Prod.map Rebound.rekeyed id)).any isResized = rs.any isResized := List.any_map
  have houtput (s : Rebound × Bool) : (withOutput count? (s.map Rebound.rekeyed id)).layer =
      rekey (withOutput count? s).layer := by
    have hresized : isResized (s.map Rebound.rekeyed id) = isResized s := rfl
    cases count? with
    | none => rfl
    | some count =>
      rw [withOutput, hresized, withOutput]
      split <;> rfl
  have hnew : (rs.map (Prod.map Rebound.rekeyed id)).map (fun s => some (withOutput count? s).layer) =
      (rs.map fun s => some (withOutput count? s).layer).map (Option.map rekey) := by
    rw [List.map_map, List.map_map]
    exact List.map_congr_left fun s _ => congrArg some (houtput s)
  rw [finish, hany, hnew, withLayers_renew hn, finish]
  split <;> rfl

theorem rebind_renew (hn : n.findChild "layer" = none) (b : Binding) (resize : Bool) :
    rebind b resize (renew n) = (rebind b resize n).map (Prod.map renew id) := by
  rw [rebind_eq, rebind_eq, layers_renew hn, mapM_of_commutes (rebindLayer_rekey b), bind_of_map,
    map_of_bind]
  refine bind_congr fun rs => ?_
  rw [raiseBatch_rekeyed, beforeLoss_mapped Rebound.rekeyed fun r => rfl, finish_renew hn]

end Rebinding

section Sources

variable {n : Node}

theorem sourceUse?_rekey (l : Node) : sourceUse? (rekey l) = sourceUse? l := rfl

theorem applyToLayer_rekey (b : Binding) (l : Node) :
    applyToLayer b (rekey l) = (applyToLayer b l).map rekey := by
  rw [applyToLayer, sourceUse?_rekey, applyToLayer, map_of_bind]
  refine bind_congr fun use => ?_
  cases use with
  | none => rfl
  | some u =>
    dsimp only
    split <;> rfl

theorem applySources_renew (hn : n.findChild "layer" = none) (b : Binding) :
    applySources b (renew n) = (applySources b n).map renew := by
  rw [applySources, layers_renew hn, mapM_of_commutes (applyToLayer_rekey b), bind_of_map,
    applySources, map_of_bind]
  refine bind_congr fun ls => congrArg Except.ok ?_
  rw [← withLayers_renew hn, List.map_map, List.map_map]
  rfl

theorem readSources_renew (hn : n.findChild "layer" = none) (b : Binding) :
    readSources b (renew n) = readSources b n := by
  rw [readSources, layers_renew hn, List.mapM_map, readSources]
  rfl

end Sources

section Lookup

variable {n : Node}

theorem seek_rekey (q : Query) (p : Phase) (kept : Option Node) (ls : List Node) :
    seek q p (kept.map rekey) (ls.map rekey) = (seek q p kept ls).map rekey := by
  induction ls generalizing kept with
  | nil => rfl
  | cons l ls ih =>
    have hselects : q.selects (rekey l) = q.selects l := rfl
    have hphase : includesExactly p (rekey l) = includesExactly p l := rfl
    have hinclude : (rekey l).findChild "include" = l.findChild "include" := rfl
    have hkept : (kept.map rekey).or (some (rekey l)) = (kept.or (some l)).map rekey := by
      cases kept <;> rfl
    rw [List.map_cons, seek, seek, hselects, hphase, hinclude, hkept, ih, ih]
    split
    · rfl
    split
    · rfl
    split <;> rfl

theorem findLayer?_renew (hn : n.findChild "layer" = none) (q : Query) (p : Phase) :
    findLayer? q p (renew n) = (findLayer? q p n).map rekey := by
  rw [findLayer?, layers_renew hn, findLayer?]
  exact seek_rekey q p none (layers n)

theorem findParameter_renew (hn : n.findChild "layer" = none) (q : Query) (p : Phase)
    (block : Option String) (field : String) :
    findParameter q p block field (renew n) = findParameter q p block field n := by
  rw [findParameter, findLayer?_renew hn, findParameter, Option.bind_map]
  refine Option.bind_congr fun l _ => ?_
  have hfind : (rekey l).findChild = l.findChild := rfl
  simp only [Function.comp_apply, hfind]
  cases (block.filter fun b => !b.isEmpty).bind l.findChild <;> rfl

theorem findBlock?_rekey {block? : Node → Option Node} (hblock : ∀ l, block? (rekey l) = block? l)
    (p : Phase) (ls : List Node) : findBlock? p block? (ls.map rekey) = findBlock? p block? ls := by
  induction ls with
  | nil => rfl
  | cons l ls ih =>
    have hphase : includePhase (rekey l) = includePhase l := rfl
    rw [List.map_cons, findBlock?, hphase, hblock, ih, findBlock?]

theorem batchSize_renew (hn : n.findChild "layer" = none) (p : Phase) :
    batchSize p (renew n) = batchSize p n := by
  rw [batchSize, layers_renew hn, findBlock?_rekey, batchSize]
  exact fun l => rfl

theorem setting_renew (hn : n.findChild "layer" = none) (p : Phase) (block field : String) :
    setting p block field (renew n) = setting p block field n := by
  rw [setting, layers_renew hn, findBlock?_rekey, setting]
  exact fun l => rfl

end Lookup

/-- Whatever is done to a network under the older key, or read from it, is the same under the newer
one. -/
theorem older_key_is_spelling {n : Node} (hn : n.findChild "layer" = none) :
    (∀ settings name native,
      forTraining settings name native (renew n) = (forTraining settings name native n).map renew) ∧
    (∀ settings input shape, forRunning settings input shape (renew n) =
      (forRunning settings input shape n).map (Prod.map renew id)) ∧
    (∀ b resize, rebind b resize (renew n) = (rebind b resize n).map (Prod.map renew id)) ∧
    (∀ b, applySources b (renew n) = (applySources b n).map renew) ∧
    (∀ b, readSources b (renew n) = readSources b n) ∧
    (∀ q p block field, findParameter q p block field (renew n) = findParameter q p block field n) ∧
    (∀ p, batchSize p (renew n) = batchSize p n) ∧
    ∀ p block field, setting p block field (renew n) = setting p block field n := by
  refine ⟨?_, ?_, ?_, ?_, ?_, ?_, ?_, ?_⟩
  · exact forTraining_renew hn
  · exact forRunning_renew hn
  · exact rebind_renew hn
  · exact applySources_renew hn
  · exact readSources_renew hn
  · exact findParameter_renew hn
  · exact batchSize_renew hn
  · exact setting_renew hn

def olderClassifier : Node :=
  root [
    block "layers" [leaf "type" "Data" .string, block "include" [leaf "phase" "TRAIN" .unknown],
      block "transform_param" [leaf "scale" "2" .numeric],
      block "data_param" [leaf "source" "a" .string, leaf "batch_size" "8" .numeric]],
    block "layers" [leaf "type" "InnerProduct" .string, leaf "bottom" "data" .string],
    block "layers" [leaf "type" "Softmax" .string, leaf "bottom" "scores" .string]]

theorem older_key_is_spelling_classifier : olderClassifier.findChild "layer" = none ∧
    (∃ r, forTraining .standard "d" false olderClassifier = .ok r ∧
      forTraining .standard "d" false (renew olderClassifier) = .ok (renew r) ∧
      (layers r).length = 5 ∧ (layers (renew r)).length = 5) ∧
    batchSize .train (renew olderClassifier) = .ok 8 := by
  have hn : olderClassifier.findChild "layer" = none := by decide
  obtain ⟨htrain, -, -, -, -, -, hbatch, -⟩ := older_key_is_spelling hn
  obtain ⟨r, hr, hl⟩ : ∃ r, forTraining .standard "d" false olderClassifier = .ok r ∧
      decide ((layers r).length = 5 ∧ (layers (renew r)).length = 5) = true :=
    exists_ok (by decide +kernel)
  refine ⟨hn, ⟨r, hr, ?_, of_decide_eq_true hl⟩, ?_⟩
  · rw [htrain, hr]
    rfl
  · rw [hbatch]
    decide +kernel

end NetDesc.Network
