import NetDesc.Proofs.Network.Declared
import NetDesc.Proofs.Network.RoundTrip

namespace NetDesc.Network

open Node

section Layers

variable {kind : LayerKind} {l l' : Node}

theorem isField_of_losesBottoms (h : IsField l) (hl : LosesBottoms l l') : IsField l' := by
  have he : l' = { l with children := l'.children } := by
    rw [← hl.name, ← hl.value, ← hl.valueType]
    cases l'
    rfl
  cases h with
  | block hn hcs =>
    rw [he]
    exact .block hn fun c hc => hcs c (hl.children.subset hc)
  | string value hn =>
    rw [he, List.sublist_nil.mp hl.children]
    exact .string value hn
  | word hn hv =>
    rw [he, List.sublist_nil.mp hl.children]
    exact .word hn hv

theorem isField_toSoftmax (h : IsField l) (hk : LayerKind.ofNode l = .ok kind) :
    IsField (toSoftmax l) := by
  obtain ⟨hset, hb⟩ := isField_setType h hk .softmax
  refine hset.withChildren hb fun d hd => ?_
  exact hset.of_mem (mem_removeValue (List.mem_filter.mp hd).1)

theorem isField_inferred (h : IsField l) (hk : LayerKind.ofNode l = .ok kind) :
    IsField (inferred kind l) := by
  have hloses := losesBottoms_limited kind (runCounts l).head? l
  have hlimited := isField_of_losesBottoms h hloses
  rw [inferred]
  split
  · have hkind : LayerKind.ofNode (limited kind (runCounts l).head? l) = .ok kind := by
      rw [LayerKind.ofNode, hloses.trimmed.findValue (by decide),
        hloses.trimmed.findValue (by decide), ← LayerKind.ofNode, hk]
    exact isField_toSoftmax hlimited hkind
  · exact hlimited

end Layers

section Declaration

variable {name : String} {dims : List Int} {m : Node}

theorem isField_scalar_int (hn : Literal.isName name.toList = true) (d : Int) :
    IsField (scalar name (toString d)) := by
  rw [scalar, ValueType.infer, classify_toString]
  exact (isLiteral_int d).isField hn

theorem isField_setDims {cs : List Node} (hcs : ∀ c ∈ cs, IsField c)
    (hd : ∀ c ∈ cs, c.name = "dim" → c.isBlock = false) (ds : List Int) :
    ∀ c ∈ setDims cs ds, IsField c := by
  induction cs generalizing ds with
  | nil =>
    cases ds with
    | nil => exact hcs
    | cons d ds =>
      intro c hc
      rw [setDims] at hc
      · obtain ⟨e, -, rfl⟩ := List.mem_map.mp hc
        exact isField_scalar_int (by decide) e
      · simp
  | cons c cs ih =>
    rw [List.forall_mem_cons] at hcs hd
    cases ds with
    | nil =>
      rw [setDims]
      exact List.forall_mem_cons.mpr hcs
    | cons d ds =>
      rw [setDims]
      split
      · next hname =>
        exact List.forall_mem_cons.mpr
          ⟨hcs.1.withValue (hd.1 hname) (isLiteral_int d), ih hcs.2 hd.2 ds⟩
      · exact List.forall_mem_cons.mpr ⟨hcs.1, ih hcs.2 hd.2 (d :: ds)⟩

structure IsDeclaration (n : Node) : Prop where
  input : ∀ c ∈ n.findChild "input", c.isBlock = false
  shape : ∀ s ∈ n.findChild "input_shape", s.isBlock = true
  dims : ∀ c ∈ declaredDims n, c.isBlock = false

instance (n : Node) : Decidable (IsDeclaration n) :=
  decidable_of_iff ((∀ c ∈ n.findChild "input", c.isBlock = false) ∧
      (∀ s ∈ n.findChild "input_shape", s.isBlock = true) ∧
      ∀ c ∈ declaredDims n, c.isBlock = false)
    ⟨fun h => ⟨h.1, h.2.1, h.2.2⟩, fun h => ⟨h.input, h.shape, h.dims⟩⟩

theorem isDescription_declareName (h : IsDescription m)
    (hi : ∀ c ∈ m.findChild "input", c.isBlock = false) (place : Nat) :
    IsDescription (declareName place name m) := by
  rw [declareName]
  split
  · refine (h.modifyChild_iff (f := fun c => c.withValue name .string) fun _ => rfl).mpr
      fun c hc => ?_
    exact (h.isField (List.mem_of_find?_eq_some hc)).withValue (hi c hc) (isLiteral_string name)
  · exact h.insert (.string name (by decide)) _

theorem isDescription_declareShape (h : IsDescription m)
    (hs : ∀ s ∈ m.findChild "input_shape", s.isBlock = true)
    (hd : ∀ c ∈ declaredDims m, c.isBlock = false) (place : Nat) :
    IsDescription (declareShape place dims m) := by
  rw [declareShape]
  split
  · refine (h.modifyChild_iff (f := fun s => { s with children := setDims s.children dims })
      fun _ => rfl).mpr fun s hfound => ?_
    have hfield := h.isField (List.mem_of_find?_eq_some hfound)
    refine hfield.withChildren (hs s hfound) (isField_setDims (fun c => hfield.of_mem) ?_ dims)
    intro c hc hname
    apply hd c
    rw [declaredDims, hfound]
    exact List.mem_filter.mpr ⟨hc, by simp [hname]⟩
  · exact h.insert (.block (by decide) (isField_setDims (by simp) (by simp) dims)) _

theorem isDescription_declareInput (h : IsDescription m) (hm : IsDeclaration m) (place : Nat) :
    IsDescription (declareInput place name dims m) := by
  have hshape : (declareName place name m).findChild "input_shape" = m.findChild "input_shape" :=
    findChild_declareName_of_ne (by decide) place
  rw [declareInput_eq]
  apply isDescription_declareShape (isDescription_declareName h hm.input place)
  · rw [hshape]
    exact hm.shape
  · rw [declaredDims, hshape]
    exact hm.dims

end Declaration

section Name

variable {suffix : String} {c n : Node}

def suffixed (suffix : String) (c : Node) : Node :=
  { c with value := c.value.map (· ++ suffix) }

def quoted (c : Node) : Node :=
  if c.isBlock then c else { c with valueType := .string }

def quoteName (n : Node) : Node :=
  n.modifyChild "name" quoted

theorem addSuffix_eq (suffix : String) (n : Node) :
    addSuffix suffix n = n.modifyChild "name" (suffixed suffix) := rfl

theorem name_quoted (c : Node) : (quoted c).name = c.name := by
  rw [quoted]
  split <;> rfl

theorem name_suffixed (suffix : String) (c : Node) : (suffixed suffix c).name = c.name := rfl

theorem isField_suffixed_leaf {name value : String} {t : ValueType}
    (hn : Literal.isName name.toList = true) :
    IsField (suffixed suffix (leaf name value t)) ↔
      ∀ v ∈ (leaf name value t).value, IsLiteral (v ++ suffix) t := by
  have hleaf : suffixed suffix (leaf name value t) = leaf name (value ++ suffix) t := rfl
  rw [hleaf, isField_leaf_iff hn, leaf]
  simp

theorem isField_suffixed_iff (h : IsField c) :
    IsField (suffixed suffix c) ↔ ∀ v ∈ c.value, IsLiteral (v ++ suffix) c.valueType := by
  cases h with
  | block hn hb => exact iff_of_true (.block hn hb) (by simp [block])
  | string value hn => exact isField_suffixed_leaf hn
  | word hn hv => exact isField_suffixed_leaf hn

theorem isField_quoted_suffixed (h : IsField c) : IsField (quoted (suffixed suffix c)) := by
  cases h with
  | block hn hb => exact .block hn hb
  | string value hn => exact .string _ hn
  | word hn hv => exact .string _ hn

end Name

section Whole

variable {settings : Settings} {input : String} {shape : InputShape} {n r : Node}
  {transform : Option Node}

theorem exists_linesList {cs : List Node} (h : ∀ c ∈ cs, ∃ ls, lines 0 c = .ok ls) :
    ∃ ls, linesList 0 cs = .ok ls := by
  induction cs with
  | nil => exact ⟨[], rfl⟩
  | cons c cs ih =>
    obtain ⟨⟨first, hf⟩, hcs⟩ := List.forall_mem_cons.mp h
    obtain ⟨rest, hr⟩ := ih hcs
    exact ⟨first ++ rest, by rw [linesList, hf, hr]; rfl⟩

theorem exists_serialize_addSuffix (suffix : String) (h : IsDescription n) :
    ∃ text, serialize (addSuffix suffix n) = .ok text := by
  have hfield : ∀ c, IsField c → ∃ ls, lines 0 c = .ok ls := fun c hc =>
    (hc.isWritable.printsAt 0).imp fun _ hls => hls.1
  obtain ⟨cs, rfl, hcs⟩ := h
  obtain ⟨ls, hls⟩ : ∃ ls, linesList 0 (addSuffix suffix (root cs)).children = .ok ls := by
    refine exists_linesList fun c hc => ?_
    rcases mem_modifyFirst hc with hc | ⟨d, hd, rfl⟩
    · exact hfield c (hcs c hc)
    · -- With a suffix a word can be none, so that no text holds it; but it has no children.
      have hd := hcs d (List.mem_of_find?_eq_some hd)
      cases hd with
      | block hn hb => exact hfield _ (.block hn hb)
      | string value hn => exact ⟨_, rfl⟩
      | word hn hv => exact ⟨_, rfl⟩
  refine ⟨ofLines ls, ?_⟩
  have hserialize : Node.serialize (addSuffix suffix (root cs)) = .ok (ofLines ls) :=
    (serialize_root _).trans (congrArg (Except.map ofLines) hls)
  rw [serialize, hserialize]
  rfl

theorem isDeclaration_withLayers {new : List (Option Node)}
    (hn : ∀ o ∈ new, ∀ l ∈ o, l.name = layerKey n) (h : IsDeclaration n) :
    IsDeclaration (withLayers n new) := by
  obtain ⟨-, hinput, hshape⟩ := layerKey_ne n
  constructor
  · rw [findChild_withLayers_of_ne hn hinput]
    exact h.input
  · rw [findChild_withLayers_of_ne hn hshape]
    exact h.shape
  · rw [declaredDims_withLayers hn]
    exact h.dims

theorem isDescription_declared (hn : IsDescription n) (hd : IsDeclaration n)
    (h : forRunning settings input shape n = .ok (r, transform)) :
    ∃ m, IsDescription m ∧ m.findChild "name" = n.findChild "name" ∧
      r = addSuffix settings.liveSuffix m := by
  obtain ⟨new, -, hnew, -, rfl⟩ := forRunning_edits h
  have hnames := name_of_becomes hnew
  have hlayers : IsDescription (withLayers n new) := by
    apply isDescription_withLayers hn
    intro l' hl'
    obtain ⟨l, hl, kind, hb, rfl⟩ := hnew _ hl' l' rfl
    exact isField_inferred (isField_of_mem_layers hn hl) hb.ofKind
  refine ⟨_, isDescription_declareInput hlayers (isDeclaration_withLayers hnames hd) _, ?_, rfl⟩
  rw [declareInput_eq, findChild_declareShape_of_ne (by decide), findChild_declareName_of_ne (by decide),
    findChild_withLayers_of_ne hnames (layerKey_ne n).1]

/-- A network for inference is written without an error. It is read again as it is exactly if its name
was in quotes, or is with the suffix a word of the kind that it was without; and with its name in quotes
it always is. -/
theorem forRunning_roundTrips_iff {text : String} (hn : parse text = .ok n) (hd : IsDeclaration n)
    (h : forRunning settings input shape n = .ok (r, transform)) :
    (∃ text, serialize r = .ok text) ∧
      (RoundTrips r ↔ ∀ c ∈ n.findChild "name", ∀ v ∈ c.value,
        IsLiteral (v ++ settings.liveSuffix) c.valueType) ∧
      RoundTrips (quoteName r) := by
  have hdescription := isDescription_of_text hn
  obtain ⟨m, hm, hname, rfl⟩ := isDescription_declared hdescription hd h
  refine ⟨exists_serialize_addSuffix _ hm, ?_, ?_⟩
  · rw [roundTrips_iff_isDescription, addSuffix_eq, hm.modifyChild_iff (name_suffixed _), hname]
    exact forall₂_congr fun c hc =>
      isField_suffixed_iff (hdescription.isField (List.mem_of_find?_eq_some hc))
  · have hname : ∀ c, ((quoted ∘ suffixed settings.liveSuffix) c).name = c.name := fun c =>
      name_quoted _
    rw [roundTrips_iff_isDescription, quoteName, addSuffix_eq,
      modifyChild_modifyChild (name_suffixed _), hm.modifyChild_iff hname]
    exact fun c hc => isField_quoted_suffixed (hm.isField (List.mem_of_find?_eq_some hc))

end Whole

def quotedName : String :=
  "name: \"a\\\"b\" input: 7 input_shape \x7b dim: x \x7d layer \x7b type: \"ReLU\" bottom: 1e3 \x7d"

theorem forRunning_roundTrips_quotedName :
    ∃ n r, parse quotedName = .ok n ∧ forRunning .standard "data" smallInput n = .ok r ∧
      RoundTrips r.1 := by
  obtain ⟨n, ⟨r, transform⟩, hn, hr, hd⟩ := exists_forRunning quotedName String.toList_ofList
      (fun n _ => decide
    (IsDeclaration n ∧ ∀ c ∈ n.findChild "name", c.valueType = .string)) (by decide +kernel)
  obtain ⟨hdeclaration, hquoted⟩ := of_decide_eq_true hd
  refine ⟨n, (r, transform), hn, hr, ?_⟩
  exact (forRunning_roundTrips_iff hn hdeclaration hr).2.1.mpr fun c hc _ _ => .inl (hquoted c hc)

theorem forRunning_requoted :
    ∃ n r, parse "name: net" = .ok n ∧ IsDeclaration n ∧
      forRunning .standard "data" smallInput n = .ok r ∧ ¬ RoundTrips r.1 := by
  obtain ⟨n, r, hn, hr, hd⟩ := exists_forRunning "name: net" String.toList_ofList (fun n r => decide
    (IsDeclaration n ∧ r.findChild "name" = some (leaf "name" "net - Live" .unknown)))
    (by decide +kernel)
  obtain ⟨hdeclaration, hname⟩ := of_decide_eq_true hd
  refine ⟨n, r, hn, hdeclaration, hr, fun hround => ?_⟩
  have hfield : IsField (leaf "name" "net - Live" .unknown) :=
    (roundTrips_iff_isDescription.mp hround).isField (List.mem_of_find?_eq_some hname)
  rcases (isField_leaf_iff (by decide)).mp hfield with ht | ⟨hword, -⟩
  · cases ht
  · exact absurd hword (by decide)

end NetDesc.Network
