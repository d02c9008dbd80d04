import NetDesc.Proofs.Tree.Lexing

namespace NetDesc.Node

open Literal

/-- What a text can hold below its top: blocks, quoted values, and words of the kind they read as. -/
inductive IsField : Node → Prop where
  | block {name : String} {children : List Node} (hn : isName name.toList = true)
      (hc : ∀ c ∈ children, IsField c) : IsField (.block name children)
  | string {name : String} (value : String) (hn : isName name.toList = true) :
      IsField (.leaf name value .string)
  | word {name value : String} (hn : isName name.toList = true)
      (hv : isBareWord value.toList = true) : IsField (.leaf name value (.classify value))

def IsDescription (n : Node) : Prop :=
  ∃ children, n = .root children ∧ ∀ c ∈ children, IsField c

/-- Trees that are written so that they can be read, perhaps with literals of another kind. -/
inductive IsWritable : Node → Prop where
  | block {name : String} {valueType : ValueType} {children : List Node}
      (hn : isName name.toList = true) (hc : ∀ c ∈ children, IsWritable c) :
      IsWritable ⟨name, none, valueType, children⟩
  | leaf {name value : String} {valueType : ValueType} (hn : isName name.toList = true)
      (hv : valueType = .string ∨ isBareWord value.toList = true) :
      IsWritable ⟨name, some value, valueType, []⟩

def readKind (value : String) (valueType : ValueType) : ValueType :=
  if valueType = .string then .string else .classify value

mutual

def reread : Node → Node
  | ⟨name, none, _, children⟩ => ⟨name, none, .unknown, rereadList children⟩
  | ⟨name, some value, valueType, children⟩ =>
    ⟨name, some value, readKind value valueType, rereadList children⟩

def rereadList : List Node → List Node
  | [] => []
  | c :: cs => reread c :: rereadList cs

end

theorem rereadList_eq_map (cs : List Node) : rereadList cs = cs.map reread := by
  induction cs with
  | nil => rfl
  | cons c cs ih => rw [rereadList, ih, List.map_cons]

@[simp]
theorem name_reread (n : Node) : n.reread.name = n.name := by
  obtain ⟨name, value, t, children⟩ := n
  cases value <;> rfl

@[simp]
theorem value_reread (n : Node) : n.reread.value = n.value := by
  obtain ⟨name, value, t, children⟩ := n
  cases value <;> rfl

@[simp]
theorem children_reread (n : Node) : n.reread.children = n.children.map reread := by
  obtain ⟨name, value, t, children⟩ := n
  cases value <;> exact rereadList_eq_map children

theorem IsField.isWritable {n : Node} (h : IsField n) : IsWritable n := by
  induction h with
  | block hn _ ih => exact .block hn ih
  | string value hn => exact .leaf hn (.inl rfl)
  | word hn hv => exact .leaf hn (.inr hv)

theorem classify_ne_string (value : String) : ValueType.classify value ≠ .string := by
  unfold ValueType.classify
  split
  · simp
  · split <;> simp

theorem IsField.reread_eq {n : Node} (h : IsField n) : n.reread = n := by
  induction h with
  | @block name children hn _ ih =>
    have hm : rereadList children = children := by
      rw [rereadList_eq_map]
      exact List.map_congr_left ih |>.trans (List.map_id children)
    rw [Node.block, reread, hm]
  | string value hn => simp [leaf, reread, readKind, rereadList]
  | word hn hv => simp [leaf, reread, readKind, rereadList, classify_ne_string]

end NetDesc.Node
