import NetDesc.Tree.Literal

namespace NetDesc

/-- Insertion before the element at `i`; a negative `i` counts from the end, and one out of range
means the nearest end. -/
def insertAt {α : Type} (i : Int) (x : α) (xs : List α) : List α :=
  let n := if i < 0 then (i + xs.length).toNat else i.toNat
  xs.take n ++ x :: xs.drop n

def dropMatching {α : Type} (p : α → Bool) (firstOnly : Bool) (xs : List α) : List α :=
  if firstOnly then xs.eraseP p else xs.filter fun x => !p x

def modifyFirst {α : Type} (p : α → Bool) (f : α → α) : List α → List α
  | [] => []
  | x :: xs => if p x then f x :: xs else x :: modifyFirst p f xs

namespace Node

def append (n child : Node) : Node :=
  { n with children := n.children ++ [child] }

def insert (n : Node) (i : Int) (child : Node) : Node :=
  { n with children := insertAt i child n.children }

def hasNameValue (name value : String) (c : Node) : Bool :=
  c.name == name && c.value == some value

def removeValue (n : Node) (name value : String) (firstOnly : Bool) : Node :=
  { n with children := dropMatching (hasNameValue name value) firstOnly n.children }

def withValue (n : Node) (value : String) (valueType : ValueType) : Node :=
  { n with value := some value, valueType := valueType }

def modifyChild (n : Node) (name : String) (f : Node → Node) : Node :=
  { n with children := modifyFirst (fun c => c.name == name) f n.children }

/-- Overwrites the value of the first child of that name, or appends such a child. The literal kind
is the given one, else the child's own; a new child's kind follows from its value. -/
def setValue (n : Node) (name value : String) (valueType : Option ValueType) : Node :=
  if (n.findChild name).isSome then
    n.modifyChild name fun c => c.withValue value (valueType.getD c.valueType)
  else n.append (leaf name value (valueType.getD (.infer value)))

end Node

end NetDesc
