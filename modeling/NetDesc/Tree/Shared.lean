import NetDesc.Tree.Edit

/-!
Trees with shared nodes. A node is known by its key, so one node may stand in several places, and a
change shows in all of them.
-/

namespace NetDesc

abbrev Key := Nat

structure Cell where
  name : String
  value : Option String
  valueType : ValueType
  children : List Key
deriving Inhabited

structure Shared where
  cells : Array Cell

namespace Shared

def empty : Shared := ⟨#[]⟩

mutual

def add (s : Shared) : Node → Shared × Key
  | ⟨name, value, valueType, children⟩ =>
    let (s, keys) := addList s children
    (⟨s.cells.push ⟨name, value, valueType, keys⟩⟩, s.cells.size)

def addList (s : Shared) : List Node → Shared × List Key
  | [] => (s, [])
  | c :: cs =>
    let (s, k) := add s c
    let (s, ks) := addList s cs
    (s, k :: ks)

end

def nodeWithin (s : Shared) : Nat → Key → Option Node
  | 0, _ => none
  | depth + 1, k => do
    let c ← s.cells[k]?
    let children ← c.children.mapM (nodeWithin s depth)
    return ⟨c.name, c.value, c.valueType, children⟩

def node? (s : Shared) (k : Key) : Option Node :=
  s.nodeWithin (s.cells.size + 1) k

def cell (s : Shared) (k : Key) : Cell :=
  s.cells.getD k default

def children (s : Shared) (k : Key) : List Key :=
  (s.cell k).children

def findChild (s : Shared) (k : Key) (name : String) : Option Key :=
  (s.children k).find? fun c => (s.cell c).name == name

def findChildren (s : Shared) (k : Key) (names : List String) : List Key :=
  (s.children k).filter fun c => names.contains (s.cell c).name

def indexOf (s : Shared) (k child : Key) : Option Nat :=
  (s.children k).findIdx? (· == child)

def modify (s : Shared) (k : Key) (f : Cell → Cell) : Shared :=
  ⟨s.cells.modify k f⟩

def modifyChildren (s : Shared) (k : Key) (f : List Key → List Key) : Shared :=
  s.modify k fun c => { c with children := f c.children }

def append (s : Shared) (k child : Key) : Shared :=
  s.modifyChildren k (· ++ [child])

def insert (s : Shared) (k : Key) (i : Int) (child : Key) : Shared :=
  s.modifyChildren k (insertAt i child)

def removeChild (s : Shared) (k child : Key) : Shared :=
  s.modifyChildren k (·.erase child)

def removeValue (s : Shared) (k : Key) (name value : String) (firstOnly : Bool) : Shared :=
  let has (c : Key) : Bool := (s.cell c).name == name && (s.cell c).value == some value
  s.modifyChildren k (dropMatching has firstOnly)

def setValue (s : Shared) (k : Key) (name value : String) (valueType : Option ValueType) :
    Shared × Key :=
  match s.findChild k name with
  | some c =>
    (s.modify c fun d => { d with value := some value, valueType := valueType.getD d.valueType }, c)
  | none =>
    let (s, c) := s.add (.leaf name value (valueType.getD (.infer value)))
    (s.append k c, c)

end Shared

end NetDesc
