namespace NetDesc

inductive ValueType where
  | string
  | numeric
  | bool
  | unknown
deriving DecidableEq, Repr, Inhabited

def ValueType.name : ValueType → String
  | .string => "STRING"
  | .numeric => "NUMERIC"
  | .bool => "BOOL"
  | .unknown => "UNKNOWN"

structure Node where
  name : String
  value : Option String
  valueType : ValueType
  children : List Node
deriving Repr, Inhabited

namespace Node

mutual

def beq : Node → Node → Bool
  | ⟨n, v, t, cs⟩, ⟨n', v', t', cs'⟩ => n == n' && v == v' && t == t' && beqList cs cs'

def beqList : List Node → List Node → Bool
  | [], [] => true
  | c :: cs, c' :: cs' => beq c c' && beqList cs cs'
  | _, _ => false

end

mutual

theorem eq_of_beq : ∀ {a b : Node}, beq a b = true → a = b
  | ⟨n, v, t, cs⟩, ⟨n', v', t', cs'⟩, h => by
    simp only [beq, Bool.and_eq_true, beq_iff_eq] at h
    obtain ⟨⟨⟨rfl, rfl⟩, rfl⟩, hc⟩ := h
    rw [eq_of_beqList hc]

theorem eq_of_beqList : ∀ {as bs : List Node}, beqList as bs = true → as = bs
  | [], [], _ => rfl
  | [], _ :: _, h => by simp [beqList] at h
  | _ :: _, [], h => by simp [beqList] at h
  | a :: as, b :: bs, h => by
    simp only [beqList, Bool.and_eq_true] at h
    rw [eq_of_beq h.1, eq_of_beqList h.2]

end

mutual

theorem beq_refl : ∀ a : Node, beq a a = true
  | ⟨n, v, t, cs⟩ => by simp [beq, beqList_refl cs]

theorem beqList_refl : ∀ as : List Node, beqList as as = true
  | [] => rfl
  | a :: as => by simp [beqList, beq_refl a, beqList_refl as]

end

theorem beq_iff_eq {a b : Node} : beq a b = true ↔ a = b :=
  ⟨eq_of_beq, fun h => h ▸ beq_refl a⟩

instance : DecidableEq Node := fun a b =>
  decidable_of_iff (beq a b = true) beq_iff_eq

def block (name : String) (children : List Node) : Node :=
  ⟨name, none, .unknown, children⟩

def leaf (name value : String) (valueType : ValueType) : Node :=
  ⟨name, some value, valueType, []⟩

def rootName : String := "root"

def root (children : List Node) : Node :=
  block rootName children

def isBlock (n : Node) : Bool :=
  n.value.isNone

def findChild (n : Node) (name : String) : Option Node :=
  n.children.find? fun c => c.name == name

def findChildren (n : Node) (name : String) : List Node :=
  n.children.filter fun c => c.name == name

def findValue (n : Node) (name : String) : Option String :=
  (n.findChild name).bind (·.value)

def findValues (n : Node) (name : String) : List String :=
  (n.findChildren name).filterMap (·.value)

def findChildIndex (n : Node) (name : String) : Option Nat :=
  n.children.findIdx? fun c => c.name == name

mutual

def names : Node → List String
  | ⟨n, _, _, cs⟩ => n :: namesList cs

def namesList : List Node → List String
  | [] => []
  | c :: cs => names c ++ namesList cs

end

end Node

end NetDesc
