import NetDesc.Tree.Literal

namespace NetDesc

open Literal

structure MixedNode where
  name : String
deriving DecidableEq, Repr

def MixedNode.message (e : MixedNode) : String :=
  "Node '" ++ e.name ++ "' has both a value and children"

namespace Node

/-- Words stand bare, even before a line end; strings and what is no word are quoted. -/
def literal (value : String) (valueType : ValueType) : String :=
  if valueType = .string ∨ !withLineEnd isBareWord value.toList then
    String.ofList (quote value.toList)
  else value

def indent (depth : Nat) : String :=
  String.ofList (List.replicate (2 * depth) ' ')

mutual

def lines (depth : Nat) : Node → Except MixedNode (List String)
  | ⟨name, some v, t, []⟩ => .ok [indent depth ++ name ++ ": " ++ literal v t]
  | ⟨name, some _, _, _ :: _⟩ => .error ⟨name⟩
  | ⟨name, none, _, children⟩ => do
    let inner ← linesList (depth + 1) children
    return (indent depth ++ name ++ " \x7b") :: inner ++ [indent depth ++ "\x7d"]

def linesList (depth : Nat) : List Node → Except MixedNode (List String)
  | [] => .ok []
  | c :: cs => do
    let first ← lines depth c
    let rest ← linesList depth cs
    return first ++ rest

end

def ofLines (ls : List String) : String :=
  ls.foldr (fun l text => l ++ "\n" ++ text) ""

def serialize (n : Node) : Except MixedNode String :=
  if n.name = rootName ∧ n.isBlock then ofLines <$> linesList 0 n.children
  else ofLines <$> lines 0 n

end Node

end NetDesc
