import NetDesc.Network.Layers

namespace NetDesc.Network

structure Query where
  layerType : String
  layerName : Option String
deriving Repr

def Query.selects (q : Query) (layer : Node) : Bool :=
  (layer.findValue "type").any (fun t => Text.lower t == Text.lower q.layerType) &&
    q.layerName.all fun name => layer.findValue "name" == some name

def includesExactly (p : Phase) (layer : Node) : Bool :=
  ((layer.findChild "include").bind fun r => r.findValue "phase").any fun t => Text.upper t == p.name

/-- One pass over the layers: a layer for that very phase ends it, and the first layer without rules
is kept for the case that none comes. -/
def seek (q : Query) (p : Phase) (kept : Option Node) : List Node → Option Node
  | [] => kept
  | l :: ls =>
    if !q.selects l then seek q p kept ls
    else if p = .none || includesExactly p l then some l
    else if (l.findChild "include").isNone then seek q p (kept.or (some l)) ls
    else seek q p kept ls

def findLayer? (q : Query) (p : Phase) (n : Node) : Option Node :=
  seek q p none (layers n)

def findParameter (q : Query) (p : Phase) (block : Option String) (field : String) (n : Node) :
    Option String :=
  (findLayer? q p n).bind fun layer =>
    let inner := (block.filter fun b => !b.isEmpty).bind layer.findChild
    (inner.getD layer).findValue field

def findBlock? (p : Phase) (block? : Node → Option Node) : List Node → Result (Option Node)
  | [] => .ok none
  | l :: ls => do
    let fits ← if p = .none then pure true else (includePhase l).map (· == p)
    match if fits then block? l else none with
    | some b => return some b
    | none => findBlock? p block? ls

def batchSize (p : Phase) (n : Node) : Result Int := do
  let block ← findBlock? p
    (fun l => (l.findChild "batch_data_param").or (l.findChild "data_param")) (layers n)
  match block with
  | some b => return (← b.findInts "batch_size").head?.getD 0
  | none => return 0

def setting (p : Phase) (block field : String) (n : Node) : Result (Option Decimal.Double) := do
  match ← findBlock? p (fun l => l.findChild block) (layers n) with
  | some b => return (← b.findDoubles field).head?
  | none => return none

def name? (n : Node) : Option String :=
  n.findValue "name"

end NetDesc.Network
