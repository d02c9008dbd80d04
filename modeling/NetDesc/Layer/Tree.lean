import NetDesc.Layer.Basic
import NetDesc.Record.Tree

namespace NetDesc

open Decimal

def LayerKind.ofNode (n : Node) : Result LayerKind :=
  match n.findValue "type" with
  | some text => LayerKind.parse text
  | none =>
    let name := (n.findValue "name").getD ""
    .error (.undecodable (.noType (if name.isEmpty then "<unnamed>" else name)))

namespace Layer

def readLimits (limits : List (Phase × Int)) : List Node → Result (List (Phase × Int))
  | [] => .ok limits
  | n :: ns => do
    let counts ← n.findInts "count"
    match n.findValue "phase", counts with
    | some text, c :: _ => readLimits (putLimit limits (← parsePhase text) c) ns
    | _, _ => readLimits limits ns

/-- The records of the legal slots, a later block of a slot in place of an earlier one; beside them
the illegal slots that were passed over. -/
def readSlots (kind : LayerKind) (params : List (Slot × Record)) :
    List Node → List Slot × Result (List (Slot × Record))
  | [] => ([], .ok params)
  | n :: ns =>
    match Slot.ofName? n.name with
    | none => readSlots kind params ns
    | some s =>
      if !kind.legalSlots.contains s then
        let rest := readSlots kind params ns
        (s :: rest.1, rest.2)
      else
        match Record.ofNode s.recordClass n with
        | .ok r => readSlots kind (putParam params s r) ns
        | .error e => ([], .error e)

def readFields (n : Node) : Result Layer := do
  let kind ← LayerKind.ofNode n
  let layer := create kind ((n.findValue "name").getD "")
  let phase ← (n.findValue "phase").mapM parsePhase
  let lossWeight ← n.findDoubles "loss_weight"
  let parameters ← (n.findChildren "param").mapM (Record.ofNode .paramSpec)
  let blobs ← (n.findChildren "blobs").mapM (Record.ofNode .blob)
  let propagateDown ← n.findBools "propagate_down"
  let includeRules ← (n.findChildren "include").mapM (Record.ofNode .stateRule)
  let excludeRules ← (n.findChildren "exclude").mapM (Record.ofNode .stateRule)
  let limits ← readLimits layer.maxBottomCount (n.findChildren "max_bottom_count")
  return { layer with
    bottom := n.findValues "bottom"
    top := n.findValues "top"
    phase := phase
    lossWeight := lossWeight
    parameters := parameters
    blobs := blobs
    propagateDown := propagateDown
    includeRules := includeRules
    excludeRules := excludeRules
    maxBottomCount := limits }

structure Dropped where
  slot : Slot
  kind : LayerKind
  layerName : String

def Dropped.message (d : Dropped) : String :=
  "Dropping '" ++ d.slot.name ++ "' from " ++ d.kind.name ++ " layer '" ++ d.layerName ++ "'"

def decode (n : Node) : List Dropped × Result Layer :=
  match readFields n with
  | .error e => ([], .error e)
  | .ok l =>
    let read := readSlots l.kind l.params n.children
    (read.1.map fun s => ⟨s, l.kind, l.name⟩, read.2.map fun params => { l with params := params })

def ofNode (n : Node) : Result Layer :=
  (decode n).2

def limitNode (limit : Phase × Int) : Node :=
  .block "max_bottom_count"
    [.leaf "phase" limit.1.name .unknown, .scalar "count" (toString limit.2)]

def toNode (l : Layer) (name : String) : Node :=
  .block name
    ((if l.name.isEmpty then [] else [.leaf "name" l.name .string]) ++
      [.leaf "type" l.kind.name .string] ++
      l.bottom.map (fun s => .leaf "bottom" s .string) ++
      l.top.map (fun s => .leaf "top" s .string) ++
      l.phase.toList.map (fun p => .leaf "phase" p.name .unknown) ++
      l.lossWeight.map (fun x => .leaf "loss_weight" (Decimal.format x) .numeric) ++
      l.parameters.map (fun r => r.toNode "param") ++
      l.blobs.map (fun r => r.toNode "blobs") ++
      l.propagateDown.map (fun b => .leaf "propagate_down" (Json.bool b).scalarText .bool) ++
      l.includeRules.map (fun r => r.toNode "include") ++
      l.excludeRules.map (fun r => r.toNode "exclude") ++
      l.maxBottomCount.map limitNode ++
      l.params.map fun p => p.2.toNode p.1.name)

def records (l : Layer) : List Record :=
  l.parameters ++ l.blobs ++ l.includeRules ++ l.excludeRules ++ l.params.map Prod.snd

def isWritable (l : Layer) : Bool :=
  l.records.all Record.isWritable && l.maxBottomCount.all fun p => !isTooLong p.2.natAbs

def encode (l : Layer) (name : String) : Result Node :=
  if l.isWritable then .ok (l.toNode name) else .error (.badLiteral .unwritten)

end Layer

end NetDesc
