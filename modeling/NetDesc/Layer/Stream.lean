import NetDesc.Layer.Basic
import NetDesc.Stream.Reader
import NetDesc.Stream.Writer
import NetDesc.Tree.Description

namespace NetDesc

namespace Layer

def writeLimit (limit : Phase × Int) : Writer Unit := do
  Writer.int limit.1.tag
  Writer.int limit.2

def writeParam (p : Slot × Record) : Writer Unit := do
  Writer.int p.1.tag
  Writer.record p.2

def write (l : Layer) : Writer Unit := do
  Writer.int l.kind.tag
  Writer.text l.name
  Writer.texts l.bottom
  Writer.texts l.top
  Writer.text? (l.phase.map Phase.name)
  Writer.doubles l.lossWeight
  Writer.records l.parameters
  Writer.records l.blobs
  Writer.bools l.propagateDown
  Writer.records l.includeRules
  Writer.records l.excludeRules
  Writer.list writeLimit l.maxBottomCount
  Writer.list writeParam l.params

def readTag {α : Type} (table : List α) (what : String) : Reader α := do
  let tag ← Reader.int
  match if tag < 0 then none else table[tag.toNat]? with
  | some x => return x
  | none => throw (.unknown what (toString tag))

def readPhase : Reader (Option Phase) := do
  match ← Reader.text? with
  | none => return none
  | some text => ExceptT.mk (pure ((parsePhase text).map some))

def readLimit : Reader (Phase × Int) := do
  let p ← readTag Phase.every "phase tag"
  return (p, ← Reader.int)

def readParam (kind : LayerKind) : Reader (Slot × Record) := do
  let s ← readTag Slot.every "parameter block tag"
  if !kind.legalSlots.contains s then
    throw (.undecodable (.illegalSlot s.name kind.name))
  return (s, ← Reader.record s.recordClass)

def read : Reader Layer := do
  let kind ← readTag LayerKind.every "layer type tag"
  let name ← Reader.text
  let bottom ← Reader.texts
  let top ← Reader.texts
  let phase ← readPhase
  let lossWeight ← Reader.doubles
  let parameters ← Reader.records .paramSpec
  let blobs ← Reader.records .blob
  let propagateDown ← Reader.bools
  let includeRules ← Reader.records .stateRule
  let excludeRules ← Reader.records .stateRule
  let limits ← Reader.list readLimit
  let params ← Reader.list (readParam kind)
  return { blank kind name with
    bottom := bottom
    top := top
    phase := phase
    lossWeight := lossWeight
    parameters := parameters
    blobs := blobs
    propagateDown := propagateDown
    includeRules := includeRules
    excludeRules := excludeRules
    maxBottomCount := limits.foldl (fun ls l => putLimit ls l.1 l.2) []
    params := params.foldl (fun ps p => putParam ps p.1 p.2) [] }

def toBytes (l : Layer) : Result Bytes :=
  let written := l.write
  written.ending.map fun _ => written.bytes

/-- What follows the record is not looked at. -/
def ofBytes (bs : Bytes) : Result Layer :=
  (Reader.run read bs).1

end Layer

end NetDesc
