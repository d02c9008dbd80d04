import NetDesc.Binding
import NetDesc.Network.Layers

namespace NetDesc.Network

structure SourceUse where
  kind : LayerKind
  primary : Bool
  phase : Phase
  name : String
deriving DecidableEq, Repr

def sourceUse? (layer : Node) : Result (Option SourceUse) := do
  let kind ← LayerKind.ofNode layer
  let block := if kind.isData then layer.findChild (sourceBlockName kind) else none
  match block, block.bind fun b => b.findChild "source" with
  | some block, some source =>
    let phase ← includePhase layer
    if phase = .train ∨ phase = .test then
      return some ⟨kind, ← isPrimary block, phase, source.value.getD ""⟩
    else return none
  | _, _ => return none

def secondary (b : Binding) : Binding :=
  b.target.getD { name := if b.name.isEmpty then "" else b.name ++ "_tgt" }

def recordUse (b : Binding) (u : SourceUse) : Binding :=
  if u.primary then b.renameSource u.phase u.name
  else { b with target := some ((secondary b).renameSource u.phase u.name) }

def readSources (b : Binding) (n : Node) : Result Binding := do
  let uses ← (layers n).mapM sourceUse?
  return uses.reduceOption.foldl recordUse b

def boundName? (b : Binding) (u : SourceUse) : Option String :=
  ((if u.primary then some b else b.target).map fun d => (d.sourceFor u.phase).name).filter
    fun name => !name.isEmpty

def applyToLayer (b : Binding) (layer : Node) : Result Node := do
  match ← sourceUse? layer with
  | none => return layer
  | some u =>
    match boundName? b u with
    | none => return layer
    | some name => return layer.modifyChild (sourceBlockName u.kind) fun block =>
      block.modifyChild "source" fun c => c.withValue name .string

def applySources (b : Binding) (n : Node) : Result Node := do
  let ls ← (layers n).mapM (applyToLayer b)
  return withLayers n (ls.map some)

end NetDesc.Network
