import NetDesc.Layer.Tree
import NetDesc.Tree.Edit

namespace NetDesc.Network

/-- Layers stand under `layer`, or under the older `layers` where no `layer` is. -/
def layerKey (n : Node) : String :=
  if (n.findChild "layer").isNone && (n.findChild "layers").isSome then "layers" else "layer"

def layers (n : Node) : List Node :=
  n.findChildren (layerKey n)

def rulePhases (rules : List Node) : Result (List Phase) := do
  let named ← (rules.filterMap fun r => r.findValue "phase").mapM parsePhase
  return Phase.all.expand.filter fun p => named.any fun q => q.expand.contains p

def includePhase (layer : Node) : Result Phase :=
  match (layer.findChild "include").bind fun r => r.findValue "phase" with
  | some text => parsePhase text
  | none => .ok .none

structure Traits where
  kind : LayerKind
  included : List Phase
  excluded : List Phase
deriving Repr

def traits (layer : Node) : Result Traits := do
  let kind ← LayerKind.ofNode layer
  let included ← rulePhases (layer.findChildren "include")
  let excluded ← rulePhases (layer.findChildren "exclude")
  return ⟨kind, included, excluded⟩

namespace Traits

/-- Training reads and tests are one job: a layer belongs to it unless a rule says otherwise. -/
def trains (t : Traits) : Bool :=
  t.included.all (fun p => p = .train || p = .test) &&
    !t.excluded.any fun p => p = .train || p = .test

def feeds (p : Phase) (t : Traits) : Bool :=
  t.kind.isData && t.included.contains p

end Traits

def replaceLayers (key : String) : List Node → List (Option Node) → List Node
  | [], _ => []
  | c :: cs, new =>
    if c.name = key then
      match new with
      | l :: ls => l.toList ++ replaceLayers key cs ls
      | [] => replaceLayers key cs []
    else c :: replaceLayers key cs new

def withLayers (n : Node) (new : List (Option Node)) : Node :=
  { n with children := replaceLayers (layerKey n) n.children new }

def modifyLast {α : Type} (p : α → Bool) (f : α → α) (xs : List α) : List α :=
  (modifyFirst p f xs.reverse).reverse

def sourceBlockName (kind : LayerKind) : String :=
  if kind = .batchData then "batch_data_param" else "data_param"

def isPrimary (block : Node) : Result Bool := do
  let flags ← block.findBools "primary_data"
  return flags.head?.getD true

end NetDesc.Network
