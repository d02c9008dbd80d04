import NetDesc.Binding
import NetDesc.Network.Layers

namespace NetDesc.Network

open Node

/-- How a data layer with an include rule is fed: for training or for tests, from the primary
dataset or the second one, and, from the primary one, in batches of a known size. -/
structure Feed where
  slot : Phase
  primary : Bool
  batch : Option Int
deriving Repr

def feed? (kind : LayerKind) (layer : Node) : Result (Option Feed) :=
  match layer.findChild (sourceBlockName kind) with
  | none => .ok none
  | some block => do
    let phase ← includePhase layer
    if phase = .none then return none
    else
      let primary ← isPrimary block
      let sizes ← if primary then block.findInts "batch_size" else pure []
      return some ⟨if phase = .test then .test else .train, primary, sizes.head?⟩

def Feed.source? (b : Binding) (f : Feed) : Option Source :=
  (if f.primary then some b else b.target).map fun d => d.sourceFor f.slot

def recrop (height : Nat) (layer : Node) : Result Node :=
  match layer.findChild "transform_param" with
  | none => .ok layer
  | some transform => do
    match ← transform.findInts "crop_size" with
    | c :: _ =>
      if 0 < height ∧ c ≠ height then
        if Decimal.isTooLong height then .error (.badLiteral .unwritten)
        else return layer.modifyChild "transform_param" fun t =>
          t.setValue "crop_size" (toString height) (some .numeric)
      else return layer
    | [] => return layer

structure Rebound where
  kind : LayerKind
  feed : Option Feed
  layer : Node
deriving Repr

def rebindData (b : Binding) (kind : LayerKind) (layer : Node) : Result Rebound := do
  let feed ← feed? kind layer
  let source := feed.bind (Feed.source? b)
  let layer := match source with
    | some s => layer.modifyChild (sourceBlockName kind) fun block =>
      block.setValue "source" s.name (some .string)
    | none => layer
  return ⟨kind, feed, ← recrop (source.elim 0 Source.imageHeight) layer⟩

def rebindLayer (b : Binding) (layer : Node) : Result Rebound := do
  let kind ← LayerKind.ofNode layer
  if kind.isData then rebindData b kind layer else return ⟨kind, none, layer⟩

namespace Rebound

def batch? (slot : Phase) (r : Rebound) : Option Int :=
  r.feed.bind fun f => if f.slot = slot then f.batch else none

def setBatch (size : Int) (r : Rebound) : Rebound :=
  { r with layer := r.layer.modifyChild (sourceBlockName r.kind) fun block =>
      block.setValue "batch_size" (toString size) (some .numeric) }

def hasOutput (r : Rebound) : Bool :=
  r.kind = .innerProduct &&
    ((r.layer.findChild "inner_product_param").bind fun p => p.findChild "num_output").isSome

def setOutput (count : Nat) (r : Rebound) : Rebound :=
  { r with layer := r.layer.modifyChild "inner_product_param" fun p =>
      p.modifyChild "num_output" fun c => c.withValue (toString count) .numeric }

end Rebound

/-- The last training batches are raised to the size of the last test batches. -/
def raiseBatch (rs : List Rebound) : List Rebound :=
  let last (slot : Phase) := rs.reverse.findSome? (Rebound.batch? slot)
  match last .train, last .test with
  | some train, some test =>
    if train < test then
      modifyLast (fun r => (r.batch? .train).isSome) (Rebound.setBatch test) rs
    else rs
  | _, _ => rs

def beforeLoss : List Rebound → List (Rebound × Bool)
  | [] => []
  | r :: rs => (r, rs.head?.any fun s => s.kind.isLoss) :: beforeLoss rs

def isResized (r : Rebound × Bool) : Bool :=
  r.2 && r.1.hasOutput

/-- The network on the sources of a dataset, and whether outputs were resized to its labels. A crop
or a count with too many digits is not written. -/
def rebind (b : Binding) (resize : Bool) (n : Node) : Result (Node × Bool) := do
  let rs ← (layers n).mapM (rebindLayer b)
  let rs := beforeLoss (raiseBatch rs)
  let count := b.training.labelCount
  if resize && 0 < count then
    let resized := rs.map fun r => if isResized r then r.1.setOutput count else r.1
    if Decimal.isTooLong count && rs.any isResized then .error (.badLiteral .unwritten)
    else return (withLayers n (resized.map fun r => some r.layer), rs.any isResized)
  else return (withLayers n (rs.map fun r => some r.1.layer), false)

end NetDesc.Network
