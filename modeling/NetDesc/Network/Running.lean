import NetDesc.Network.Layers
import NetDesc.Settings

namespace NetDesc.Network

open Node

structure InputShape where
  batch : Int
  channels : Int
  height : Int
  width : Int
deriving DecidableEq, Repr

def InputShape.dims (s : InputShape) : List Int :=
  [s.batch, s.channels, s.height, s.width]

def keepFirst {α : Type} (p : α → Bool) : Nat → List α → List α
  | _, [] => []
  | 0, x :: xs => if p x then keepFirst p 0 xs else x :: keepFirst p 0 xs
  | n + 1, x :: xs => if p x then x :: keepFirst p n xs else x :: keepFirst p (n + 1) xs

def keepBottoms (n : Nat) (layer : Node) : Node :=
  { layer with children := keepFirst (fun c => c.name == "bottom") n layer.children }

def dropLastBottom (layer : Node) : Node :=
  keepBottoms ((layer.findChildren "bottom").length - 1) layer

def runLimit? : List Node → Result (Option Int)
  | [] => .ok none
  | b :: bs =>
    match b.findValue "phase" with
    | none => runLimit? bs
    | some text => do
      if (← parsePhase text) = .run then
        match ← b.findInts "count" with
        | c :: _ => return some c
        | [] => runLimit? bs
      else runLimit? bs

/-- Losses are kept whatever phases they include, since they may become the output. -/
def Traits.runs (t : Traits) : Bool :=
  t.kind ≠ .labelMapping && t.kind ≠ .debug && !t.excluded.contains .run &&
    (t.kind = .softmaxWithLoss || t.included.contains .run ||
      !t.included.any fun p => p = .train || p = .test)

def running (t : Traits) (layer : Node) : Result (Option Node) := do
  if t.runs then
    let layer := if t.kind = .binaryHash then dropLastBottom layer else layer
    match ← runLimit? (layer.findChildren "max_bottom_count") with
    | some limit => return some (keepBottoms limit.toNat layer)
    | none => return some layer
  else return none

def toSoftmax (layer : Node) : Node :=
  let layer := (layer.setValue "type" LayerKind.softmax.name (some .string)).removeValue
    "bottom" "label" true
  { layer with children := layer.children.filter fun c =>
      c.name != "loss_weight" && c.name != "loss_param" }

def settle (hasSoftmax : Bool) (t : Traits) (layer : Option Node) : Option Node :=
  if t.kind = .softmaxWithLoss then (if hasSoftmax then none else layer.map toSoftmax) else layer

def testTransform? (scanned : List (Traits × Node)) : Option Node :=
  scanned.findSome? fun l => if l.1.feeds .test then l.2.findChild "transform_param" else none

def setDims : List Node → List Int → List Node
  | cs, [] => cs
  | [], ds => ds.map fun d => scalar "dim" (toString d)
  | c :: cs, d :: ds =>
    if c.name = "dim" then c.withValue (toString d) .numeric :: setDims cs ds
    else c :: setDims cs (d :: ds)

/-- Input and shape are edited in place where they are, and otherwise stand after the place that
the name had. -/
def declareInput (place : Nat) (input : String) (dims : List Int) (n : Node) : Node :=
  let hasInput := (n.findChild "input").isSome
  let n' := if hasInput then n.modifyChild "input" fun c => c.withValue input .string
    else n.insert place (leaf "input" input .string)
  if (n.findChild "input_shape").isSome then
    n'.modifyChild "input_shape" fun c => { c with children := setDims c.children dims }
  else
    n'.insert (if hasInput then place else place + 1)
      (block "input_shape" (setDims [] dims))

def addSuffix (suffix : String) (n : Node) : Node :=
  n.modifyChild "name" fun c => { c with value := c.value.map (· ++ suffix) }

def inputName (n : Node) (input : String) : String :=
  (((layers n).head?.map fun l => l.findValues "bottom").bind List.head?).getD input

def forRunning (settings : Settings) (input : String) (shape : InputShape) (n : Node) :
    Result (Node × Option Node) := do
  if shape.dims.any fun d => Decimal.isTooLong d.natAbs then .error (.badLiteral .unwritten)
  else
    let scanned ← (layers n).mapM fun l => do
      let t ← traits l
      return (t, l, ← running t l)
    let hasSoftmax := scanned.any fun l => l.1.kind = .softmax
    let kept := withLayers n (scanned.map fun l => settle hasSoftmax l.1 l.2.2)
    let place := (n.findChildIndex "name").elim 0 (· + 1)
    return (addSuffix settings.liveSuffix
        (declareInput place (inputName kept input) shape.dims kept),
      testTransform? (scanned.map fun l => (l.1, l.2.1)))

end NetDesc.Network
