import NetDesc.Network.Layers
import NetDesc.Settings

namespace NetDesc.Network

open Node

def dataFields (phase : Phase) (native : Bool) (settings : Settings) : List Node :=
  [leaf "type" "Data" .string, leaf "top" "data" .string, leaf "top" "label" .string,
    block "include" [leaf "phase" phase.name .unknown],
    block "transform_param"
      [leaf "scale" "1" .numeric, leaf "mirror" "true" .bool, leaf "use_imagedb_mean" "true" .bool,
        leaf "color_order" (if native then "BGR" else "RGB") .unknown],
    block "data_param"
      [leaf "batch_size" (toString settings.dataBatchSize) .numeric,
        leaf "backend" settings.dataBackend.text .unknown,
        leaf "enable_random_selection" "true" .bool]]

def nameData (name source : String) (layer : Node) : Node :=
  (layer.insert 0 (leaf "name" name .string)).modifyChild "data_param" fun block =>
    block.insert 0 (leaf "source" source .string)

def dataLayer (key name : String) (phase : Phase) (native : Bool) (source : String)
    (settings : Settings) : Node :=
  nameData name source (block key (dataFields phase native settings))

def accuracyFields (settings : Settings) : List Node :=
  [leaf "name" "accuracy" .string, leaf "type" "Accuracy" .string, leaf "bottom" "label" .string,
    leaf "top" "accuracy" .string, block "include" [leaf "phase" "TEST" .unknown],
    block "accuracy_param" [leaf "top_k" (toString settings.accuracyTopK) .numeric]]

def measure (bottom : String) (layer : Node) : Node :=
  layer.insert 2 (leaf "bottom" bottom .string)

def accuracyLayer (key bottom : String) (settings : Settings) : Node :=
  measure bottom (block key (accuracyFields settings))

def toLoss (settings : Settings) (layer : Node) : Node :=
  let layer := layer.setValue "type" LayerKind.softmaxWithLoss.name (some .string)
  { layer with children := layer.children ++
      [leaf "bottom" "label" .string, leaf "loss_weight" "1" .numeric,
        block "include" [leaf "phase" "TRAIN" .unknown],
        block "loss_param" [leaf "normalization" settings.lossNormalization.text .unknown]] }

def isSoftmax (l : Traits × Node) : Bool :=
  l.1.kind = .softmax

def withLoss (settings : Settings) (kept : List (Traits × Node)) : List Node :=
  (modifyLast isSoftmax (fun l => (l.1, toLoss settings l.2)) kept).map Prod.snd

/-- Data for tests stand after the first layer with data for training, and these stand first. -/
def withData (make : Phase → Node) (kept : List Traits) (ls : List Node) : List Node :=
  let ls := if kept.any (Traits.feeds .test) then ls
    else
      match kept.findIdx? (Traits.feeds .train) with
      | some i => insertAt (i + 1) (make .test) ls
      | none => make .test :: ls
  if kept.any (Traits.feeds .train) then ls else make .train :: ls

def accuracyFor? (key : String) (settings : Settings) (kept : List Traits) (ls : List Node) :
    Option Node :=
  if kept.any fun t => t.kind = .accuracy then none
  else (ls.getLast?.bind fun l => (l.findValues "bottom").head?).map fun b =>
    accuracyLayer key b settings

def isUnwritten (settings : Settings) (kept : List Traits) (accuracy : Option Node) : Bool :=
  Decimal.isTooLong settings.dataBatchSize &&
      !(kept.any (Traits.feeds .train) && kept.any (Traits.feeds .test)) ||
    Decimal.isTooLong settings.accuracyTopK && accuracy.isSome

/-- A network that was changed, or has input dimensions, keeps its name and layers alone. -/
def forTraining (settings : Settings) (name : String) (native : Bool) (n : Node) :
    Result Node := do
  let key := layerKey n
  let scanned ← (layers n).mapM fun l => do return (← traits l, l)
  let kept := scanned.filter fun l => l.1.trains
  let kinds := kept.map Prod.fst
  let ls := withData (fun p => dataLayer key name p native "" settings) kinds (withLoss settings kept)
  let accuracy := accuracyFor? key settings kinds ls
  let complete := kinds.any (Traits.feeds .train) && kinds.any (Traits.feeds .test) &&
    !kept.any isSoftmax && accuracy.isNone
  if isUnwritten settings kinds accuracy then .error (.badLiteral .unwritten)
  else if complete && (n.findChild "input_dim").isNone then
    return withLayers n (scanned.map fun l => if l.1.trains then some l.2 else none)
  else return root ((n.findChild "name").toList ++ ls ++ accuracy.toList)

end NetDesc.Network
