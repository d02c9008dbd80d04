import NetDesc.Failure
import NetDesc.Layer.Slot
import NetDesc.Text.Case

namespace NetDesc

inductive LayerKind where
  | absVal
  | accuracy
  | argMax
  | bias
  | batchNorm
  | batchReIndex
  | bnll
  | concat
  | contrastiveLoss
  | convolution
  | crop
  | deconvolution
  | data
  | dropout
  | dummyData
  | eltwise
  | elu
  | embed
  | euclideanLoss
  | exp
  | filter
  | flatten
  | gradientScaler
  | grn
  | hingeLoss
  | im2Col
  | infogainLoss
  | innerProduct
  | labelMapping
  | log
  | lrn
  | memoryData
  | multinomialLogisticLoss
  | mvn
  | pooling
  | power
  | prelu
  | reduction
  | relu
  | reshape
  | scale
  | sigmoid
  | sigmoidCrossEntropyLoss
  | softmax
  | softmaxWithLoss
  | spp
  | silence
  | slice
  | split
  | swish
  | tanh
  | threshold
  | tile
  | lstmSimple
  | rnn
  | lstm
  | lstmUnit
  | input
  | batchData
  | reinforcementLoss
  | unPooling1
  | unPooling2
  | normalization
  | simpleTripletLoss
  | tripletLoss
  | tripletSelection
  | tripletData
  | knn
  | debug
  | binaryHash
deriving DecidableEq, Repr, Inhabited

namespace LayerKind

def name : LayerKind → String
  | .absVal => "AbsVal"
  | .accuracy => "Accuracy"
  | .argMax => "ArgMax"
  | .bias => "Bias"
  | .batchNorm => "BatchNorm"
  | .batchReIndex => "BatchReIndex"
  | .bnll => "BNLL"
  | .concat => "Concat"
  | .contrastiveLoss => "ContrastiveLoss"
  | .convolution => "Convolution"
  | .crop => "Crop"
  | .deconvolution => "Deconvolution"
  | .data => "Data"
  | .dropout => "Dropout"
  | .dummyData => "DummyData"
  | .eltwise => "Eltwise"
  | .elu => "ELU"
  | .embed => "Embed"
  | .euclideanLoss => "EuclideanLoss"
  | .exp => "EXP"
  | .filter => "Filter"
  | .flatten => "Flatten"
  | .gradientScaler => "GSL"
  | .grn => "GRN"
  | .hingeLoss => "HingeLoss"
  | .im2Col => "Im2Col"
  | .infogainLoss => "InfogainLoss"
  | .innerProduct => "InnerProduct"
  | .labelMapping => "LabelMapping"
  | .log => "Log"
  | .lrn => "LRN"
  | .memoryData => "MemoryData"
  | .multinomialLogisticLoss => "MultinomialLogisticLoss"
  | .mvn => "MVN"
  | .pooling => "Pooling"
  | .power => "Power"
  | .prelu => "PReLU"
  | .reduction => "Reduction"
  | .relu => "ReLU"
  | .reshape => "Reshape"
  | .scale => "Scale"
  | .sigmoid => "Sigmoid"
  | .sigmoidCrossEntropyLoss => "SigmoidCrossEntropyLoss"
  | .softmax => "Softmax"
  | .softmaxWithLoss => "SoftmaxWithLoss"
  | .spp => "SPP"
  | .silence => "Silence"
  | .slice => "Slice"
  | .split => "Split"
  | .swish => "Swish"
  | .tanh => "TanH"
  | .threshold => "Threshold"
  | .tile => "Tile"
  | .lstmSimple => "LstmSimple"
  | .rnn => "Rnn"
  | .lstm => "Lstm"
  | .lstmUnit => "LstmUnit"
  | .input => "Input"
  | .batchData => "BatchData"
  | .reinforcementLoss => "ReinforcementLoss"
  | .unPooling1 => "UnPooling1"
  | .unPooling2 => "UnPooling2"
  | .normalization => "Normalization"
  | .simpleTripletLoss => "SimpleTripletLoss"
  | .tripletLoss => "TripletLoss"
  | .tripletSelection => "TripletSelection"
  | .tripletData => "TripletData"
  | .knn => "Knn"
  | .debug => "Debug"
  | .binaryHash => "BinaryHash"

def every : List LayerKind :=
  [.absVal, .accuracy, .argMax, .bias, .batchNorm, .batchReIndex, .bnll, .concat,
    .contrastiveLoss, .convolution, .crop, .deconvolution, .data, .dropout, .dummyData, .eltwise,
    .elu, .embed, .euclideanLoss, .exp, .filter, .flatten, .gradientScaler, .grn, .hingeLoss,
    .im2Col, .infogainLoss, .innerProduct, .labelMapping, .log, .lrn, .memoryData,
    .multinomialLogisticLoss, .mvn, .pooling, .power, .prelu, .reduction, .relu, .reshape, .scale,
    .sigmoid, .sigmoidCrossEntropyLoss, .softmax, .softmaxWithLoss, .spp, .silence, .slice, .split,
    .swish, .tanh, .threshold, .tile, .lstmSimple, .rnn, .lstm, .lstmUnit, .input, .batchData,
    .reinforcementLoss, .unPooling1, .unPooling2, .normalization, .simpleTripletLoss, .tripletLoss,
    .tripletSelection, .tripletData, .knn, .debug, .binaryHash]

def tag (k : LayerKind) : Nat :=
  every.idxOf k

def isLoss : LayerKind → Bool
  | .contrastiveLoss | .euclideanLoss | .hingeLoss | .infogainLoss
  | .multinomialLogisticLoss | .sigmoidCrossEntropyLoss | .softmaxWithLoss | .reinforcementLoss
  | .simpleTripletLoss | .tripletLoss => true
  | _ => false

def isData : LayerKind → Bool
  | .data | .batchData | .tripletData => true
  | _ => false

def aliases : List (String × LayerKind) :=
  [("contrastive_loss", .contrastiveLoss), ("euclidean_loss", .euclideanLoss),
    ("hinge_loss", .hingeLoss), ("infogain_loss", .infogainLoss), ("inner_product", .innerProduct),
    ("multinomiallogistic_loss", .multinomialLogisticLoss),
    ("reinforcement_loss", .reinforcementLoss),
    ("sigmoidcrossentropy_loss", .sigmoidCrossEntropyLoss), ("softmaxwith_loss", .softmaxWithLoss),
    ("softmax_loss", .softmaxWithLoss), ("simple_triplet_loss", .simpleTripletLoss),
    ("triplet_data", .tripletData), ("triplet_loss", .tripletLoss),
    ("triplet_selection", .tripletSelection), ("lstm_simple", .lstmSimple),
    ("lstm_unit", .lstmUnit)]

def parse? (text : String) : Option LayerKind :=
  let key := Text.lower (String.ofList (Text.trim Text.isBlank text.toList))
  match every.find? fun k => Text.lower k.name == key with
  | some k => some k
  | none => aliases.lookup key

def parse (text : String) : Result LayerKind :=
  match parse? text with
  | some k => .ok k
  | none => .error (.unknown "type" text)

structure Spec where
  bottom : List String
  top : List String
  slots : List Slot
  extra : List Slot
  maxBottom : List (Phase × Int)

def spec : LayerKind → Spec
  | .absVal =>
    ⟨["input"], ["abs"], [], [], []⟩
  | .accuracy =>
    ⟨["input", "label"], ["accuracy"], [.accuracy], [], []⟩
  | .argMax =>
    ⟨["input"], ["max"], [.argMax], [], []⟩
  | .bias =>
    ⟨["input", "bias"], ["bias"], [.bias], [], []⟩
  | .batchNorm =>
    ⟨["input"], ["norm"], [.batchNorm], [], []⟩
  | .batchReIndex =>
    ⟨["input", "idx"], ["data"], [], [], []⟩
  | .bnll =>
    ⟨["input"], ["bnll"], [], [], []⟩
  | .concat =>
    ⟨["x_1", "x_2"], ["concat"], [.concat], [], []⟩
  | .contrastiveLoss =>
    ⟨["a", "b", "s"], ["loss"], [.loss, .contrastiveLoss], [], []⟩
  | .convolution =>
    ⟨["input"], ["output"], [.convolution], [], []⟩
  | .crop =>
    ⟨["upscore", "data"], ["score"], [.crop], [], []⟩
  | .deconvolution =>
    ⟨["score"], ["upscore"], [.convolution], [], []⟩
  | .data =>
    ⟨[], ["data", "label"], [.transformation, .data], [], []⟩
  | .dropout =>
    ⟨["input"], ["dropout"], [.dropout], [], []⟩
  | .dummyData =>
    ⟨[], ["data", "label"], [.transformation, .dummyData], [], []⟩
  | .eltwise =>
    ⟨["x_1", "x_2"], ["eltwise"], [.eltwise], [], []⟩
  | .elu =>
    ⟨["input"], ["elu"], [.elu], [], []⟩
  | .embed =>
    ⟨["input"], ["embed"], [.embed], [], []⟩
  | .euclideanLoss =>
    ⟨["pred", "trgt"], ["loss"], [.loss], [], []⟩
  | .exp =>
    ⟨["input"], ["exp"], [.exp], [], []⟩
  | .filter =>
    ⟨["x_1", "x_2"], ["y_1", "y_2"], [], [], []⟩
  | .flatten =>
    ⟨["x_1", "x_2"], ["flatten"], [.flatten], [], []⟩
  | .gradientScaler =>
    ⟨["input"], ["identity"], [.gradientScale], [], []⟩
  | .grn =>
    ⟨["input"], ["grn"], [], [], []⟩
  | .hingeLoss =>
    ⟨["pred", "label"], ["loss"], [.loss, .hingeLoss], [], []⟩
  | .im2Col =>
    ⟨["input"], ["output"], [.convolution], [], []⟩
  | .infogainLoss =>
    ⟨["pred", "label", "H"], ["loss"], [.loss, .infogainLoss], [], []⟩
  | .innerProduct =>
    ⟨["input"], ["ip"], [.innerProduct], [], []⟩
  | .labelMapping =>
    ⟨["input"], ["output"], [.labelMapping], [], []⟩
  | .log =>
    ⟨["input"], ["log"], [.log], [], []⟩
  | .lrn =>
    ⟨["input"], ["lrn"], [.lrn], [], []⟩
  | .memoryData =>
    ⟨[], ["data", "label"], [.transformation, .memoryData], [], []⟩
  | .multinomialLogisticLoss =>
    ⟨["pred", "label"], ["loss"], [.loss], [], []⟩
  | .mvn =>
    ⟨["input"], ["mvn"], [.mvn], [], []⟩
  | .pooling =>
    ⟨["input"], ["pool"], [.pooling], [], []⟩
  | .power =>
    ⟨["input"], ["power"], [.power], [], []⟩
  | .prelu =>
    ⟨["input"], ["prelu"], [.prelu], [], []⟩
  | .reduction =>
    ⟨["input"], ["reduction"], [.reduction], [], []⟩
  | .relu =>
    ⟨["input"], ["relu"], [.relu], [], []⟩
  | .reshape =>
    ⟨["input"], ["reshape"], [.reshape], [], []⟩
  | .scale =>
    ⟨["input"], ["scale"], [.scale], [], []⟩
  | .sigmoid =>
    ⟨["input"], ["sigmoid"], [.sigmoid], [], []⟩
  | .sigmoidCrossEntropyLoss =>
    ⟨["scores", "trgt"], ["loss"], [.loss, .sigmoid], [], []⟩
  | .softmax =>
    ⟨["input"], ["softmax"], [.softmax], [], []⟩
  | .softmaxWithLoss =>
    ⟨["pred", "label"], ["loss"], [.loss, .softmax], [], []⟩
  | .spp =>
    ⟨["input"], ["spp"], [.spp], [], []⟩
  | .silence =>
    ⟨["input"], [], [], [], []⟩
  | .slice =>
    ⟨["input"], ["slice1", "slice2"], [.slice], [], []⟩
  | .split =>
    ⟨["input"], ["split1", "split2"], [], [], []⟩
  | .swish =>
    ⟨["input"], ["swish"], [.swish], [], []⟩
  | .tanh =>
    ⟨["input"], ["tanh"], [.tanh], [], []⟩
  | .threshold =>
    ⟨["input"], ["thresh"], [.threshold], [], []⟩
  | .tile =>
    ⟨["input"], ["tile"], [.tile], [], []⟩
  | .lstmSimple =>
    ⟨["input"], ["lstm"], [.lstmSimple], [], []⟩
  | .rnn =>
    ⟨["time", "seq", "stat"], ["rnn"], [.recurrent], [], []⟩
  | .lstm =>
    ⟨["time", "seq", "stat"], ["lstm"], [.recurrent], [], []⟩
  | .lstmUnit =>
    ⟨[], [], [], [], []⟩
  | .input =>
    ⟨[], [], [.input], [], []⟩
  | .batchData =>
    ⟨["imgidx"], ["data", "label"], [.transformation, .batchData], [], []⟩
  | .reinforcementLoss =>
    ⟨["pred", "label"], ["loss"], [.reinforcementLoss], [.loss], []⟩
  | .unPooling1 =>
    ⟨["pool", "mask"], ["unpool"], [.pooling], [], []⟩
  | .unPooling2 =>
    ⟨["pool", "mask"], ["unpool"], [.pooling], [], []⟩
  | .normalization =>
    ⟨["input"], ["norm"], [.normalization], [], []⟩
  | .simpleTripletLoss =>
    ⟨["input", "label"], ["loss"], [.loss, .tripletLossSimple], [], []⟩
  | .tripletLoss =>
    ⟨["anchor", "pos", "neg", "label"], ["loss"], [.loss, .tripletLoss], [], []⟩
  | .tripletSelection =>
    ⟨["input"], ["anchor", "pos", "neg"], [], [], []⟩
  | .tripletData =>
    ⟨[], ["data", "label"], [.transformation, .data], [], []⟩
  | .knn =>
    ⟨["input", "label"], ["classes"], [.knn], [], [(.run, 1)]⟩
  | .debug =>
    ⟨["input", "label"], ["output"], [.debug], [], []⟩
  | .binaryHash =>
    ⟨["input1", "input2", "input3", "label"], ["binhash"], [.binaryHash], [], []⟩

def legalSlots (k : LayerKind) : List Slot :=
  k.spec.slots ++ k.spec.extra

end LayerKind

end NetDesc
