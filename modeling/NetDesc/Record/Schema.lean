import NetDesc.Json.Basic
import NetDesc.Phase

namespace NetDesc

open Decimal

inductive Choice where
  | engine
  | colorOrder
  | normalization
  | backend
  | pool
  | eltwise
  | reduction
  | region
  | hinge
  | variance
  | phase
deriving DecidableEq, Repr

def Choice.members : Choice → List String
  | .engine => ["DEFAULT", "CAFFE", "CUDNN"]
  | .colorOrder => ["RGB", "BGR"]
  | .normalization => ["FULL", "VALID", "BATCH_SIZE", "NONE"]
  | .backend => ["IMAGEDB", "LEVELDB", "LMDB"]
  | .pool => ["MAX", "AVE", "STOCHASTIC"]
  | .eltwise => ["PROD", "SUM", "MAX"]
  | .reduction => ["SUM", "ASUM", "SUMSQ", "MEAN"]
  | .region => ["ACROSS_CHANNELS", "WITHIN_CHANNEL"]
  | .hinge => ["L1", "L2"]
  | .variance => ["FAN_IN", "FAN_OUT", "AVERAGE"]
  | .phase => Phase.every.map Phase.name

structure Choice.Word (c : Choice) where
  text : String
  isMember : text ∈ c.members
deriving DecidableEq, Repr

inductive RecordClass where
  | transformation
  | loss
  | accuracy
  | argMax
  | batchData
  | batchNorm
  | bias
  | binaryHash
  | concat
  | contrastiveLoss
  | convolution
  | crop
  | data
  | debug
  | dropout
  | dummyData
  | eltwise
  | elu
  | embed
  | exp
  | flatten
  | gradientScale
  | hingeLoss
  | infogainLoss
  | innerProduct
  | knn
  | labelMapping
  | log
  | lrn
  | memoryData
  | mvn
  | normalization
  | pooling
  | power
  | prelu
  | reduction
  | reinforcementLoss
  | relu
  | reshape
  | scale
  | sigmoid
  | softmax
  | spp
  | slice
  | swish
  | tanh
  | threshold
  | tile
  | tripletLoss
  | tripletLossSimple
  | lstmSimple
  | recurrent
  | input
  | filler
  | blobShape
  | blob
  | paramSpec
  | stateRule
deriving DecidableEq, Repr, Inhabited

def RecordClass.name : RecordClass → String
  | .transformation => "TransformationParameter"
  | .loss => "LossParameter"
  | .accuracy => "AccuracyParameter"
  | .argMax => "ArgMaxParameter"
  | .batchData => "BatchDataParameter"
  | .batchNorm => "BatchNormParameter"
  | .bias => "BiasParameter"
  | .binaryHash => "BinaryHashParameter"
  | .concat => "ConcatParameter"
  | .contrastiveLoss => "ContrastiveLossParameter"
  | .convolution => "ConvolutionParameter"
  | .crop => "CropParameter"
  | .data => "DataParameter"
  | .debug => "DebugParameter"
  | .dropout => "DropoutParameter"
  | .dummyData => "DummyDataParameter"
  | .eltwise => "EltwiseParameter"
  | .elu => "EluParameter"
  | .embed => "EmbedParameter"
  | .exp => "ExpParameter"
  | .flatten => "FlattenParameter"
  | .gradientScale => "GradientScaleParameter"
  | .hingeLoss => "HingeLossParameter"
  | .infogainLoss => "InfogainLossParameter"
  | .innerProduct => "InnerProductParameter"
  | .knn => "KnnParameter"
  | .labelMapping => "LabelMappingParameter"
  | .log => "LogParameter"
  | .lrn => "LRNParameter"
  | .memoryData => "MemoryDataParameter"
  | .mvn => "MVNParameter"
  | .normalization => "NormalizationParameter"
  | .pooling => "PoolingParameter"
  | .power => "PowerParameter"
  | .prelu => "PReLUParameter"
  | .reduction => "ReductionParameter"
  | .reinforcementLoss => "ReinforcementLossParameter"
  | .relu => "ReLUParameter"
  | .reshape => "ReshapeParameter"
  | .scale => "ScaleParameter"
  | .sigmoid => "SigmoidParameter"
  | .softmax => "SoftmaxParameter"
  | .spp => "SPPParameter"
  | .slice => "SliceParameter"
  | .swish => "SwishParameter"
  | .tanh => "TanhParameter"
  | .threshold => "ThresholdParameter"
  | .tile => "TileParameter"
  | .tripletLoss => "TripletLossParameter"
  | .tripletLossSimple => "TripletLossSimpleParameter"
  | .lstmSimple => "LSTMSimpleParameter"
  | .recurrent => "RecurrentParameter"
  | .input => "InputParameter"
  | .filler => "FillerParameter"
  | .blobShape => "BlobShape"
  | .blob => "BlobProto"
  | .paramSpec => "ParamSpec"
  | .stateRule => "NetStateRule"

def RecordClass.every : List RecordClass :=
  [.transformation, .loss, .accuracy, .argMax, .batchData, .batchNorm, .bias, .binaryHash,
    .concat, .contrastiveLoss, .convolution, .crop, .data, .debug, .dropout, .dummyData, .eltwise,
    .elu, .embed, .exp, .flatten, .gradientScale, .hingeLoss, .infogainLoss, .innerProduct, .knn,
    .labelMapping, .log, .lrn, .memoryData, .mvn, .normalization, .pooling, .power, .prelu,
    .reduction, .reinforcementLoss, .relu, .reshape, .scale, .sigmoid, .softmax, .spp, .slice,
    .swish, .tanh, .threshold, .tile, .tripletLoss, .tripletLossSimple, .lstmSimple, .recurrent,
    .input, .filler, .blobShape, .blob, .paramSpec, .stateRule]

def RecordClass.ofName? (name : String) : Option RecordClass :=
  every.find? fun c => c.name == name

inductive Bound where
  | any
  | positive
  | nonNegative
  | ratio
deriving DecidableEq, Repr

inductive Shape where
  | int (bound : Bound)
  | float (bound : Bound)
  | bool
  | text
  | choice (c : Choice)
  | record (c : RecordClass)
deriving DecidableEq, Repr

/-- The value of a field. A record has an entry for each field of its class, in their order; the flag
says that the field was given and does not stand at its default. -/
inductive Value where
  | plain (j : Json)
  | choice (word : String)
  | list (items : List Value)
  | record (c : RecordClass) (entries : List (Bool × Value))
deriving Repr, Inhabited

inductive Occurrence where
  | once (standard : Value)
  | optional
  | repeated
deriving Repr

structure FieldSpec where
  name : String
  shape : Shape
  occurrence : Occurrence
deriving Repr

namespace FieldSpec

def int (name : String) (bound : Bound) (standard : Int) : FieldSpec :=
  ⟨name, .int bound, .once (.plain (.int standard))⟩

def float (name : String) (bound : Bound) (standard : Double) : FieldSpec :=
  ⟨name, .float bound, .once (.plain (.float standard))⟩

def bool (name : String) (standard : Bool) : FieldSpec :=
  ⟨name, .bool, .once (.plain (.bool standard))⟩

def text (name standard : String) : FieldSpec :=
  ⟨name, .text, .once (.plain (.text standard))⟩

def choice (name : String) (c : Choice) (standard : String) : FieldSpec :=
  ⟨name, .choice c, .once (.choice standard)⟩

def optional (name : String) (shape : Shape) : FieldSpec :=
  ⟨name, shape, .optional⟩

def repeated (name : String) (shape : Shape) : FieldSpec :=
  ⟨name, shape, .repeated⟩

def standard (f : FieldSpec) : Value :=
  match f.occurrence with
  | .once v => v
  | .optional => .plain .null
  | .repeated => .list []

end FieldSpec

def RecordClass.fields : RecordClass → List FieldSpec
  | .transformation =>
    [.float "scale" .any 1.0,
      .bool "mirror" false,
      .int "crop_size" .nonNegative 0,
      .bool "use_imagedb_mean" false,
      .repeated "mean_value" (.float .any),
      .optional "mean_file" .text,
      .bool "force_color" false,
      .bool "force_gray" false,
      .choice "color_order" .colorOrder "RGB"]
  | .loss =>
    [.optional "ignore_label" (.int .any),
      .choice "normalization" .normalization "VALID",
      .optional "normalize" .bool]
  | .accuracy =>
    [.int "top_k" .positive 1,
      .int "axis" .any 1,
      .optional "ignore_label" (.int .any)]
  | .argMax =>
    [.bool "out_max_val" false,
      .int "top_k" .positive 1,
      .optional "axis" (.int .any)]
  | .batchData =>
    [.text "source" "",
      .int "iterations" .nonNegative 1,
      .int "batch_set_count" .nonNegative 1,
      .choice "backend" .backend "IMAGEDB"]
  | .batchNorm =>
    [.optional "use_global_stats" .bool,
      .float "moving_average_fraction" .any 0.999,
      .float "eps" .any 1e-05,
      .choice "engine" .engine "DEFAULT"]
  | .bias =>
    [.int "axis" .any 1,
      .int "num_axes" .any 1,
      .optional "filler" (.record .filler)]
  | .binaryHash =>
    [.bool "enable_debug" false,
      .int "cache_depth" .nonNegative 1000,
      .int "pool_size" .nonNegative 3,
      .int "top_k" .nonNegative 3]
  | .concat =>
    [.int "axis" .any 1]
  | .contrastiveLoss =>
    [.float "margin" .any 1.0,
      .bool "legacy_version" false]
  | .convolution =>
    [.int "num_output" .nonNegative 0,
      .bool "bias_term" true,
      .repeated "pad" (.int .any),
      .repeated "kernel_size" (.int .any),
      .repeated "stride" (.int .any),
      .repeated "dilation" (.int .any),
      .optional "pad_h" (.int .any),
      .optional "pad_w" (.int .any),
      .optional "kernel_h" (.int .any),
      .optional "kernel_w" (.int .any),
      .optional "stride_h" (.int .any),
      .optional "stride_w" (.int .any),
      .int "group" .positive 1,
      .optional "weight_filler" (.record .filler),
      .optional "bias_filler" (.record .filler),
      .int "axis" .any 1,
      .choice "engine" .engine "DEFAULT"]
  | .crop =>
    [.int "axis" .any 2,
      .repeated "offset" (.int .any)]
  | .data =>
    [.text "source" "",
      .int "batch_size" .nonNegative 1,
      .choice "backend" .backend "IMAGEDB",
      .int "prefetch" .nonNegative 4,
      .optional "enable_random_selection" .bool,
      .optional "enable_pair_selection" .bool,
      .bool "display_timing" false,
      .bool "primary_data" true]
  | .debug =>
    [.int "max_stored_batches" .nonNegative 1000]
  | .dropout =>
    [.float "dropout_ratio" .ratio 0.5]
  | .dummyData =>
    [.repeated "data_filler" (.record .filler),
      .repeated "shape" (.record .blobShape)]
  | .eltwise =>
    [.choice "operation" .eltwise "SUM",
      .repeated "coeff" (.float .any),
      .bool "stable_prod_grad" true]
  | .elu =>
    [.float "alpha" .any 1.0,
      .choice "engine" .engine "DEFAULT"]
  | .embed =>
    [.int "num_output" .nonNegative 0,
      .int "input_dim" .nonNegative 0,
      .bool "bias_term" true,
      .optional "weight_filler" (.record .filler),
      .optional "bias_filler" (.record .filler)]
  | .exp =>
    [.float "base" .any (-1.0),
      .float "scale" .any 1.0,
      .float "shift" .any 0.0]
  | .flatten =>
    [.int "axis" .any 1,
      .int "end_axis" .any (-1)]
  | .gradientScale =>
    [.float "lower_bound" .any 0.0,
      .float "upper_bound" .any 1.0,
      .float "alpha" .any 10.0,
      .float "max_iter" .any 1.0]
  | .hingeLoss =>
    [.choice "norm" .hinge "L1"]
  | .infogainLoss =>
    [.text "source" ""]
  | .innerProduct =>
    [.int "num_output" .nonNegative 0,
      .bool "bias_term" true,
      .optional "weight_filler" (.record .filler),
      .optional "bias_filler" (.record .filler),
      .int "axis" .any 1,
      .bool "transpose" false]
  | .knn =>
    [.int "num_output" .nonNegative 10,
      .int "k" .positive 100,
      .int "max_stored_batches" .nonNegative 10]
  | .labelMapping =>
    [.repeated "mapping" .text,
      .bool "update_database" false,
      .bool "reset_database_labels" false]
  | .log =>
    [.float "base" .any (-1.0),
      .float "scale" .any 1.0,
      .float "shift" .any 0.0]
  | .lrn =>
    [.int "local_size" .positive 5,
      .float "alpha" .any 1.0,
      .float "beta" .any 0.75,
      .choice "norm_region" .region "ACROSS_CHANNELS",
      .float "k" .any 1.0,
      .choice "engine" .engine "DEFAULT"]
  | .memoryData =>
    [.int "batch_size" .nonNegative 1,
      .int "channels" .nonNegative 1,
      .int "height" .nonNegative 1,
      .int "width" .nonNegative 1]
  | .mvn =>
    [.bool "normalize_variance" true,
      .bool "across_channels" false,
      .float "eps" .any 1e-09]
  | .normalization =>
    [.bool "across_spatial" true,
      .bool "channel_shared" true,
      .float "eps" .any 1e-10,
      .optional "scale_filler" (.record .filler)]
  | .pooling =>
    [.choice "pool" .pool "MAX",
      .repeated "pad" (.int .any),
      .repeated "kernel_size" (.int .any),
      .repeated "stride" (.int .any),
      .optional "pad_h" (.int .any),
      .optional "pad_w" (.int .any),
      .optional "kernel_h" (.int .any),
      .optional "kernel_w" (.int .any),
      .optional "stride_h" (.int .any),
      .optional "stride_w" (.int .any),
      .bool "global_pooling" false,
      .choice "engine" .engine "DEFAULT"]
  | .power =>
    [.float "power" .any 1.0,
      .float "scale" .any 1.0,
      .float "shift" .any 0.0]
  | .prelu =>
    [.optional "filler" (.record .filler),
      .bool "channel_shared" false]
  | .reduction =>
    [.choice "operation" .reduction "SUM",
      .int "axis" .any 0,
      .float "coeff" .any 1.0]
  | .reinforcementLoss =>
    [.float "exploration_rate_start" .any 0.6,
      .float "exploration_rate_end" .any 0.4,
      .float "exploration_rate_decay" .any 6.0,
      .float "discount_rate" .ratio 0.99]
  | .relu =>
    [.float "negative_slope" .any 0.0,
      .choice "engine" .engine "DEFAULT"]
  | .reshape =>
    [.optional "shape" (.record .blobShape),
      .int "axis" .any 0,
      .int "num_axes" .any (-1)]
  | .scale =>
    [.int "axis" .any 1,
      .int "num_axes" .any 1,
      .optional "filler" (.record .filler),
      .bool "bias_term" false,
      .optional "bias_filler" (.record .filler)]
  | .sigmoid =>
    [.choice "engine" .engine "DEFAULT"]
  | .softmax =>
    [.int "axis" .any 1,
      .choice "engine" .engine "DEFAULT"]
  | .spp =>
    [.int "pyramid_height" .positive 1,
      .choice "pool" .pool "MAX",
      .choice "engine" .engine "DEFAULT"]
  | .slice =>
    [.int "axis" .any 1,
      .repeated "slice_point" (.int .any),
      .optional "slice_dim" (.int .any)]
  | .swish =>
    [.float "beta" .any 1.0]
  | .tanh =>
    [.choice "engine" .engine "DEFAULT"]
  | .threshold =>
    [.float "threshold" .any 0.0]
  | .tile =>
    [.int "axis" .any 1,
      .int "tiles" .positive 1]
  | .tripletLoss =>
    [.float "alpha" .any 1.1,
      .int "pregen_label_start" .any 0]
  | .tripletLossSimple =>
    [.float "alpha" .any 1.1,
      .bool "separate" false,
      .int "max_stored_batches" .nonNegative 10]
  | .lstmSimple =>
    [.int "num_output" .nonNegative 0,
      .float "clipping_threshold" .any 0.0,
      .optional "weight_filler" (.record .filler),
      .optional "bias_filler" (.record .filler),
      .int "batch_size" .nonNegative 1,
      .bool "enable_clockwork_forgetgate_bias" false]
  | .recurrent =>
    [.int "num_output" .nonNegative 0,
      .optional "weight_filler" (.record .filler),
      .optional "bias_filler" (.record .filler),
      .bool "debug_info" false,
      .bool "expose_hidden" false]
  | .input =>
    [.repeated "shape" (.record .blobShape)]
  | .filler =>
    [.text "type" "constant",
      .float "value" .any 0.0,
      .float "min" .any 0.0,
      .float "max" .any 1.0,
      .float "mean" .any 0.0,
      .float "std" .any 1.0,
      .int "sparse" .any (-1),
      .choice "variance_norm" .variance "FAN_IN"]
  | .blobShape =>
    [.repeated "dim" (.int .any)]
  | .blob =>
    [.optional "shape" (.record .blobShape),
      .repeated "data" (.float .any),
      .repeated "diff" (.float .any),
      .optional "num" (.int .any),
      .optional "channels" (.int .any),
      .optional "height" (.int .any),
      .optional "width" (.int .any)]
  | .paramSpec =>
    [.optional "name" .text,
      .float "lr_mult" .any 1.0,
      .float "decay_mult" .any 1.0]
  | .stateRule =>
    [.optional "phase" (.choice .phase),
      .optional "min_level" (.int .any),
      .optional "max_level" (.int .any),
      .repeated "stage" .text,
      .repeated "not_stage" .text]

def RecordClass.field? (c : RecordClass) (name : String) : Option FieldSpec :=
  c.fields.find? fun f => f.name == name

end NetDesc
