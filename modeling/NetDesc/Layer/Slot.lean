import NetDesc.Record.Schema

namespace NetDesc

inductive Slot where
  | transformation
  | loss
  | accuracy
  | argMax
  | batchData
  | batchNorm
  | bias
  | binaryHash
  | concat
  | contrastiveLoss
  | convolution
  | crop
  | data
  | debug
  | dropout
  | dummyData
  | eltwise
  | elu
  | embed
  | exp
  | flatten
  | gradientScale
  | hingeLoss
  | infogainLoss
  | innerProduct
  | knn
  | labelMapping
  | log
  | lrn
  | memoryData
  | mvn
  | normalization
  | pooling
  | power
  | prelu
  | reduction
  | reinforcementLoss
  | relu
  | reshape
  | scale
  | sigmoid
  | softmax
  | spp
  | slice
  | swish
  | tanh
  | threshold
  | tile
  | tripletLoss
  | tripletLossSimple
  | lstmSimple
  | recurrent
  | input
deriving DecidableEq, Repr, Inhabited

namespace Slot

def name : Slot → String
  | .transformation => "transform_param"
  | .loss => "loss_param"
  | .accuracy => "accuracy_param"
  | .argMax => "argmax_param"
  | .batchData => "batch_data_param"
  | .batchNorm => "batch_norm_param"
  | .bias => "bias_param"
  | .binaryHash => "binaryhash_param"
  | .concat => "concat_param"
  | .contrastiveLoss => "contrastive_loss_param"
  | .convolution => "convolution_param"
  | .crop => "crop_param"
  | .data => "data_param"
  | .debug => "debug_param"
  | .dropout => "dropout_param"
  | .dummyData => "dummy_data_param"
  | .eltwise => "eltwise_param"
  | .elu => "elu_param"
  | .embed => "embed_param"
  | .exp => "exp_param"
  | .flatten => "flatten_param"
  | .gradientScale => "gradient_scale_param"
  | .hingeLoss => "hinge_loss_param"
  | .infogainLoss => "infogain_loss_param"
  | .innerProduct => "inner_product_param"
  | .knn => "knn_param"
  | .labelMapping => "labelmapping_param"
  | .log => "log_param"
  | .lrn => "lrn_param"
  | .memoryData => "memory_data_param"
  | .mvn => "mvn_param"
  | .normalization => "normalization_param"
  | .pooling => "pooling_param"
  | .power => "power_param"
  | .prelu => "prelu_param"
  | .reduction => "reduction_param"
  | .reinforcementLoss => "reinforcement_loss_param"
  | .relu => "relu_param"
  | .reshape => "reshape_param"
  | .scale => "scale_param"
  | .sigmoid => "sigmoid_param"
  | .softmax => "softmax_param"
  | .spp => "spp_param"
  | .slice => "slice_param"
  | .swish => "swish_param"
  | .tanh => "tanh_param"
  | .threshold => "threshold_param"
  | .tile => "tile_param"
  | .tripletLoss => "triplet_loss_param"
  | .tripletLossSimple => "triplet_loss_simple_param"
  | .lstmSimple => "lstm_simple_param"
  | .recurrent => "recurrent_param"
  | .input => "input_param"

def recordClass : Slot → RecordClass
  | .transformation => .transformation
  | .loss => .loss
  | .accuracy => .accuracy
  | .argMax => .argMax
  | .batchData => .batchData
  | .batchNorm => .batchNorm
  | .bias => .bias
  | .binaryHash => .binaryHash
  | .concat => .concat
  | .contrastiveLoss => .contrastiveLoss
  | .convolution => .convolution
  | .crop => .crop
  | .data => .data
  | .debug => .debug
  | .dropout => .dropout
  | .dummyData => .dummyData
  | .eltwise => .eltwise
  | .elu => .elu
  | .embed => .embed
  | .exp => .exp
  | .flatten => .flatten
  | .gradientScale => .gradientScale
  | .hingeLoss => .hingeLoss
  | .infogainLoss => .infogainLoss
  | .innerProduct => .innerProduct
  | .knn => .knn
  | .labelMapping => .labelMapping
  | .log => .log
  | .lrn => .lrn
  | .memoryData => .memoryData
  | .mvn => .mvn
  | .normalization => .normalization
  | .pooling => .pooling
  | .power => .power
  | .prelu => .prelu
  | .reduction => .reduction
  | .reinforcementLoss => .reinforcementLoss
  | .relu => .relu
  | .reshape => .reshape
  | .scale => .scale
  | .sigmoid => .sigmoid
  | .softmax => .softmax
  | .spp => .spp
  | .slice => .slice
  | .swish => .swish
  | .tanh => .tanh
  | .threshold => .threshold
  | .tile => .tile
  | .tripletLoss => .tripletLoss
  | .tripletLossSimple => .tripletLossSimple
  | .lstmSimple => .lstmSimple
  | .recurrent => .recurrent
  | .input => .input

def every : List Slot :=
  [.transformation, .loss, .accuracy, .argMax, .batchData, .batchNorm, .bias, .binaryHash,
    .concat, .contrastiveLoss, .convolution, .crop, .data, .debug, .dropout, .dummyData, .eltwise,
    .elu, .embed, .exp, .flatten, .gradientScale, .hingeLoss, .infogainLoss, .innerProduct, .knn,
    .labelMapping, .log, .lrn, .memoryData, .mvn, .normalization, .pooling, .power, .prelu,
    .reduction, .reinforcementLoss, .relu, .reshape, .scale, .sigmoid, .softmax, .spp, .slice,
    .swish, .tanh, .threshold, .tile, .tripletLoss, .tripletLossSimple, .lstmSimple, .recurrent,
    .input]

def tag (s : Slot) : Nat :=
  every.idxOf s

def ofName? (name : String) : Option Slot :=
  every.find? fun s => s.name == name

end Slot

end NetDesc
