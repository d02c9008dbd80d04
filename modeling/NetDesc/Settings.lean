import NetDesc.Record.Check

namespace NetDesc

structure Settings where
  dataBatchSize : Nat := 16
  dataBackend : Choice.Word .backend := ⟨"IMAGEDB", by decide⟩
  liveSuffix : String := " - Live"
  accuracyTopK : Nat := 1
  lossNormalization : Choice.Word .normalization := ⟨"VALID", by decide⟩
  defaultSolverType : String := "SGD"
  dataBatchSize_pos : 0 < dataBatchSize := by decide
  accuracyTopK_pos : 0 < accuracyTopK := by decide
deriving DecidableEq, Repr

def Settings.standard : Settings := {}

namespace Check

def word (c : Choice) (j : Json) : Except FieldFault (Choice.Word c) := do
  let s ← member c j
  if h : s ∈ c.members then return ⟨s, h⟩ else .error (.notAMember s)

end Check

namespace Settings

def fieldNames : List String :=
  ["data_batch_size", "data_backend", "live_suffix", "accuracy_top_k", "loss_normalization",
    "default_solver_type"]

def build (batch : { n : Nat // 0 < n }) (backend : Choice.Word .backend) (suffix : String)
    (topK : { n : Nat // 0 < n }) (normalization : Choice.Word .normalization)
    (solverType : String) : Settings :=
  ⟨batch, backend, suffix, topK, normalization, solverType, batch.2, topK.2⟩

def unknownFields (fields : List (String × Json)) : List Fault :=
  (fields.filter fun f => !fieldNames.contains f.1).map fun f => ⟨[.field f.1], .unknownField⟩

def ofFields (fields : List (String × Json)) : Checked Settings :=
  let d := standard
  let field {α : Type} (name : String) (standard : α) (check : Json → Except FieldFault α) :=
    Checked.field fields name standard check
  let known : Checked Settings :=
    ((((((Checked.pure build).with
      (field "data_batch_size" ⟨d.dataBatchSize, d.dataBatchSize_pos⟩ Check.positive)).with
      (field "data_backend" d.dataBackend (Check.word .backend))).with
      (field "live_suffix" d.liveSuffix Check.text)).with
      (field "accuracy_top_k" ⟨d.accuracyTopK, d.accuracyTopK_pos⟩ Check.positive)).with
      (field "loss_normalization" d.lossNormalization (Check.word .normalization))).with
      (field "default_solver_type" d.defaultSolverType Check.text)
  match known, unknownFields fields with
  | .ok s, [] => .ok s
  | .ok _, gs => .error gs
  | .error fs, gs => .error (fs ++ gs)

def ofJson (j : Json) : Checked Settings :=
  match j with
  | .object fields => ofFields fields
  | j => .error [⟨[], Check.recordFault "Settings" j⟩]

def toJson (s : Settings) : List (String × Json) :=
  [("data_batch_size", .int s.dataBatchSize), ("data_backend", .text s.dataBackend.text),
    ("live_suffix", .text s.liveSuffix), ("accuracy_top_k", .int s.accuracyTopK),
    ("loss_normalization", .text s.lossNormalization.text),
    ("default_solver_type", .text s.defaultSolverType)]

end Settings

end NetDesc
