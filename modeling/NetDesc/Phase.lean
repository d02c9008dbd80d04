import NetDesc.Text.Case
import NetDesc.Text.Char

namespace NetDesc

inductive Phase where
  | none
  | train
  | test
  | run
  | all
deriving DecidableEq, Repr, Inhabited

namespace Phase

def name : Phase → String
  | .none => "NONE"
  | .train => "TRAIN"
  | .test => "TEST"
  | .run => "RUN"
  | .all => "ALL"

def every : List Phase :=
  [.none, .train, .test, .run, .all]

def tag : Phase → Nat
  | .none => 0
  | .train => 1
  | .test => 2
  | .run => 3
  | .all => 4

def expand : Phase → List Phase
  | .none => []
  | .all => [.run, .test, .train]
  | p => [p]

def ofName? (s : String) : Option Phase :=
  every.find? fun p => p.name == s

def parse? (s : String) : Option Phase :=
  ofName? (Text.upper (String.ofList (Text.trim Text.isBlank s.toList)))

end Phase

end NetDesc
