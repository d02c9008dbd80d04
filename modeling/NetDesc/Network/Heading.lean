import NetDesc.Network.Training
import NetDesc.Tree.Description

namespace NetDesc.Network

open Node

mutual

def inLine : Node → String
  | ⟨name, some v, t, _⟩ => name ++ ": " ++ literal v t
  | ⟨name, none, _, children⟩ => name ++ " \x7b " ++ inLineList children ++ "\x7d"

def inLineList : List Node → String
  | [] => ""
  | c :: cs => inLine c ++ " " ++ inLineList cs

end

inductive HeadingError where
  | failure (e : Failure)
  | noBlock
  | noDataBlock
deriving DecidableEq, Repr

def underHeading (heading : String) (fields : List Node) : Except HeadingError Node := do
  let n ← (parse (inLine (block heading fields))).mapError .failure
  match n.children with
  | layer :: _ => return layer
  | [] => .error .noBlock

def dataUnderHeading (heading name : String) (phase : Phase) (native : Bool) (source : String)
    (settings : Settings) : Except HeadingError Node := do
  let layer ← underHeading heading (dataFields phase native settings)
  if (layer.findChild "data_param").isNone then .error .noDataBlock
  else return nameData name source layer

def accuracyUnderHeading (heading bottom : String) (settings : Settings) :
    Except HeadingError Node :=
  (underHeading heading (accuracyFields settings)).map (measure bottom)

end NetDesc.Network
