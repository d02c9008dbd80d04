import NetDesc.Decimal.Numeral
import NetDesc.Failure
import NetDesc.Json.Writer
import NetDesc.Phase
import NetDesc.Tree.Edit

namespace NetDesc

open Text

def parse (text : String) : Result Node :=
  (Node.parse text).mapError .malformed

def serialize (n : Node) : Result String :=
  n.serialize.mapError .mixed

def parsePhase (text : String) : Result Phase :=
  match Phase.parse? text with
  | some p => .ok p
  | none => .error (.unknown "phase" text)

namespace Node

def readScalars {α : Type} (kind : String) (read : String → Option α) (n : Node) (name : String) :
    Result (List α) :=
  (n.findValues name).mapM fun v =>
    match read v with
    | some x => .ok x
    | none => .error (.undecodable (.badScalar name kind v))

def findInts (n : Node) (name : String) : Result (List Int) :=
  n.readScalars "int" Decimal.readInt? name

def findDoubles (n : Node) (name : String) : Result (List Decimal.Double) :=
  n.readScalars "float" Decimal.readDouble? name

def readBool? (s : String) : Option Bool :=
  if isWord "true" s then some true
  else if isWord "false" s then some false
  else none

def findBools (n : Node) (name : String) : Result (List Bool) :=
  n.readScalars "bool" readBool? name

def leafText (value : Json) : Result String :=
  if value.isWritable then .ok value.scalarText else .error (.badLiteral .unwritten)

def assign (n : Node) (name : String) (value : Json) (valueType : Option ValueType) : Result Node :=
  (leafText value).map fun text => n.setValue name text valueType

end Node

end NetDesc
