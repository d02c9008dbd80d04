import NetDesc.Settings
import NetDesc.Tree.Description

namespace NetDesc.Solver

def variableText (value : Json) : Result String :=
  match value with
  | .float x => .ok (Decimal.format x)
  | v => Node.leafText v

def setVariable (n : Node) (name : String) (value : Json) : Result Node :=
  (variableText value).map fun text => n.setValue name text none

def nonEmpty (s : String) : Bool :=
  !s.isEmpty

def solverType (settings : Settings) (n : Node) : String :=
  ((n.findValue "type").filter nonEmpty).getD settings.defaultSolverType

def trainer? (n : Node) : Option String :=
  (n.findValue "custom_trainer").filter nonEmpty

end NetDesc.Solver
