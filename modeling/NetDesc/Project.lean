import NetDesc.Network.Lookup
import NetDesc.Network.Rebinding
import NetDesc.Network.Running
import NetDesc.Network.Sources
import NetDesc.Network.Training
import NetDesc.Solver

namespace NetDesc

/-- A last change to a tree after it was bound to a dataset: values to set, a field for the
dataset's name, and perhaps a text in place of the tree. It hands a tree back if it has such a text
or is told to hand back the tree it changed. -/
structure Override where
  values : List (String × String) := []
  datasetField : Option String := none
  replacement : Option String := none
  handsBack : Bool := false
deriving Repr

namespace Override

def edit (o : Override) (b : Binding) (n : Node) : Node :=
  let n := o.values.foldl (fun n v => n.setValue v.1 v.2 none) n
  match o.datasetField with
  | some field => n.setValue field b.name none
  | none => n

def result? (o : Override) (edited : Node) : Result (Option Node) :=
  match o.replacement with
  | some text => (parse text).map some
  | none => .ok (if o.handsBack then some edited else none)

end Override

structure Project where
  name : String
  settings : Settings := .standard
  dataset : Binding := {}
  model : Option Node := none
  solver : Option Node := none
  onModel : Option Override := none
  onSolver : Option Override := none

namespace Project

/-- A tree of the text, in step with the dataset: a dataset without a name takes the names of the
tree's sources, and one with a name gives them. -/
def sync (p : Project) (text : String) : Result (Node × Binding) := do
  let n ← parse text
  if p.dataset.name.isEmpty then return (n, ← Network.readSources p.dataset n)
  else return (← Network.applySources p.dataset n, p.dataset)

def syncText (p : Project) (text : Option String) : Result (Option Node × Binding) :=
  match text.filter fun t => !t.isEmpty with
  | some t => (p.sync t).map fun r => (some r.1, r.2)
  | none => .ok (none, p.dataset)

def setModel (text : Option String) (p : Project) : Result Project :=
  (p.syncText text).map fun r => { p with model := r.1, dataset := r.2 }

def setSolver (text : Option String) (p : Project) : Result Project :=
  (p.syncText text).map fun r => { p with solver := r.1, dataset := r.2 }

def setVariable (name : String) (value : Json) (p : Project) : Result Project :=
  match p.solver with
  | none => .ok p
  | some n => (Solver.setVariable n name value).map fun n => { p with solver := some n }

/-- The model on the project's dataset, and whether outputs were resized. An override changes it
even when it hands nothing back. -/
def reboundModel (p : Project) (resize : Bool) : Result (Option Node × Bool) :=
  match p.model with
  | none => .ok (none, false)
  | some m => do
    let (n, resized) ← Network.rebind p.dataset resize m
    match p.onModel with
    | none => return (some n, resized)
    | some o =>
      let edited := o.edit p.dataset n
      return (some ((← o.result? edited).getD edited), resized)

def overriddenSolver (p : Project) : Result (Option Node) :=
  match p.solver, p.onSolver with
  | some s, some o => do
    return some ((← o.result? (o.edit p.dataset s)).getD s)
  | s, _ => .ok s

/-- Binds the project to a dataset. A failure leaves what was done before it: the dataset, and the
model when it is the solver that fails. -/
def setDataset (b : Binding) (resize : Bool) (p : Project) : Project × Result Bool :=
  let p := { p with dataset := b }
  match p.reboundModel resize with
  | .error e => (p, .error e)
  | .ok (model, resized) =>
    let p := { p with model }
    match p.overriddenSolver with
    | .error e => (p, .error e)
    | .ok solver => ({ p with solver }, .ok resized)

def modelName? (p : Project) : Option String :=
  p.model.bind Network.name?

def solverType (p : Project) : String :=
  match p.solver with
  | some s => Solver.solverType p.settings s
  | none => p.settings.defaultSolverType

def trainer? (p : Project) : Option String :=
  p.solver.bind Solver.trainer?

def batchSize (p : Project) (phase : Phase) : Result Int :=
  match p.model with
  | some m => Network.batchSize phase m
  | none => .ok 0

def setting (p : Project) (phase : Phase) (block field : String) :
    Result (Option Decimal.Double) :=
  match p.model with
  | some m => Network.setting phase block field m
  | none => .ok none

def trainingModel (p : Project) (native : Bool) : Result (Option Node) :=
  p.model.mapM fun m => Network.forTraining p.settings p.name native m

def runningModel (p : Project) (input : String) (shape : Network.InputShape) :
    Result (Option (Node × Option Node)) :=
  p.model.mapM fun m => Network.forRunning p.settings input shape m

def describe (p : Project) : String :=
  p.name ++ " (" ++ (if p.dataset.name.isEmpty then "no dataset" else p.dataset.name) ++ ")"

end Project

end NetDesc
