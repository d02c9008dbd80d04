import NetDesc.CommandLine.Command
import NetDesc.File
import NetDesc.Layer.Kind
import NetDesc.Network.Lookup
import NetDesc.Network.Rebinding
import NetDesc.Network.Training

namespace NetDesc.CommandLine

open Network

def versionText : String := "0.1.0"

inductive Output where
  | text (s : String)
  | table (rows : List (List String))
deriving Repr

namespace Output

def padded (width : Nat) (s : String) : String :=
  s ++ String.ofList (List.replicate (width - s.length) ' ')

def tableLines (rows : List (List String)) : List String :=
  let widths := rows.foldl (fun ws row => (ws.zip row).map fun p => max p.1 p.2.length)
    ((rows.headD []).map fun _ => 0)
  rows.map fun row => "  ".intercalate ((widths.zip row).map fun p => padded p.1 p.2)

def render : Output → String
  | .text s => s
  | .table rows => String.join ((tableLines rows).map (· ++ "\n"))

end Output

structure Outcome where
  exitCode : UInt32
  output : Output
  files : List (String × String) := []
  messages : List String := []
  failure : Option Failure := none
deriving Repr

namespace Outcome

def success (output : Output) : Outcome :=
  ⟨0, output, [], [], none⟩

def refusal (code : UInt32) (message : String) : Outcome :=
  ⟨code, .text "", [], [message], none⟩

def wrongUsage : Outcome :=
  refusal 2 "usage: version | fmt | train | live | rebind | find | kinds"

def uncaught (e : Failure) : Outcome :=
  ⟨1, .text "", [], [e.message], some e⟩

def failed (path : String) (e : Failure) : Outcome :=
  if e.isConfiguration then refusal 1 (path ++ ": " ++ e.message) else uncaught e

def emitted (n : Node) (out : Option String) : Outcome :=
  match serialize n, out with
  | .error e, _ => uncaught e
  | .ok text, none => success (.text text)
  | .ok text, some path => ⟨0, .text "", [(path, text)], ["Written: " ++ path], none⟩

def withMessages (o : Outcome) (messages : List String) : Outcome :=
  if o.exitCode = 0 then { o with messages := o.messages ++ messages } else o

end Outcome

abbrev Files := List (String × String)

namespace Command

def content (files : Files) (path : String) : String :=
  (files.lookup path).getD ""

def settingsOf (files : Files) (path : Option String) : Result Settings :=
  match path with
  | some p => File.readSettings p (content files p)
  | none => .ok .standard

def runTrain (files : Files) (path name : String) (native : Bool) (settings : Option String) :
    Result Node := do
  let n ← File.readDescription (content files path)
  forTraining (← settingsOf files settings) name native n

def runLive (files : Files) (path input : String) (shape : InputShape)
    (settings : Option String) : Result (Node × Option Node) := do
  let n ← File.readDescription (content files path)
  forRunning (← settingsOf files settings) input shape n

def transformMessages (transform : Option Node) : List String :=
  match transform.map serialize with
  | some (.ok text) => ["Preprocessing:", text]
  | _ => []

def runRebind (files : Files) (path : String) (b : Binding) (resize : Bool) :
    Result (Node × Bool) := do
  Network.rebind b resize (← File.readDescription (content files path))

def runFind (files : Files) (path layerType field : String) (block layerName : Option String)
    (phase : String) : Outcome :=
  match File.readDescription (content files path) with
  | .error e => .failed path e
  | .ok n =>
    match parsePhase phase with
    | .error e => .refusal 2 e.message
    | .ok p =>
      match findParameter ⟨layerType, layerName⟩ p block field n with
      | some v => .success (.text (v ++ "\n"))
      | none => .refusal 1 "not found"

def listed (names : List String) : String :=
  if names.isEmpty then "-" else ", ".intercalate names

def kindRow (k : LayerKind) : List String :=
  let s := k.spec
  [k.name, listed s.bottom, listed s.top, listed (s.slots.map Slot.name),
    ((s.maxBottom.lookup .run).map fun n => toString n).getD "-"]

def kindRows : List (List String) :=
  ["Type", "Bottom", "Top", "Blocks", "RUN max bottoms"] :: LayerKind.every.map kindRow

def run (files : Files) : Command → Outcome
  | .version => .success (.text (versionText ++ "\n"))
  | .format path out =>
    match File.readDescription (content files path) with
    | .error e => .failed path e
    | .ok n => .emitted n out
  | .train path name native settings out =>
    match runTrain files path name native settings with
    | .error e => .failed path e
    | .ok n => .emitted n out
  | .live path input shape settings out =>
    match runLive files path input shape settings with
    | .error e => .failed path e
    | .ok (n, transform) => (Outcome.emitted n out).withMessages (transformMessages transform)
  | .rebind path binding resize out =>
    match File.readBinding binding (content files binding) with
    | .error e => .uncaught e
    | .ok b =>
      match runRebind files path b resize with
      | .error e => .failed path e
      | .ok (n, resized) => (Outcome.emitted n out).withMessages
        (if resized then ["Resized outputs to " ++ toString b.training.labelCount] else [])
  | .find path layerType field block layerName phase =>
    runFind files path layerType field block layerName phase
  | .kinds => .success (.table kindRows)

end Command

def run (words : List String) (files : Files) : Outcome :=
  match Command.parse? words with
  | none => .wrongUsage
  | some c =>
    if c.inputs.all fun path => (files.lookup path).isSome then c.run files else .wrongUsage

end NetDesc.CommandLine
