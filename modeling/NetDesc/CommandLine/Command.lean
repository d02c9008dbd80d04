import NetDesc.CommandLine.Arguments
import NetDesc.Decimal.Numeral
import NetDesc.Network.Running

namespace NetDesc.CommandLine

open Network Decimal

inductive Command where
  | version
  | format (path : String) (out : Option String)
  | train (path name : String) (native : Bool) (settings out : Option String)
  | live (path input : String) (shape : InputShape) (settings out : Option String)
  | rebind (path binding : String) (resize : Bool) (out : Option String)
  | find (path layerType field : String) (block layerName : Option String) (phase : String)
  | kinds
deriving Repr

namespace Command

def inputs : Command → List String
  | .version | .kinds => []
  | .format path _ | .find path _ _ _ _ _ => [path]
  | .train path _ _ settings _ | .live path _ _ settings _ => path :: settings.toList
  | .rebind path binding _ _ => [path, binding]

def valued (names : List String) : OptionSpec := ⟨names, true⟩

def flag (names : List String) : OptionSpec := ⟨names, false⟩

def outOption : OptionSpec := valued ["--out", "-o"]

def settingsOption : OptionSpec := valued ["--settings"]

def side? (a : Arguments) (name : String) (standard : Int) : Option Int :=
  match a.value? name with
  | none => some standard
  | some text => (readInt? text).filter (0 < ·)

def shape? (a : Arguments) : Option InputShape := do
  return ⟨← side? a "--batch" 1, ← side? a "--channels" 3, ← side? a "--height" 224,
    ← side? a "--width" 224⟩

def version? (args : List String) : Option Command := do
  let a ← arguments? [] true args
  match a.operands with
  | [] => return .version
  | _ => none

def format? (args : List String) : Option Command := do
  let a ← arguments? [outOption] true args
  match a.operands with
  | [path] => return .format path (a.value? "--out")
  | _ => none

def train? (args : List String) : Option Command := do
  let a ← arguments? [valued ["--name"], flag ["--native-format"], flag ["--no-native-format"],
    settingsOption, outOption] true args
  match a.operands with
  | [path] =>
    return .train path ((a.value? "--name").getD "data")
      (a.isOn "--native-format" "--no-native-format") (a.value? "--settings") (a.value? "--out")
  | _ => none

def live? (args : List String) : Option Command := do
  let a ← arguments? [valued ["--batch"], valued ["--channels"], valued ["--height"],
    valued ["--width"], valued ["--input-name"], settingsOption, outOption] true args
  match a.operands with
  | [path] =>
    return .live path ((a.value? "--input-name").getD "data") (← shape? a) (a.value? "--settings")
      (a.value? "--out")
  | _ => none

def rebind? (args : List String) : Option Command := do
  let a ← arguments? [flag ["--resize"], flag ["--no-resize"], outOption] true args
  match a.operands with
  | [path, binding] =>
    return .rebind path binding (a.isOn "--resize" "--no-resize") (a.value? "--out")
  | _ => none

def find? (args : List String) : Option Command := do
  let a ← arguments? [valued ["--param"], valued ["--name"], valued ["--phase"]] true args
  match a.operands with
  | [path, layerType, field] =>
    return .find path layerType field (a.value? "--param") (a.value? "--name")
      ((a.value? "--phase").getD "NONE")
  | _ => none

def kinds? (args : List String) : Option Command := do
  let a ← arguments? [] true args
  match a.operands with
  | [] => return .kinds
  | _ => none

def parse? (words : List String) : Option Command := do
  let a ← arguments? [flag ["--verbose", "-v"]] false words
  match a.operands with
  | "version" :: args => version? args
  | "fmt" :: args => format? args
  | "train" :: args => train? args
  | "live" :: args => live? args
  | "rebind" :: args => rebind? args
  | "find" :: args => find? args
  | "kinds" :: args => kinds? args
  | _ => none

end Command

end NetDesc.CommandLine
