import NetDesc.Binding
import NetDesc.Json.Reader
import NetDesc.Json.Writer
import NetDesc.Settings
import NetDesc.Text.Line
import NetDesc.Tree.Description
import NetDesc.Yaml.Meaning
import NetDesc.Yaml.Writer

namespace NetDesc.File

open Text

def readText (content : String) : String :=
  String.ofList (unifyLineEnds content.toList)

def readDescription (content : String) : Result Node :=
  parse (readText content)

def baseName (path : String) : List Char :=
  (path.toList.reverse.takeWhile (· != '/')).reverse

def suffix (path : String) : String :=
  let name := (baseName path).reverse
  let ending := name.takeWhile (· != '.')
  if ending.isEmpty || name.length ≤ ending.length + 1 then ""
  else String.ofList ('.' :: ending.reverse)

def holdsYaml (path : String) : Bool :=
  suffix path == ".yaml" || suffix path == ".yml"

def isEmptyValue : Json → Bool
  | .null => true
  | .bool b => !b
  | .int n => n == 0
  | .float x => x.sameNumber .zero
  | .text s => s.isEmpty
  | .brokenText codes => codes.isEmpty
  | .list js => js.isEmpty
  | .object fs => fs.isEmpty
  | .brokenObject _ => false

def mapping (j : Json) : Result Json :=
  match j with
  | .object _ | .brokenObject _ => .ok j
  | _ => .error .notMapping

def readJson (text : String) : Result Json :=
  match Json.read text with
  | .ok j => mapping j
  | .error .malformed => .error .notJson
  | .error (.longInt digits) => .error (.badLiteral (.longInt digits))

def readYaml (text : String) : Result Json :=
  match Yaml.read text with
  | .error (.literal f) => .error (.badLiteral f)
  | .error f => .error (.notYaml f)
  | .ok c =>
    if !c.hasTextKeys then .error .notMapping
    else if isEmptyValue c.value then .ok (.object [])
    else mapping c.value

def readMapping (path content : String) : Result Json :=
  let text := readText content
  if holdsYaml path then readYaml text else readJson text

def readSettings (path content : String) : Result Settings := do
  let j ← readMapping path content
  (Settings.ofJson j).mapError fun _ => .invalidFile "settings" path

def readBinding (path content : String) : Result Binding := do
  let j ← readMapping path content
  (Binding.ofJson j).mapError fun _ => .invalidFile "dataset binding" path

def settingsContent (path : String) (s : Settings) : Result String :=
  if Decimal.isTooLong s.dataBatchSize || Decimal.isTooLong s.accuracyTopK then
    .error (.badLiteral .unwritten)
  else if holdsYaml path then .ok (Yaml.render s.toJson)
  else .ok (Json.object s.toJson).renderLines

end NetDesc.File
