import NetDesc.Tree.Printer
import NetDesc.Tree.Reader
import NetDesc.Yaml.Fault

namespace NetDesc

open Text

inductive FieldFault where
  | notAnInteger
  | integerText
  | integerSize
  | integerFraction
  | notFinite
  | notANumber
  | numberText
  | notABoolean
  | booleanText
  | notAString
  | notUnicode
  | notAList
  | notARecord (className : String)
  | notAMember (shown : String)
  | notAbove
  | notAtLeast
  | notAtMost
  | unknownField
  | unknownAttribute
deriving DecidableEq, Repr

namespace FieldFault

def message : FieldFault → String
  | .notAnInteger => "Input should be a valid integer"
  | .integerText => "Input should be a valid integer, unable to parse string as an integer"
  | .integerSize => "Unable to parse input string as an integer, exceeded maximum size"
  | .integerFraction => "Input should be a valid integer, got a number with a fractional part"
  | .notFinite => "Input should be a finite number"
  | .notANumber => "Input should be a valid number"
  | .numberText => "Input should be a valid number, unable to parse string as a number"
  | .notABoolean => "Input should be a valid boolean"
  | .booleanText => "Input should be a valid boolean, unable to interpret input"
  | .notAString => "Input should be a valid string"
  | .notUnicode =>
    "Input should be a valid string, unable to parse raw data as a unicode string"
  | .notAList => "Input should be a valid list"
  | .notARecord c => "Input should be a valid dictionary or instance of " ++ c
  | .notAMember _ => "Input should be a member"
  | .notAbove => "Input should be greater than 0"
  | .notAtLeast => "Input should be greater than or equal to 0"
  | .notAtMost => "Input should be less than or equal to 1"
  | .unknownField => "Extra inputs are not permitted"
  | .unknownAttribute => "Object has no such attribute"

def isNotAMember : FieldFault → Bool
  | .notAMember _ => true
  | _ => false

end FieldFault

inductive Step where
  | field (name : String)
  | index (i : Nat)
deriving DecidableEq, Repr

namespace Step

def text : Step → String
  | .field name => name
  | .index i => toString i

def fieldName? : Step → Option String
  | .field name => some name
  | .index _ => none

end Step

structure Fault where
  path : List Step
  fault : FieldFault
deriving DecidableEq, Repr

namespace Fault

def location (f : Fault) : String :=
  ".".intercalate (f.path.map Step.text)

def inside (s : Step) (f : Fault) : Fault :=
  ⟨s :: f.path, f.fault⟩

end Fault

inductive DecodeError where
  | noType (layerName : String)
  | badScalar (field kind found : String)
  | illegalSlot (slot kind : String)
  | wrongRecord (slot expected got : String)
  | truncated (wanted got : Nat)
  | negativeCount (count : Int)
  | corrupt (className : String)
  | invalidField (place location : String) (fault : FieldFault)
deriving DecidableEq, Repr

def DecodeError.message : DecodeError → String
  | .noType layerName => "Layer '" ++ layerName ++ "' has no type"
  | .badScalar field kind found =>
    "Field '" ++ field ++ "' expects " ++ kind ++ ", found " ++ shown found
  | .illegalSlot slot kind => "'" ++ slot ++ "' is not legal for a " ++ kind ++ " layer"
  | .wrongRecord slot expected got => "'" ++ slot ++ "' expects " ++ expected ++ ", got " ++ got
  | .truncated wanted got =>
    "Truncated layer record: wanted " ++ toString wanted ++ " bytes, got " ++ toString got
  | .negativeCount count => "Negative element count " ++ toString count ++ " in layer record"
  | .corrupt className => "Corrupt " ++ className ++ " payload"
  | .invalidField place location fault =>
    "Invalid '" ++ place ++ "' field '" ++ location ++ "': " ++ fault.message

inductive Failure where
  | malformed (e : SyntaxError)
  | unknown (what value : String)
  | undecodable (e : DecodeError)
  | mixed (e : MixedNode)
  | otherKind (source target : String)
  | invalidFile (what file : String)
  | invalid (faults : List Fault)
  | wordRange
  | notUtf8
  | notJson
  | badLiteral (f : LiteralFault)
  | notYaml (f : Yaml.Fault)
  | notMapping
deriving DecidableEq, Repr

namespace Failure

def message : Failure → String
  | .malformed e => e.message
  | .unknown what value => "Unknown '" ++ what ++ "' value: " ++ value
  | .undecodable e => e.message
  | .mixed e => e.message
  | .otherKind source target => "Cannot copy defaults from " ++ source ++ " into " ++ target
  | .invalidFile what file => "Invalid " ++ what ++ " " ++ file
  | .invalid _ => "Invalid values"
  | .wordRange => "Number outside the range of 32 bits"
  | .notUtf8 => "Text is not valid UTF-8"
  | .notJson => "Malformed JSON"
  | .badLiteral f => f.message
  | .notYaml _ => "Malformed YAML"
  | .notMapping => "The top level is not a mapping"

def isConfiguration : Failure → Bool
  | .malformed _ | .unknown _ _ | .undecodable _ => true
  | _ => false

end Failure

/-- A member fault anywhere is reported before all others; otherwise the first fault is. -/
def Failure.ofFaults (place : String) (faults : List Fault) : Failure :=
  match faults.find? fun f => f.fault.isNotAMember with
  | some ⟨path, .notAMember value⟩ =>
    let field := ".".intercalate (path.filterMap Step.fieldName?)
    .unknown (if field.isEmpty then place else place ++ "." ++ field) value
  | _ =>
    match faults with
    | f :: _ => .undecodable (.invalidField place f.location f.fault)
    | [] => .invalid []

abbrev Result := Except Failure

end NetDesc
