import NetDesc.Json.Writer
import NetDesc.Record.Basic
import NetDesc.Tree.Description

/-!
Records as blocks of a tree. A repeated field is a run of children of one name, a record in a field
a block, and a choice a bare word.
-/

namespace NetDesc

open Decimal

def Json.numberText : Json → String
  | .float x => Decimal.format x
  | j => j.display

namespace Value

def toLeaf (name : String) (s : Shape) : Value → Node
  | .plain (.bool b) => .leaf name (Json.bool b).scalarText .bool
  | .plain j =>
    match s with
    | .int _ | .float _ => .leaf name j.numberText .numeric
    | _ => .leaf name j.scalarText .string
  | .choice w => .leaf name w .unknown
  | v => .leaf name v.toJson.scalarText .string

mutual

def toNodes (name : String) (s : Shape) : Value → List Node
  | .list vs => toNodesList name s vs
  | .record c es => [.block name (fieldNodes c.fields es)]
  | v => [v.toLeaf name s]

def toNodesList (name : String) (s : Shape) : List Value → List Node
  | [] => []
  | v :: vs => toNodes name s v ++ toNodesList name s vs

def fieldNodes : List FieldSpec → List (Bool × Value) → List Node
  | f :: fs, (given, v) :: es =>
    (if f.emits given v then toNodes f.name f.shape v else []) ++ fieldNodes fs es
  | _, _ => []

end

end Value

namespace Record

def toNode (r : Record) (name : String) : Node :=
  .block name (Value.fieldNodes r.recordClass.fields r.entries)

def isWritable (r : Record) : Bool :=
  (Json.object r.toJson).isWritable

def encode (r : Record) (name : String) : Result Node :=
  if r.isWritable then .ok (r.toNode name) else .error (.badLiteral .unwritten)

/-- A whole number that is not in plain digits is read as a number first. -/
def intOfText (s : String) : Except FieldFault Int :=
  match readDouble? s with
  | some x => if x.isWhole && !isPlainInt s then .ok x.whole else Check.intText s
  | none => Check.intText s

def valueOfText (s : Shape) (text : String) : Except FieldFault Value :=
  match s with
  | .int b => do return .plain (.int (← b.checkInt (← intOfText text)))
  | s => s.check (.text text)

inductive Child where
  | text (s : String)
  | record (r : Result Record)

def itemsOfTexts (s : Shape) (i : Nat) : List String → Checked (List Value)
  | [] => .ok []
  | t :: ts => addItem i (oneFault (valueOfText s t)) (itemsOfTexts s (i + 1) ts)

def checkTexts (f : FieldSpec) (texts : List String) : List (String × Checked Value) :=
  match f.occurrence, texts with
  | _, [] => []
  | .repeated, ts => [(f.name, (itemsOfTexts f.shape 0 ts).map .list)]
  | _, t :: _ => [(f.name, oneFault (valueOfText f.shape t))]

def takeRecords (f : FieldSpec) (records : List Record) : List (String × Checked Value) :=
  match f.occurrence, records with
  | _, [] => []
  | .repeated, rs => [(f.name, .ok (.list (rs.map value)))]
  | _, r :: _ => [(f.name, .ok r.value)]

def childTexts (name : String) (children : List (String × Child)) : List String :=
  children.filterMap fun (n, c) => match c with
    | .text s => if n = name then some s else none
    | .record _ => none

def childRecords (name : String) (children : List (String × Child)) : Result (List Record) :=
  (children.filterMap fun (n, c) => match c with
    | .record r => if n = name then some r else none
    | .text _ => none).mapM id

/-- A field that occurs once takes the first child of its name, but every block has to decode. -/
def readChildren (children : List (String × Child)) (f : FieldSpec) :
    Result (List (String × Checked Value)) :=
  match f.shape with
  | .record _ => (childRecords f.name children).map (takeRecords f)
  | _ => .ok (checkTexts f (childTexts f.name children))

def ofChildren (c : RecordClass) (place : String) (children : List (String × Child)) :
    Result Record := do
  let read ← c.fields.mapM (readChildren children)
  (assemble c read.flatten).mapError (Failure.ofFaults place)

mutual

def ofNode (c : RecordClass) : Node → Result Record
  | ⟨name, _, _, children⟩ => ofChildren c name (knownChildren c children)

def knownChildren (c : RecordClass) : List Node → List (String × Child)
  | [] => []
  | child :: rest =>
    (match c.field? child.name with
      | some ⟨_, .record inner, _⟩ => [(child.name, .record (ofNode inner child))]
      | some _ =>
        match child.value with
        | some v => [(child.name, .text v)]
        | none => []
      | none => []) ++ knownChildren c rest

end

end Record

end NetDesc
