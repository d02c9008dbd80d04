import NetDesc.Record.Check

namespace NetDesc

structure Source where
  name : String := ""
  imageHeight : Nat := 0
  imageWidth : Nat := 0
  labelCount : Nat := 0
deriving DecidableEq, Repr, Inhabited

structure Binding where
  name : String := ""
  training : Source := {}
  testing : Source := {}
  target : Option Binding := none
deriving Repr, Inhabited

namespace Source

def ofFields (fields : List (String × Json)) : Checked Source :=
  ((((Checked.pure Source.mk).with
    (.field fields "name" "" Check.text)).with
    (.field fields "image_height" 0 Check.natural)).with
    (.field fields "image_width" 0 Check.natural)).with
    (.field fields "label_count" 0 Check.natural)

def ofJson : Json → Checked Source
  | .object fields => ofFields fields
  | .brokenObject fields => ofFields (Json.wholeFields fields)
  | _ => .error [⟨[], .notARecord "Source"⟩]

def toJson (s : Source) : Json :=
  .object [("name", .text s.name), ("image_height", .int s.imageHeight),
    ("image_width", .int s.imageWidth), ("label_count", .int s.labelCount)]

end Source

namespace Binding

def inField {α : Type} (name : String) (r : Checked α) : Checked α :=
  r.mapError fun fs => fs.map (.inside (.field name))

def sourceField (fields : List (String × Json)) (name : String) : Checked Source :=
  match fields.lookup name with
  | some j => inField name (Source.ofJson j)
  | none => .ok {}

def isNull : Json → Bool
  | .null => true
  | _ => false

def ofFields (fields : List (String × Json)) (target : Checked (Option Binding)) :
    Checked Binding :=
  ((((Checked.pure Binding.mk).with
    (.field fields "name" "" Check.text)).with
    (sourceField fields "training")).with
    (sourceField fields "testing")).with
    (inField "target" target)

mutual

def ofJson : Json → Checked Binding
  | .object fields => ofFields fields (targetOf fields)
  | .brokenObject fields => ofFields (Json.wholeFields fields) (targetOfCodes fields)
  | _ => .error [⟨[], .notARecord "Binding"⟩]

def targetOf : List (String × Json) → Checked (Option Binding)
  | [] => .ok none
  | (k, j) :: rest =>
    if k = "target" then
      if isNull j then .ok none else (ofJson j).map some
    else targetOf rest

def targetOfCodes : List (List Nat × Json) → Checked (Option Binding)
  | [] => .ok none
  | (k, j) :: rest =>
    if k = Text.codes "target" then
      if isNull j then .ok none else (ofJson j).map some
    else targetOfCodes rest

end

def sourceFor (b : Binding) (p : Phase) : Source :=
  if p = .test then b.testing else b.training

def renameSource (b : Binding) (p : Phase) (name : String) : Binding :=
  if p = .test then { b with testing := { b.testing with name } }
  else { b with training := { b.training with name } }

def toJson : Binding → List (String × Json)
  | ⟨name, training, testing, target⟩ =>
    [("name", .text name), ("training", training.toJson), ("testing", testing.toJson),
      ("target", match target with
        | some t => .object (toJson t)
        | none => .null)]

end Binding

end NetDesc
