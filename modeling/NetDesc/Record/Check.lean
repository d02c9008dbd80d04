import NetDesc.Decimal.FieldNumber
import NetDesc.Failure
import NetDesc.Record.Schema

namespace NetDesc

open Decimal

namespace Bound

def checkInt (b : Bound) (n : Int) : Except FieldFault Int :=
  match b with
  | .positive => if 0 < n then .ok n else .error .notAbove
  | .nonNegative => if 0 ≤ n then .ok n else .error .notAtLeast
  | _ => .ok n

/-- A NaN is not at most one. -/
def checkFloat (b : Bound) (x : Double) : Except FieldFault Double :=
  match b with
  | .ratio =>
    if !x.le 1.0 then .error .notAtMost
    else if !Double.zero.le x then .error .notAtLeast
    else .ok x
  | _ => .ok x

end Bound

namespace Check

def leastWord : Int := -0x8000000000000000

def isWord (n : Int) : Bool :=
  leastWord ≤ n && n < 0x8000000000000000

def intText (s : String) : Except FieldFault Int :=
  match readFieldInt s with
  | .value n => .ok n
  | .tooLong => .error .integerSize
  | .malformed => .error .integerText

/-- The whole numbers of 64 bits that a double counts for; the least word is not one of them. -/
def isDoubleWord (n : Int) : Bool :=
  isWord n && n != leastWord

def intDouble (x : Double) : Except FieldFault Int :=
  if !x.isFinite then .error .notFinite
  else if !x.isWhole then .error .integerFraction
  else if isDoubleWord x.whole then .ok x.whole
  else .error .integerSize

def int (b : Bound) (j : Json) : Except FieldFault Int := do
  let n ← match j with
    | .int n => .ok n
    | .bool b => .ok (if b then 1 else 0)
    | .float x => intDouble x
    | .text s => intText s
    | .brokenText _ => .error .notUnicode
    | _ => .error .notAnInteger
  b.checkInt n

def floatText (s : String) : Except FieldFault Double :=
  match readFieldDouble? s with
  | some x => .ok x
  | none => .error .numberText

def floatInt (n : Int) : Except FieldFault Double :=
  match Double.ofInt? n with
  | some x => .ok x
  | none => .error .notANumber

def float (b : Bound) (j : Json) : Except FieldFault Double := do
  let x ← match j with
    | .float x => .ok x
    | .int n => floatInt n
    | .bool b => floatInt (if b then 1 else 0)
    | .text s => floatText s
    | .brokenText _ => .error .notUnicode
    | _ => .error .notANumber
  b.checkFloat x

def boolText (s : String) : Except FieldFault Bool :=
  let w := String.ofList (s.toList.map Char.toLower)
  if ["0", "off", "f", "false", "n", "no"].contains w then .ok false
  else if ["1", "on", "t", "true", "y", "yes"].contains w then .ok true
  else .error .booleanText

def boolInt (n : Int) : Except FieldFault Bool :=
  if n = 0 then .ok false
  else if n = 1 then .ok true
  else if isWord n then .error .booleanText
  else .error .notABoolean

def bool (j : Json) : Except FieldFault Bool :=
  match j with
  | .bool b => .ok b
  | .int n => boolInt n
  | .float x =>
    if x.isWhole && isDoubleWord x.whole then boolInt x.whole else .error .notABoolean
  | .text s => boolText s
  | .brokenText _ => .error .notUnicode
  | _ => .error .notABoolean

def text (j : Json) : Except FieldFault String :=
  match j with
  | .text s => .ok s
  | .brokenText _ => .error .notUnicode
  | _ => .error .notAString

def positive (j : Json) : Except FieldFault { n : Nat // 0 < n } := do
  let n ← int .any j
  if h : 0 < n then return ⟨n.toNat, by omega⟩ else .error .notAbove

def natural (j : Json) : Except FieldFault Nat :=
  (int .nonNegative j).map Int.toNat

def member (c : Choice) (j : Json) : Except FieldFault String :=
  match j with
  | .text s => if c.members.contains s then .ok s else .error (.notAMember s)
  | .brokenText _ => .error .notUnicode
  | j => .error (.notAMember j.display)

def recordFault (className : String) (j : Json) : FieldFault :=
  match j with
  | .brokenObject _ => .notUnicode
  | _ => .notARecord className

end Check

def Shape.check (s : Shape) (j : Json) : Except FieldFault Value :=
  match s with
  | .int b => (Check.int b j).map fun n => .plain (.int n)
  | .float b => (Check.float b j).map fun x => .plain (.float x)
  | .bool => (Check.bool j).map fun b => .plain (.bool b)
  | .text => (Check.text j).map fun t => .plain (.text t)
  | .choice c => (Check.member c j).map .choice
  | .record c => .error (Check.recordFault c.name j)

abbrev Checked := Except (List Fault)

def addItem {α : Type} (i : Nat) (item : Checked α) (rest : Checked (List α)) : Checked (List α) :=
  match item, rest with
  | .ok x, .ok xs => .ok (x :: xs)
  | .ok _, .error fs => .error fs
  | .error fs, .ok _ => .error (fs.map (.inside (.index i)))
  | .error fs, .error gs => .error (fs.map (.inside (.index i)) ++ gs)

def oneFault {α : Type} (r : Except FieldFault α) : Checked α :=
  r.mapError fun f => [⟨[], f⟩]

def Checked.pure {α : Type} (x : α) : Checked α :=
  .ok x

def Checked.with {α β : Type} (f : Checked (α → β)) (x : Checked α) : Checked β :=
  match f, x with
  | .ok f, .ok x => .ok (f x)
  | .ok _, .error gs => .error gs
  | .error fs, .ok _ => .error fs
  | .error fs, .error gs => .error (fs ++ gs)

def Checked.field {α : Type} (fields : List (String × Json)) (name : String) (standard : α)
    (check : Json → Except FieldFault α) : Checked α :=
  match fields.lookup name with
  | some j => (check j).mapError fun f => [⟨[.field name], f⟩]
  | none => .ok standard

end NetDesc
