import NetDesc.Decimal.Numeral
import NetDesc.Json.Basic
import NetDesc.Text.Base64
import NetDesc.Text.Case
import NetDesc.Yaml.Kind

namespace NetDesc.Yaml.Scalar

open Decimal Text

abbrev Read := Except LiteralFault

def after? (start : String) (cs : List Nat) : Option (List Nat) :=
  if (codes start).isPrefixOf cs then some (cs.drop start.length) else none

def sign (cs : List Nat) : Bool × List Nat :=
  match after? "-" cs with
  | some rest => (true, rest)
  | none => (false, (after? "+" cs).getD cs)

def withoutJoins (cs : List Nat) : List Nat :=
  cs.filter (· != '_'.toNat)

def splitColons (cs : List Nat) : List (List Nat) :=
  match cs with
  | [] => [[]]
  | c :: rest =>
    match splitColons rest with
    | [] => [[c]]
    | p :: ps => if c = ':'.toNat then [] :: p :: ps else (c :: p) :: ps

def hasColon (cs : List Nat) : Bool :=
  cs.contains ':'.toNat

def sexagesimal (parts : List Int) : Int :=
  parts.foldl (fun n p => n * 60 + p) 0

def inBase (base : Nat) (cs : List Nat) : Read Int :=
  match (ofCodes? cs).bind (readInBase? base) with
  | some n => .ok n
  | none => .error (.notWhole base cs)

def digitCount (cs : List Nat) : Nat :=
  let cs := (cs.takeWhile isCharCode).map Char.ofNat
  (takeDigits (takeSign (cs.dropWhile isSpace)).2).1.length

def inTens (cs : List Nat) : Read Int :=
  if digitLimit < digitCount cs then .error (.longInt (digitCount cs)) else inBase 10 cs

def unsignedWhole (cs : List Nat) : Read Int :=
  if cs.isEmpty then .error .noSign
  else if cs = codes "0" then .ok 0
  else if let some ds := after? "0b" cs then inBase 2 ds
  else if let some ds := after? "0x" cs then inBase 16 ds
  else if (after? "0" cs).isSome then inBase 8 cs
  else if hasColon cs then ((splitColons cs).mapM inTens).map sexagesimal
  else inTens cs

def whole (cs : List Nat) : Read Int :=
  let (negative, body) := sign (withoutJoins cs)
  (unsignedWhole body).map fun n => if negative then -n else n

def readPart (cs : List Nat) : Read Double :=
  match (ofCodes? cs).bind readDouble? with
  | some x => .ok x
  | none => .error (.notNumber cs)

/-- The parts, last one first, each with sixty times the weight of the one before; every product and
every sum is rounded, and so is a weight, which may be too large for that. -/
def sumParts (sum : Double) (weight : Nat) : List Double → Read Double
  | [] => .ok sum
  | x :: xs =>
    match Double.ofInt? weight with
    | some w => sumParts (sum.add (x.mul w)) (weight * 60) xs
    | none => .error .tooLarge

def unsignedDecimal (cs : List Nat) : Read Double :=
  if cs = codes ".inf" then .ok (.infinity false)
  else if hasColon cs then do
    let parts ← (splitColons cs).mapM readPart
    sumParts .zero 1 parts.reverse
  else readPart cs

def decimal (cs : List Nat) : Read Double :=
  let cs := lowerCodes (withoutJoins cs)
  let (negative, body) := sign cs
  if cs.isEmpty then .error .noSign
  else if body = codes ".nan" then .ok (.nan false)
  else (unsignedDecimal body).map fun x => if negative then -x else x

def truth (cs : List Nat) : Read Bool :=
  match (ofCodes? cs).map lower with
  | some word =>
    if Kind.trueWords.contains word then .ok true
    else if Kind.falseWords.contains word then .ok false
    else .error .notBoolean
  | none => .error .notBoolean

def untaken : Json :=
  .list [.null]

def date (cs : List Nat) : Read Json :=
  match (ofCodes? cs).bind fun s => Date.parse? (Kind.dropLineEnd s.toList) with
  | none => .error .notDate
  | some d =>
    match d.fault? with
    | some f => .error f
    | none => .ok untaken

def binary? (cs : List Nat) : Option Json :=
  ((ofCodes? cs).bind Base64.decode?).map fun bs => (bs.toText?).elim untaken .text

def read? (k : Kind) (cs : List Nat) : Option (Read Json) :=
  match k with
  | .null => some (.ok .null)
  | .bool => some ((truth cs).map .bool)
  | .int => some ((whole cs).map .int)
  | .float => some ((decimal cs).map .float)
  | .date => some (date cs)
  | .text => some (.ok (.ofCodes cs))
  | .binary => (binary? cs).map .ok
  | _ => none

end NetDesc.Yaml.Scalar
