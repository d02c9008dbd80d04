import NetDesc.Decimal.Layout
import NetDesc.Text.Shown

/-!
Plain data, as it stands in payloads and in settings files. Objects keep the order of their keys.
Escapes may put halves of code pairs into a text; such a text is kept as its codes.
-/

namespace NetDesc

open Decimal

/-- A broken text has codes that stand for no character; the keys of a broken object are kept as
codes, because one of them is a broken text. -/
inductive Json where
  | null
  | bool (b : Bool)
  | int (n : Int)
  | float (x : Double)
  | text (s : String)
  | brokenText (codes : List Nat)
  | list (items : List Json)
  | object (fields : List (String × Json))
  | brokenObject (fields : List (List Nat × Json))
deriving Repr, Inhabited

namespace Json

def ofCodes (codes : List Nat) : Json :=
  (Text.ofCodes? codes).elim (.brokenText codes) .text

/-- A repeated key takes the later value at its first place. -/
def putField (fields : List (List Nat × Json)) (key : List Nat) (j : Json) :
    List (List Nat × Json) :=
  if fields.any fun f => f.1 == key then
    fields.map fun f => if f.1 = key then (key, j) else f
  else fields ++ [(key, j)]

def ofFields (fields : List (List Nat × Json)) : Json :=
  let fields := fields.foldl (fun fs f => putField fs f.1 f.2) []
  match fields.mapM fun f => (Text.ofCodes? f.1).map fun key => (key, f.2) with
  | some fields => .object fields
  | none => .brokenObject fields

def wholeFields (fields : List (List Nat × Json)) : List (String × Json) :=
  fields.filterMap fun f => (Text.ofCodes? f.1).map fun key => (key, f.2)

def sameAsInt (n : Int) (x : Double) : Bool :=
  x.isWhole && x.whole == n

mutual

def same : Json → Json → Bool
  | .null, .null => true
  | .text s, .text t => s == t
  | .float x, .float y => x.sameNumber y
  | .float x, .int n => sameAsInt n x
  | .float x, .bool b => sameAsInt (if b then 1 else 0) x
  | .int n, .float x => sameAsInt n x
  | .bool b, .float x => sameAsInt (if b then 1 else 0) x
  | .int n, .int m => n == m
  | .int n, .bool b => n == if b then 1 else 0
  | .bool b, .int n => n == if b then 1 else 0
  | .bool b, .bool c => b == c
  | .list xs, .list ys => sameList xs ys
  | .object fs, .object gs => fs.length == gs.length && sameFields fs gs
  | _, _ => false

def sameList : List Json → List Json → Bool
  | [], [] => true
  | x :: xs, y :: ys => same x y && sameList xs ys
  | _, _ => false

def sameFields : List (String × Json) → List (String × Json) → Bool
  | [], _ => true
  | (k, x) :: fs, gs =>
    (match gs.lookup k with
      | some y => same x y
      | none => false) && sameFields fs gs

end

mutual

def shown : Json → String
  | .null => "None"
  | .bool b => if b then "True" else "False"
  | .int n => toString n
  | .float x => Layout.plain.render x
  | .text s => Text.shown s
  | .brokenText codes => Text.shownCodes codes
  | .list xs => "[" ++ shownList xs ++ "]"
  | .object fs => "\x7b" ++ shownFields fs ++ "\x7d"
  | .brokenObject fs => "\x7b" ++ shownCodeFields fs ++ "\x7d"

def shownList : List Json → String
  | [] => ""
  | [x] => shown x
  | x :: xs => shown x ++ ", " ++ shownList xs

def shownFields : List (String × Json) → String
  | [] => ""
  | [(k, x)] => Text.shown k ++ ": " ++ shown x
  | (k, x) :: fs => Text.shown k ++ ": " ++ shown x ++ ", " ++ shownFields fs

def shownCodeFields : List (List Nat × Json) → String
  | [] => ""
  | [(k, x)] => Text.shownCodes k ++ ": " ++ shown x
  | (k, x) :: fs => Text.shownCodes k ++ ": " ++ shown x ++ ", " ++ shownCodeFields fs

end

def display : Json → String
  | .text s => s
  | j => j.shown

def scalarText : Json → String
  | .bool b => if b then "true" else "false"
  | j => j.display

def field (j : Json) (key : String) : Json :=
  match j with
  | .object fs => (fs.lookup key).getD .null
  | _ => .null

end Json

end NetDesc
