import NetDesc.Yaml.Entry
import NetDesc.Yaml.Node
import NetDesc.Yaml.Scalar

/-!
The plain data that a node stands for. What a node means depends on where it stands: as a value, as
a key, as what an object merges, or as a scalar of another kind.
-/

namespace NetDesc.Yaml

structure Meaning where
  kind : Kind
  scalar : Kind → Valued Json
  value : Valued Json
  fields : Option (Scanned (List Entry))
  merged : Scanned (List Entry)
  pair : Valued Json

namespace Meaning

def unfit : Nat × Fault :=
  (0, .value)

/-- Collections are no keys; a default key is a text where the object is read as one. -/
def key (m : Meaning) : Valued Key :=
  let k := if m.kind = .default then .text else m.kind
  if k.isCollection then .error unfit
  else
    (m.scalar k).map fun j => if k = .binary then .other else .ofJson j

def unknown : Meaning :=
  ⟨.unknown, fun _ => .error unfit, .ok Scalar.untaken, some (.ok []), .ok [], .ok Scalar.untaken⟩

def keysOnly (m : Meaning) : Meaning :=
  let untakenValues (es : Scanned (List Entry)) : Scanned (List Entry) :=
    es.map fun es => es.map fun e => ⟨e.key, .ok Scalar.untaken⟩
  { unknown with fields := m.fields.map untakenValues, merged := untakenValues m.merged }

def scalarValue (k : Kind) (codes : List Nat) : Valued Json :=
  match Scalar.read? k codes with
  | some r => r.mapError fun f => (0, .literal f)
  | none => .error (if k.isCollection then (1, .value) else unfit)

def ofScalar (k : Kind) (codes : List Nat) : Meaning :=
  ⟨k, fun k => scalarValue k codes, scalarValue k codes, none, .error .value, .error unfit⟩

/-- Of several objects that are merged the first one counts, so that its fields come last. -/
def mergedItems : List Meaning → Scanned (List Entry)
  | [] => .ok []
  | m :: ms => do
    let es ← m.fields.getD (.error .value)
    return (← mergedItems ms) ++ es

def ofList (k : Kind) (items : List Meaning) : Meaning where
  kind := k
  scalar _ := .error unfit
  value :=
    match k with
    | .list => (Valued.all (items.map value)).inside.map .list
    | .pairs => (Valued.all (items.map pair)).inside.map .list
    | .object | .set => .error (1, .value)
    | _ => .error unfit
  fields := none
  merged := mergedItems items
  pair := .error unfit

def entries : List (Meaning × Meaning) → Scanned (List Entry × List Entry)
  | [] => .ok ([], [])
  | (key, m) :: fs =>
    if key.kind = .merge then do
      let es ← m.merged
      let (front, back) ← entries fs
      return (es ++ front, back)
    else do
      let (front, back) ← entries fs
      return (front, ⟨key.key, m.value⟩ :: back)

def collected (f : List Entry → Valued Json) (es : Scanned (List Entry)) : Valued Json :=
  match es with
  | .ok es => (f es).inside
  | .error e => .error (1, e)

def defaultScalar (fs : List (Meaning × Meaning)) (k : Kind) : Valued Json :=
  match fs.find? fun f => f.1.kind = .default with
  | some f => f.2.scalar k
  | none => .error unfit

def ofObject (k : Kind) (fs : List (Meaning × Meaning)) : Meaning :=
  let es := (entries fs).map fun es => es.1 ++ es.2
  { kind := k
    scalar := defaultScalar fs
    value :=
      match k with
      | .object => collected Entry.object es
      | .set => collected Entry.set es
      | .list | .pairs => .error (1, .value)
      | k => defaultScalar fs k
    fields := some es
    merged := es
    pair :=
      match fs with
      | [(key, m)] => key.value.both (fun j j' => .list [j, j']) m.value
      | _ => .error unfit }

abbrev Anchors := List (String × Meaning)

mutual

def ofNode (anchors : Anchors) : Yaml → Meaning
  | .scalar k codes => ofScalar k codes
  | .list k ys => ofList k (ofItems anchors ys)
  | .object k fs => ofObject k (ofFields anchors fs)
  | .alias name => (anchors.lookup name).getD unknown

def ofItems (anchors : Anchors) : List Yaml → List Meaning
  | [] => []
  | y :: ys => ofNode anchors y :: ofItems anchors ys

def ofFields (anchors : Anchors) : List (Yaml × Yaml) → List (Meaning × Meaning)
  | [] => []
  | (key, y) :: fs => (ofNode anchors key, ofNode anchors y) :: ofFields anchors fs

end

def anchored (known : Anchors) (nodes : List (String × Yaml)) : Anchors :=
  nodes.foldl (fun anchors n => (n.1, ofNode anchors n.2) :: anchors) known

/-- An alias inside the collection that it names means what the collection means; in there, such an
alias gives the keys alone. -/
def ofDocument (d : Document) : Meaning :=
  let keys := (anchored [] d.anchored).map fun a => (a.1, a.2.keysOnly)
  ofNode (anchored (anchored keys d.anchored) d.anchored) d.root

def hasTextKeys (m : Meaning) : Bool :=
  match m.kind, m.fields with
  | .object, some (.ok es) => es.all fun e => match e.key with
    | .ok .other => false
    | _ => true
  | _, _ => true

end Meaning

structure Content where
  value : Json
  hasTextKeys : Bool

def read (text : String) : Scanned Content := do
  match ← parse text with
  | none => return ⟨.null, true⟩
  | some d =>
    let m := Meaning.ofDocument d
    match m.value with
    | .ok j => return ⟨j, m.hasTextKeys⟩
    | .error f => .error f.2

end NetDesc.Yaml
