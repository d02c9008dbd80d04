import NetDesc.Record.Check

namespace NetDesc

open Decimal

structure Record where
  recordClass : RecordClass
  entries : List (Bool × Value)
deriving Repr, Inhabited

namespace Value

mutual

def same : Value → Value → Bool
  | .plain a, .plain b => a.same b
  | .choice s, .choice t => s == t
  | .choice s, .plain (.text t) => s == t
  | .plain (.text s), .choice t => s == t
  | .list xs, .list ys => sameList xs ys
  | .record c es, .record c' es' => c == c' && sameEntries es es'
  | _, _ => false

def sameList : List Value → List Value → Bool
  | [], [] => true
  | x :: xs, y :: ys => same x y && sameList xs ys
  | _, _ => false

def sameEntries : List (Bool × Value) → List (Bool × Value) → Bool
  | [], [] => true
  | (_, x) :: xs, (_, y) :: ys => same x y && sameEntries xs ys
  | _, _ => false

end

def isNull : Value → Bool
  | .plain .null => true
  | _ => false

end Value

def FieldSpec.emits (f : FieldSpec) (given : Bool) (v : Value) : Bool :=
  !v.isNull && (given || !v.same f.standard)

namespace Value

mutual

def toJson : Value → Json
  | .plain j => j
  | .choice s => .text s
  | .list vs => .list (toJsonList vs)
  | .record c es => .object (toJsonFields c.fields es)

def toJsonList : List Value → List Json
  | [] => []
  | v :: vs => toJson v :: toJsonList vs

def toJsonFields : List FieldSpec → List (Bool × Value) → List (String × Json)
  | f :: fs, (given, v) :: es =>
    if f.emits given v then (f.name, toJson v) :: toJsonFields fs es else toJsonFields fs es
  | _, _ => []

end

mutual

def allJson : Value → Json
  | .plain j => j
  | .choice s => .text s
  | .list vs => .list (allJsonList vs)
  | .record c es => .object (allJsonFields c.fields es)

def allJsonList : List Value → List Json
  | [] => []
  | v :: vs => allJson v :: allJsonList vs

def allJsonFields : List FieldSpec → List (Bool × Value) → List (String × Json)
  | f :: fs, (_, v) :: es => (f.name, allJson v) :: allJsonFields fs es
  | _, _ => []

end

end Value

namespace Record

def value (r : Record) : Value :=
  .record r.recordClass r.entries

def standard (c : RecordClass) : Record :=
  ⟨c, c.fields.map fun f => (false, f.standard)⟩

def same (r s : Record) : Bool :=
  r.value.same s.value

def toJson (r : Record) : List (String × Json) :=
  Value.toJsonFields r.recordClass.fields r.entries

def allJson (r : Record) : List (String × Json) :=
  Value.allJsonFields r.recordClass.fields r.entries

def emitted (r : Record) : List String :=
  r.toJson.map Prod.fst

def get? (r : Record) (name : String) : Option Value :=
  (r.recordClass.fields.zip r.entries).findSome? fun (f, e) =>
    if f.name = name then some e.2 else none

def put (r : Record) (name : String) (v : Value) : Record :=
  { r with entries := (r.recordClass.fields.zip r.entries).map fun (f, e) =>
      if f.name = name then (true, v) else e }

def modify (r : Record) (name : String) (g : Value → Value) : Record :=
  { r with entries := (r.recordClass.fields.zip r.entries).map fun (f, e) =>
      if f.name = name then (e.1, g e.2) else e }

/-- The entries for the fields that were read, in the order of the class; the others stand at their
defaults. Faults come in that order too. -/
def collect (read : List (String × Checked Value)) : List FieldSpec → Checked (List (Bool × Value))
  | [] => .ok []
  | f :: fs =>
    let entry : Checked (Bool × Value) := match read.lookup f.name with
      | some (.ok v) => .ok (true, v)
      | some (.error es) => .error (es.map (.inside (.field f.name)))
      | none => .ok (false, f.standard)
    match entry, collect read fs with
    | .ok e, .ok es => .ok (e :: es)
    | .ok _, .error gs => .error gs
    | .error gs, .ok _ => .error gs
    | .error gs, .error hs => .error (gs ++ hs)

def unknownFields (c : RecordClass) (names : List String) : List Fault :=
  (names.filter fun n => (c.field? n).isNone).map fun n => ⟨[.field n], .unknownField⟩

def assemble (c : RecordClass) (read : List (String × Checked Value)) : Checked Record :=
  let unknown := unknownFields c (read.map Prod.fst)
  match collect read c.fields with
  | .ok es => if unknown.isEmpty then .ok ⟨c, es⟩ else .error unknown
  | .error fs => .error (fs ++ unknown)

def checkObject (s : Shape) (fields : List (String × Json))
    (read : RecordClass → List (String × Checked Value)) : Checked Value :=
  match s with
  | .record c => (assemble c (read c)).map value
  | s => oneFault (s.check (.object fields))

mutual

def checkField (f : FieldSpec) : Json → Checked Value
  | .list js =>
    match f.occurrence with
    | .repeated => (checkItems f.shape 0 js).map .list
    | _ => oneFault (f.shape.check (.list js))
  | .object fs =>
    match f.occurrence with
    | .repeated => oneFault (.error .notAList)
    | _ => checkObject f.shape fs fun c => checkFields c fs
  | j =>
    match f.occurrence, j with
    | .optional, .null => .ok (.plain .null)
    | .repeated, _ => oneFault (.error .notAList)
    | _, j => oneFault (f.shape.check j)

def checkItems (s : Shape) (i : Nat) : List Json → Checked (List Value)
  | [] => .ok []
  | .object fs :: js =>
    addItem i (checkObject s fs fun c => checkFields c fs) (checkItems s (i + 1) js)
  | j :: js => addItem i (oneFault (s.check j)) (checkItems s (i + 1) js)

def checkFields (c : RecordClass) : List (String × Json) → List (String × Checked Value)
  | [] => []
  | (k, j) :: rest =>
    (k, match c.field? k with
      | some f => checkField f j
      | none => .ok (.plain j)) :: checkFields c rest

end

def ofJson (c : RecordClass) (j : Json) : Checked Record :=
  match j with
  | .object fs => assemble c (checkFields c fs)
  | j => .error [⟨[], Check.recordFault c.name j⟩]

def set (r : Record) (name : String) (j : Json) : Checked Record :=
  match r.recordClass.field? name with
  | none => .error [⟨[.field name], .unknownAttribute⟩]
  | some f =>
    match checkField f j with
    | .ok v => .ok (r.put name v)
    | .error fs => .error (fs.map (.inside (.field name)))

def push? (r : Record) (name : String) (j : Json) : Option Record :=
  match r.get? name with
  | some (.list _) => some (r.modify name fun v => match v with
    | .list vs => .list (vs ++ [.plain j])
    | v => v)
  | _ => none

end Record

end NetDesc
