import NetDesc.Yaml.Outline
import NetDesc.Yaml.Kind

namespace NetDesc

inductive Yaml where
  | scalar (kind : Yaml.Kind) (codes : List Nat)
  | list (kind : Yaml.Kind) (items : List Yaml)
  | object (kind : Yaml.Kind) (fields : List (Yaml × Yaml))
  | alias (name : String)
deriving Repr, Inhabited

namespace Yaml

def isAlias (name : String) : Yaml → Bool
  | .alias a => a == name
  | _ => false

/-- The fields of an object without merges of the object into itself, which add nothing to it. -/
def withoutOwnMerges (name : String) (fields : List (Yaml × Yaml)) : List (Yaml × Yaml) :=
  fields.filterMap fun f =>
    match f with
    | (.scalar .merge codes, .list k items) =>
      some (.scalar .merge codes, .list k (items.filter fun y => !y.isAlias name))
    | (.scalar .merge codes, y) =>
      if y.isAlias name then none else some (.scalar .merge codes, y)
    | f => some f

structure Document where
  root : Yaml
  anchored : List (String × Yaml)

structure Properties where
  anchor : Option String := none
  tag : Option Tag := none
deriving DecidableEq, Repr

namespace Properties

def none : Properties := ⟨Option.none, Option.none⟩

def isNone (p : Properties) : Bool :=
  p.anchor.isNone && p.tag.isNone

def add? (p : Properties) (t : Token) : Option Properties :=
  match t, p with
  | .anchor a, ⟨Option.none, tag⟩ => some ⟨some a, tag⟩
  | .tag t, ⟨anchor, Option.none⟩ => some ⟨anchor, some t⟩
  | _, _ => Option.none

end Properties

/-- The key of a field that waits for its value. In brackets a key without a mark has none. -/
inductive Pending where
  | none
  | marked (key : Yaml)
  | unmarked

/-- An open collection, last item first: a list by dashes, which may be aligned with the keys around
it, or an object by keys; in brackets a list, an object, or one field as an item of a list. -/
inductive Frame where
  | dashes (aligned : Bool) (anchor : Option String) (kind : Kind) (items : List Yaml)
  | keys (anchor : Option String) (kind : Kind) (fields : List (Yaml × Yaml)) (key : Pending)
  | list (anchor : Option String) (kind : Kind) (items : List Yaml)
  | object (anchor : Option String) (kind : Kind) (fields : List (Yaml × Yaml)) (key : Pending)
  | field (key : Pending)

inductive Place where
  | start
  | heading (begun : Bool)
  | content
  | node (p : Properties)
  | first
  | mark
  | between

structure Reader where
  frames : List Frame := []
  place : Place := .start
  version : Bool := false
  handles : List (String × String) := []
  names : List String := []
  anchored : List (String × Yaml) := []
  document : Option Document := none

namespace Reader

def start : Reader := ⟨[], .start, false, [], [], [], none⟩

def standardHandles : List (String × String) :=
  [("!", "!"), ("!!", Kind.addressStart)]

def empty : Yaml :=
  .scalar .null []

def tagOf (r : Reader) (p : Properties) : Scanned (Option String) :=
  match p.tag with
  | none => .ok none
  | some ⟨none, ending⟩ => .ok (some ending)
  | some ⟨some handle, ending⟩ =>
    match (r.handles ++ standardHandles).lookup handle with
    | some start => .ok (some (start ++ ending))
    | none => .error .order

def kindOr (tag : Option String) (kind : Kind) : Kind :=
  match tag with
  | some t => if t = "!" then kind else .ofTag t
  | none => kind

def scalarKind (tag : Option String) (plain : Bool) (codes : List Nat) : Kind :=
  let isOpen := tag == some "!" || (plain && tag.isNone)
  kindOr tag (match isOpen, Text.ofCodes? codes with
    | true, some s => .ofText s
    | _, _ => .text)

def addAnchor (p : Properties) (r : Reader) : Scanned Reader :=
  match p.anchor with
  | some a => if r.names.contains a then .error .reference else .ok { r with names := a :: r.names }
  | none => .ok r

def putAnchor (anchor : Option String) (y : Yaml) (r : Reader) : Reader :=
  match anchor with
  | some a => { r with anchored := (a, y) :: r.anchored }
  | none => r

def receive (r : Reader) (y : Yaml) : Reader :=
  match r.frames with
  | .dashes aligned a k items :: rest =>
    { r with frames := .dashes aligned a k (y :: items) :: rest, place := .between }
  | .keys a k fields (.marked key) :: rest =>
    { r with frames := .keys a k ((key, y) :: fields) .none :: rest, place := .between }
  | .keys a k fields _ :: rest =>
    { r with frames := .keys a k fields (.marked y) :: rest, place := .mark }
  | .list a k items :: rest =>
    { r with frames := .list a k (y :: items) :: rest, place := .between }
  | .object a k fields .none :: rest =>
    { r with frames := .object a k fields (.marked y) :: rest, place := .mark }
  | .object a k fields .unmarked :: rest =>
    { r with frames := .object a k ((y, empty) :: fields) .none :: rest, place := .between }
  | .object a k fields (.marked key) :: rest =>
    { r with frames := .object a k ((key, y) :: fields) .none :: rest, place := .between }
  | .field (.marked key) :: .list a k items :: rest =>
    { r with
      frames := .list a k (.object .object [(key, y)] :: items) :: rest, place := .between }
  | .field _ :: rest => { r with frames := .field (.marked y) :: rest, place := .mark }
  | [] =>
    { r with
      place := .heading false, names := [], anchored := [],
      document := some ⟨y, r.anchored.reverse⟩ }

def close (r : Reader) : Reader :=
  let done (anchor : Option String) (y : Yaml) (rest : List Frame) : Reader :=
    ({ r with frames := rest }.putAnchor anchor y).receive y
  let object (anchor : Option String) (k : Kind) (fields : List (Yaml × Yaml)) : Yaml :=
    .object k (anchor.elim fields fun a => withoutOwnMerges a fields)
  match r.frames with
  | .dashes _ a k items :: rest => done a (.list k items.reverse) rest
  | .keys a k fields _ :: rest => done a (object a k fields.reverse) rest
  | .list a k items :: rest => done a (.list k items.reverse) rest
  | .object a k fields _ :: rest => done a (object a k fields.reverse) rest
  | .field _ :: _ | [] => r

def inBlock (r : Reader) : Bool :=
  match r.frames with
  | [] | .dashes _ _ _ _ :: _ | .keys _ _ _ _ :: _ => true
  | _ => false

def atKeys (r : Reader) : Bool :=
  match r.frames with
  | .keys _ _ _ _ :: _ => true
  | _ => false

def startNode? (p : Properties) (tag : Option String) (t : Token) (r : Reader) :
    Option (Scanned Reader) :=
  let enter (f : Frame) (place : Place) : Option (Scanned Reader) :=
    some ((r.addAnchor p).map fun r => { r with frames := f :: r.frames, place })
  match t with
  | .scalar plain codes =>
    let y := .scalar (scalarKind tag plain codes) codes
    some ((r.addAnchor p).map fun r => (r.putAnchor p.anchor y).receive y)
  | .dash =>
    if r.atKeys then enter (.dashes true p.anchor (kindOr tag .list) []) .content else none
  | .openList => enter (.list p.anchor (kindOr tag .list) []) .first
  | .openObject => enter (.object p.anchor (kindOr tag .object) [] .none) .first
  | .blockSequence =>
    if r.inBlock then enter (.dashes false p.anchor (kindOr tag .list) []) .between else none
  | .blockMapping =>
    if r.inBlock then enter (.keys p.anchor (kindOr tag .object) [] .none) .between else none
  | _ => none

def fresh (t : Token) (r : Reader) : Scanned Reader :=
  match t, Properties.none.add? t with
  | .alias name, _ =>
    if r.names.contains name then .ok (r.receive (.alias name)) else .error .reference
  | _, some p => .ok { r with place := .node p }
  | t, none => (r.startNode? .none none t).getD (.error .order)

def isAbsent (t : Token) (r : Reader) : Bool :=
  match r.frames with
  | .dashes false _ _ _ :: _ => t == .dash || t == .blockEnd
  | .dashes true _ _ _ :: _ => t == .dash || t == .key || t == .value || t == .blockEnd
  | .keys _ _ _ _ :: _ => t == .key || t == .value || t == .blockEnd
  | .list _ _ _ :: _ => false
  | .object _ _ _ (.marked _) :: _ => t == .comma || t == .closeObject
  | .object _ _ _ _ :: _ => t == .value || t == .comma || t == .closeObject
  | .field (.marked _) :: _ => t == .comma || t == .closeList
  | .field _ :: _ => t == .value || t == .comma || t == .closeList
  | [] =>
    match t with
    | .directive _ | .documentStart | .documentEnd | .textEnd => true
    | _ => false

def addDirective (d : Directive) (r : Reader) : Scanned Reader :=
  match d with
  | .version major =>
    if r.version || major != 1 then .error .order else .ok { r with version := true }
  | .handle name value =>
    if (r.handles.lookup name).isSome then .error .order
    else .ok { r with handles := (name, value) :: r.handles }
  | .other => .ok r

def heading (begun : Bool) (t : Token) (r : Reader) : Scanned Reader :=
  match t with
  | .directive d =>
    let r := if begun then r else { r with version := false, handles := [] }
    (r.addDirective d).map fun r => { r with place := .heading true }
  | .documentStart =>
    if r.document.isSome then .error .reference
    else .ok { r with place := .content, handles := if begun then r.handles else [] }
  | .documentEnd => if begun then .error .order else .ok r
  | .textEnd => if begun then .error .order else .ok r
  | _ => .error .order

def between (t : Token) (r : Reader) : Scanned Reader :=
  match r.frames, t with
  | .dashes _ _ _ _ :: _, .dash => .ok { r with place := .content }
  | .dashes false _ _ _ :: _, .blockEnd => .ok r.close
  | .keys _ _ _ _ :: _, .key => .ok { r with place := .content }
  | .keys _ _ _ _ :: _, .blockEnd => .ok r.close
  | .list _ _ _ :: _, .comma | .object _ _ _ _ :: _, .comma => .ok { r with place := .first }
  | .list _ _ _ :: _, .closeList | .object _ _ _ _ :: _, .closeObject => .ok r.close
  | [], t => r.heading false t
  | _, _ => .error .order

def mark (t : Token) (r : Reader) : Scanned Reader :=
  match t with
  | .value => .ok { r with place := .content }
  | t => (r.receive empty).between t

/-- Behind a node: a list of dashes at the column of the keys ends where no dash follows. -/
def behind (t : Token) (r : Reader) : Scanned Reader :=
  let r := match r.place, r.frames, t with
    | .between, .dashes true _ _ _ :: _, .dash => r
    | .between, .dashes true _ _ _ :: _, _ => r.close
    | _, _, _ => r
  match r.place with
  | .mark => r.mark t
  | _ => r.between t

def content (t : Token) (r : Reader) : Scanned Reader :=
  if r.isAbsent t then (r.receive empty).behind t else r.fresh t

def node (p : Properties) (t : Token) (r : Reader) : Scanned Reader :=
  match p.add? t with
  | some q => (r.tagOf q).map fun _ => { r with place := .node q }
  | none => do
    let tag ← r.tagOf p
    match r.startNode? p tag t with
    | some r => r
    | none => do
      let r ← r.addAnchor p
      let y := .scalar (scalarKind tag true []) []
      ((r.putAnchor p.anchor y).receive y).behind t

def first (t : Token) (r : Reader) : Scanned Reader :=
  match r.frames, t with
  | .list _ _ _ :: _, .closeList | .object _ _ _ _ :: _, .closeObject => .ok r.close
  | .list _ _ _ :: _, .key => .ok { r with frames := .field .none :: r.frames, place := .content }
  | .object _ _ _ _ :: _, .key => .ok { r with place := .content }
  | .object a k fields _ :: rest, t =>
    { r with frames := .object a k fields .unmarked :: rest }.fresh t
  | _, t => r.fresh t

def step (r : Reader) (t : Token) : Scanned Reader :=
  match r.place, t with
  | .start, .directive _ | .start, .documentStart | .start, .textEnd => r.heading false t
  | .start, t => r.fresh t
  | .heading begun, t => r.heading begun t
  | .content, t => r.content t
  | .node p, t => r.node p t
  | .first, t => r.first t
  | .mark, t => r.mark t
  | .between, t => r.behind t

end Reader

def parse (text : String) : Scanned (Option Document) := do
  let ts := Tokens.ofText text
  let r ← ts.tokens.foldlM Reader.step .start
  match ts.fault with
  | some f => .error f
  | none => return r.document

end Yaml

end NetDesc
