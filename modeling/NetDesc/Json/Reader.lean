import NetDesc.Json.Token

/-!
Reading JSON. The state between two tokens is the stack of open lists and objects.
-/

namespace NetDesc.Json

namespace Reader

inductive Fault where
  | malformed
  | longInt (digits : Nat)
deriving DecidableEq, Repr

inductive Frame where
  | list (items : List Json)
  | object (fields : List (List Nat × Json)) (key : Option (List Nat))

/-- What may follow: a value, a value or the end of an empty list, a key, a key or the end of an
empty object, a colon, a comma or the end, and nothing after the whole. -/
inductive Expecting where
  | value
  | firstItem
  | key
  | firstKey
  | colon
  | separator
  | nothing (whole : Json)

structure State where
  frames : List Frame
  expecting : Expecting

def start : State := ⟨[], .value⟩

def depthLimit : Nat := 1024

def Frame.value : Frame → Json
  | .list items => .list items.reverse
  | .object fields _ => .ofFields fields.reverse

namespace State

def complete (frames : List Frame) (j : Json) : Except Fault State :=
  match frames with
  | [] => .ok ⟨[], .nothing j⟩
  | .list items :: rest => .ok ⟨.list (j :: items) :: rest, .separator⟩
  | .object fields (some key) :: rest => .ok ⟨.object ((key, j) :: fields) none :: rest, .separator⟩
  | .object _ none :: _ => .error .malformed

def enter (s : State) (f : Frame) (e : Expecting) : Except Fault State :=
  if s.frames.length < depthLimit then .ok ⟨f :: s.frames, e⟩ else .error .malformed

def close (s : State) : Except Fault State :=
  match s.frames with
  | f :: rest => complete rest f.value
  | [] => .error .malformed

def value (s : State) (t : Token) : Except Fault State :=
  match t with
  | .scalar j => complete s.frames j
  | .openList => s.enter (.list []) .firstItem
  | .openObject => s.enter (.object [] none) .firstKey
  | .longInt digits => .error (.longInt digits)
  | _ => .error .malformed

def codes? : Json → Option (List Nat)
  | .text s => some (Text.codes s)
  | .brokenText codes => some codes
  | _ => none

def key (s : State) (t : Token) : Except Fault State :=
  match t, s.frames with
  | .scalar k, .object fields none :: rest =>
    match codes? k with
    | some key => .ok ⟨.object fields (some key) :: rest, .colon⟩
    | none => .error .malformed
  | _, _ => .error .malformed

def step (s : State) (t : Token) : Except Fault State :=
  match s.expecting with
  | .value => s.value t
  | .firstItem =>
    match t with
    | .closeList => s.close
    | t => s.value t
  | .key => s.key t
  | .firstKey =>
    match t with
    | .closeObject => s.close
    | t => s.key t
  | .colon =>
    match t with
    | .colon => .ok { s with expecting := .value }
    | _ => .error .malformed
  | .separator =>
    match t, s.frames with
    | .comma, .list _ :: _ => .ok { s with expecting := .value }
    | .comma, .object _ _ :: _ => .ok { s with expecting := .key }
    | .closeList, .list _ :: _ => s.close
    | .closeObject, .object _ _ :: _ => s.close
    | _, _ => .error .malformed
  | .nothing _ => .error .malformed

def finish (s : State) : Except Fault Json :=
  match s.expecting with
  | .nothing j => .ok j
  | _ => .error .malformed

end State

def readTokens (ts : List Token) : Except Fault Json :=
  (ts.foldlM State.step start).bind State.finish

end Reader

def read (text : String) : Except Reader.Fault Json :=
  Reader.readTokens (Token.scan text.toList)

def parse? (text : String) : Option Json :=
  (read text).toOption

end NetDesc.Json
