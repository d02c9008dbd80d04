import NetDesc.Json.Basic
import NetDesc.Yaml.Token

/-!
Values with the faults found in them, and the entries of an object. Faults of outer collections come
before those of inner ones, and of one collection the first counts.
-/

namespace NetDesc.Yaml

abbrev Valued := Except (Nat × Fault)

namespace Valued

def inside {α : Type} (v : Valued α) : Valued α :=
  v.mapError fun f => (f.1 + 1, f.2)

/-- Both values, or the outer fault of two, or the first of two that are as deep. -/
def both {α β γ : Type} (f : α → β → γ) (v : Valued α) (w : Valued β) : Valued γ :=
  match v, w with
  | .ok x, .ok y => .ok (f x y)
  | .error e, .ok _ => .error e
  | .ok _, .error e => .error e
  | .error e, .error e' => .error (if e'.1 < e.1 then e' else e)

def all {α : Type} (vs : List (Valued α)) : Valued (List α) :=
  vs.foldr (both List.cons) (.ok [])

end Valued

inductive Key where
  | text (codes : List Nat)
  | other
deriving DecidableEq, Repr

namespace Key

def ofJson (j : Json) : Key :=
  match j with
  | .text s => .text (Text.codes s)
  | .brokenText codes => .text codes
  | _ => .other

def codes? : Key → Option (List Nat)
  | .text codes => some codes
  | .other => none

end Key

structure Entry where
  key : Valued Key
  value : Valued Json

namespace Entry

def pair (e : Entry) : Valued (Key × Json) :=
  e.key.both Prod.mk e.value

def object (es : List Entry) : Valued Json :=
  (Valued.all (es.map pair)).map fun ps =>
    .ofFields (ps.filterMap fun p => p.1.codes?.map fun codes => (codes, p.2))

/-- The set of the keys, as a list; all keys that are no texts count as one. -/
def set (es : List Entry) : Valued Json :=
  (Valued.all (es.map pair)).map fun ps =>
    .list ((ps.map Prod.fst).eraseDups.map fun key => key.codes?.elim .null .ofCodes)

end Entry

end NetDesc.Yaml
