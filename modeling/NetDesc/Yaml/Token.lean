import NetDesc.Yaml.Cursor
import NetDesc.Yaml.Fault

/-!
Tokens of a YAML text. Scalars are kept as codes, because escapes may name halves of code pairs.
-/

namespace NetDesc.Yaml

inductive Directive where
  | version (major : Nat)
  | handle (name value : String)
  | other
deriving DecidableEq, Repr

structure Tag where
  handle : Option String
  ending : String
deriving DecidableEq, Repr

inductive Token where
  | directive (d : Directive)
  | documentStart
  | documentEnd
  | textEnd
  | blockSequence
  | blockMapping
  | blockEnd
  | openList
  | closeList
  | openObject
  | closeObject
  | comma
  | dash
  | key
  | value
  | alias (name : String)
  | anchor (name : String)
  | tag (t : Tag)
  | scalar (plain : Bool) (codes : List Nat)
deriving DecidableEq, Repr

abbrev Scanned := Except Fault

end NetDesc.Yaml
