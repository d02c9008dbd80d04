import NetDesc.Text.Literal

namespace NetDesc.Yaml

inductive Fault where
  | character
  | token
  | order
  | reference
  | value
  | literal (f : LiteralFault)
deriving DecidableEq, Repr

end NetDesc.Yaml
