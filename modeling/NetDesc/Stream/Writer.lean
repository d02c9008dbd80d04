import NetDesc.Json.Writer
import NetDesc.Record.Basic
import NetDesc.Stream.Bytes

namespace NetDesc

/-- How the writing ended, and the bytes that were written, also before a failure. -/
structure Writer (α : Type) where
  ending : Result α
  bytes : Bytes

namespace Writer

def ofResult {α : Type} (r : Result α) : Writer α :=
  ⟨r, []⟩

instance : Monad Writer where
  pure x := ofResult (.ok x)
  bind w f :=
    match w.ending with
    | .ok x =>
      let next := f x
      ⟨next.ending, w.bytes ++ next.bytes⟩
    | .error e => ⟨.error e, w.bytes⟩

def emit (bs : Bytes) : Writer Unit :=
  ⟨.ok (), bs⟩

def int (n : Int) : Writer Unit :=
  if Bytes.isWord n then emit (.ofWord n) else ofResult (.error .wordRange)

def double (x : Decimal.Double) : Writer Unit :=
  emit (.ofDouble x)

def bool (b : Bool) : Writer Unit :=
  emit [if b then 1 else 0]

def text? : Option String → Writer Unit
  | none => int (-1)
  | some s => do
    let bs := Bytes.ofText s
    int bs.length
    emit bs

def text (s : String) : Writer Unit :=
  text? (some s)

def list {α : Type} (write : α → Writer Unit) (xs : List α) : Writer Unit := do
  int xs.length
  xs.forM write

def texts (xs : List String) : Writer Unit :=
  list text xs

def doubles (xs : List Decimal.Double) : Writer Unit :=
  list double xs

def bools (xs : List Bool) : Writer Unit :=
  list bool xs

def record (r : Record) : Writer Unit :=
  let j := Json.object r.toJson
  if j.isWritable then text j.render else ofResult (.error (.badLiteral .unwritten))

def records (rs : List Record) : Writer Unit :=
  list record rs

end Writer

end NetDesc
