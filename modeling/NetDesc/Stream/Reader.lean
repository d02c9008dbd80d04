import NetDesc.Json.Reader
import NetDesc.Record.Basic
import NetDesc.Stream.Bytes

namespace NetDesc

abbrev Reader := ExceptT Failure (StateM Bytes)

namespace Reader

def take (n : Nat) : Reader Bytes := do
  let left ← get
  set (left.drop n)
  let taken := left.take n
  if taken.length < n then throw (.undecodable (.truncated n taken.length)) else return taken

def int : Reader Int :=
  return Bytes.toWord (← take 4)

def double : Reader Decimal.Double :=
  return Bytes.toDouble (← take 8)

def bool : Reader Bool :=
  return (← take 1) != [0]

def utf8 (n : Nat) : Reader String := do
  match Bytes.toText? (← take n) with
  | some s => return s
  | none => throw .notUtf8

def text? : Reader (Option String) := do
  let n ← int
  if n < 0 then return none else return some (← utf8 n.toNat)

def text : Reader String :=
  return (← text?).getD ""

def count : Reader Nat := do
  let n ← int
  if n < 0 then throw (.undecodable (.negativeCount n)) else return n.toNat

def times {α : Type} (read : Reader α) : Nat → Reader (List α)
  | 0 => return []
  | n + 1 => do
    let x ← read
    let xs ← times read n
    return x :: xs

def list {α : Type} (read : Reader α) : Reader (List α) := do
  times read (← count)

def texts : Reader (List String) :=
  list text

def doubles : Reader (List Decimal.Double) :=
  list double

def bools : Reader (List Bool) :=
  list bool

def recordOfText (c : RecordClass) (payload : String) : Result Record :=
  match Json.parse? (if payload.isEmpty then "\x7b\x7d" else payload) with
  | none => .error (.undecodable (.corrupt c.name))
  | some j => (Record.ofJson c j).mapError (Failure.ofFaults c.name)

def record (c : RecordClass) : Reader Record := do
  ExceptT.mk (pure (recordOfText c (← text)))

def records (c : RecordClass) : Reader (List Record) :=
  list (record c)

def run {α : Type} (r : Reader α) (bs : Bytes) : Result α × Bytes :=
  StateT.run (ExceptT.run r) bs

end Reader

end NetDesc
