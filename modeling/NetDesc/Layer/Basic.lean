import NetDesc.Layer.Kind
import NetDesc.Record.Basic

namespace NetDesc

open Decimal

/-- The records stand in the order of their slots, at most one in each. How many solvers share a run,
and which of them the layer belongs to, is known while it runs and never written. -/
structure Layer where
  kind : LayerKind
  name : String
  bottom : List String
  top : List String
  phase : Option Phase
  lossWeight : List Double
  parameters : List Record
  blobs : List Record
  propagateDown : List Bool
  includeRules : List Record
  excludeRules : List Record
  maxBottomCount : List (Phase × Int)
  params : List (Slot × Record)
  solverCount : Nat
  solverRank : Nat
deriving Inhabited

namespace Layer

def blank (kind : LayerKind) (name : String) : Layer :=
  ⟨kind, name, [], [], none, [], [], [], [], [], [], [], [], 1, 0⟩

def putParam (params : List (Slot × Record)) (s : Slot) (r : Record) : List (Slot × Record) :=
  Slot.every.filterMap fun t => if t = s then some (t, r) else (params.lookup t).map fun q => (t, q)

def dropParam (params : List (Slot × Record)) (s : Slot) : List (Slot × Record) :=
  params.filter fun p => p.1 != s

def putLimit (limits : List (Phase × Int)) (p : Phase) (n : Int) : List (Phase × Int) :=
  if limits.any fun l => l.1 == p then
    limits.map fun l => if l.1 = p then (p, n) else l
  else limits ++ [(p, n)]

def standardRecord (kind : LayerKind) (s : Slot) : Record :=
  if kind = .sigmoidCrossEntropyLoss ∧ s = .loss then
    (Record.standard .loss).put "normalization" (.choice "BATCH_SIZE")
  else .standard s.recordClass

def create (kind : LayerKind) (name : String) : Layer :=
  { blank kind name with
    maxBottomCount := kind.spec.maxBottom
    params := kind.spec.slots.foldl (fun ps s => putParam ps s (standardRecord kind s)) [] }

def param? (l : Layer) (s : Slot) : Option Record :=
  l.params.lookup s

def setParam (l : Layer) (slotName : String) (r : Option Record) : Result Layer :=
  match Slot.ofName? slotName with
  | none => .error (.unknown "parameter block" slotName)
  | some s =>
    if !l.kind.legalSlots.contains s then
      .error (.undecodable (.illegalSlot s.name l.kind.name))
    else
      match r with
      | none => .ok { l with params := dropParam l.params s }
      | some r =>
        if r.recordClass = s.recordClass then .ok { l with params := putParam l.params s r }
        else
          .error (.undecodable (.wrongRecord s.name s.recordClass.name r.recordClass.name))

def rulePhase? (rule : Record) : Option Phase :=
  match rule.get? "phase" with
  | some (.choice w) => Phase.ofName? w
  | _ => none

def ruleNames (p : Phase) (rule : Record) : Bool :=
  match rulePhase? rule with
  | some q => q == p || q.expand.contains p
  | none => false

/-- Exclude rules come first, then include rules. A layer none of whose include rules names the
phase takes part only if it has exclude rules, and one without include rules always does. -/
def meetsPhase (l : Layer) (p : Phase) : Bool :=
  if p = .none then true
  else if l.excludeRules.any (ruleNames p) then false
  else if l.includeRules.any (ruleNames p) then true
  else l.includeRules.isEmpty || !l.excludeRules.isEmpty

def sharedSlots : LayerKind → List Slot
  | .data | .tripletData => [.data, .transformation]
  | .batchData => [.batchData, .transformation]
  | _ => []

def copyDefaults (l : Layer) (other : Option Layer) : Result Layer :=
  match other with
  | none => .ok l
  | some o =>
    if o.kind ≠ l.kind then .error (.otherKind o.kind.name l.kind.name)
    else
      .ok { l with
        includeRules := o.includeRules
        excludeRules := o.excludeRules
        parameters := o.parameters
        params := (sharedSlots l.kind).foldl (fun ps s =>
          match o.param? s with
          | some r => putParam ps s r
          | none => ps) l.params }

def biasSlot? : LayerKind → Option Slot
  | .convolution | .deconvolution => some .convolution
  | .innerProduct => some .innerProduct
  | _ => none

def hasBias (l : Layer) : Bool :=
  match ((biasSlot? l.kind).bind l.param?).bind (·.get? "bias_term") with
  | some (.plain (.bool b)) => b
  | _ => true

def parameterCount (l : Layer) : Nat :=
  if !l.hasBias && 1 < l.parameters.length then l.parameters.length - 1 else l.parameters.length

def clone (l : Layer) (keepBlobs : Bool) : Layer :=
  if keepBlobs then l else { l with blobs := [] }

def setField (l : Layer) (s : Slot) (r : Record) (field : String) (j : Json) : Checked Layer :=
  (r.set field j).map fun r => { l with params := putParam l.params s r }

def describe (l : Layer) : String :=
  l.name ++ " (" ++ l.kind.name ++ ")"

def sameRecords (rs ss : List Record) : Bool :=
  Value.sameList (rs.map Record.value) (ss.map Record.value)

def sameParams : List (Slot × Record) → List (Slot × Record) → Bool
  | [], [] => true
  | (s, r) :: ps, (t, q) :: qs => s == t && r.same q && sameParams ps qs
  | _, _ => false

def sameWeights : List Double → List Double → Bool
  | [], [] => true
  | x :: xs, y :: ys => x.sameNumber y && sameWeights xs ys
  | _, _ => false

def sameLimits (xs ys : List (Phase × Int)) : Bool :=
  xs.length == ys.length && xs.all fun (p, n) => ys.lookup p == some n

/-- Equality of layers: numbers by their value, and which fields were given does not count. -/
def same (l m : Layer) : Bool :=
  l.kind == m.kind && l.name == m.name && l.bottom == m.bottom && l.top == m.top &&
    l.phase == m.phase && sameWeights l.lossWeight m.lossWeight &&
    sameRecords l.parameters m.parameters && sameRecords l.blobs m.blobs &&
    l.propagateDown == m.propagateDown && sameRecords l.includeRules m.includeRules &&
    sameRecords l.excludeRules m.excludeRules && sameLimits l.maxBottomCount m.maxBottomCount &&
    sameParams l.params m.params && l.solverCount == m.solverCount && l.solverRank == m.solverRank

end Layer

end NetDesc
