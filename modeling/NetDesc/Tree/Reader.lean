import NetDesc.Text.Line
import NetDesc.Text.Shown
import NetDesc.Tree.Token

/-!
Reading a description. Each token opens a block, closes one or continues a field, so the state
between two tokens is the stack of open blocks and the part of a field already read.
-/

namespace NetDesc

open Text Literal

inductive SyntaxReason where
  | unterminatedString
  | unterminatedBlock (name : String)
  | unbalancedBrace
  | expectedName
  | endAfter (name : String)
  | missingValue (name : String)
  | expectedValue (name : String)
  | expectedColon (name : String)
deriving DecidableEq, Repr

def SyntaxReason.message : SyntaxReason → String
  | .unterminatedString => "Unterminated string"
  | .unterminatedBlock name => "Unterminated block '" ++ name ++ "'"
  | .unbalancedBrace => "Unbalanced '\x7d'"
  | .expectedName => "Expected a field name"
  | .endAfter name => "Unexpected end of text after '" ++ name ++ "'"
  | .missingValue name => "Missing value for '" ++ name ++ "'"
  | .expectedValue name => "Expected a value after '" ++ name ++ ":'"
  | .expectedColon name => "Expected ':' before the value of '" ++ name ++ "'"

structure SyntaxError where
  reason : SyntaxReason
  position : Position
  snippet : String
deriving DecidableEq, Repr

def SyntaxError.message (e : SyntaxError) : String :=
  e.reason.message ++ " (line " ++ toString e.position.line ++ ", column " ++
    toString e.position.column ++ ")" ++ if e.snippet.isEmpty then "" else ": " ++ shown e.snippet

namespace Reader

structure Frame where
  name : String
  opener : Position
  before : List Node

inductive Expecting where
  | field
  | colon (name : Token)
  | value (name colon : Token)

structure State where
  blocks : List Frame
  fields : List Node
  expecting : Expecting

def start : State := ⟨[], [], .field⟩

namespace State

def add (s : State) (n : Node) : State :=
  ⟨s.blocks, n :: s.fields, .field⟩

def openBlock (s : State) (name : String) (brace : Token) : State :=
  ⟨⟨name, brace.position, s.fields⟩ :: s.blocks, [], .field⟩

def fail {α : Type} (reason : SyntaxReason) (t : Token) : Except SyntaxError α :=
  .error ⟨reason, t.position, t.word⟩

def step (s : State) (t : Token) : Except SyntaxError State :=
  match s.expecting with
  | .field =>
    match t.kind with
    | .closeBrace =>
      match s.blocks with
      | [] => fail .unbalancedBrace t
      | b :: blocks => .ok ⟨blocks, .block b.name s.fields.reverse :: b.before, .field⟩
    | .word => if isName t.text then .ok { s with expecting := .colon t } else fail .expectedName t
    | _ => fail .expectedName t
  | .colon name =>
    match t.kind with
    | .colon => .ok { s with expecting := .value name t }
    | .openBrace => .ok (s.openBlock name.word t)
    | _ => fail (.expectedColon name.word) t
  | .value name _ =>
    match t.kind with
    | .openBrace => .ok (s.openBlock name.word t)
    | .string => .ok (s.add (.leaf name.word (String.ofList (unquote (t.text.drop 1).dropLast)) .string))
    | .word => .ok (s.add (.leaf name.word t.word (.classify t.word)))
    | _ => fail (.expectedValue name.word) t

def finish (s : State) : Except SyntaxError Node :=
  match s.expecting with
  | .field =>
    match s.blocks with
    | [] => .ok (.root s.fields.reverse)
    | b :: _ => .error ⟨.unterminatedBlock b.name, b.opener, b.name⟩
  | .colon name => fail (.endAfter name.word) name
  | .value name colon => .error ⟨.missingValue name.word, colon.position, name.word⟩

end State

def readTokens (ts : List Token) : Except SyntaxError Node :=
  ts.foldlM State.step start >>= State.finish

end Reader

def Token.Unclosed.error (u : Token.Unclosed) : SyntaxError :=
  ⟨.unterminatedString, u.position, String.ofList (firstLine (u.rest.take 20))⟩

def Node.parse (text : String) : Except SyntaxError Node :=
  match Token.scan .start text.toList with
  | .error u => .error u.error
  | .ok ts => Reader.readTokens ts

end NetDesc
