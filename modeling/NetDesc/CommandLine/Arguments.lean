namespace NetDesc.CommandLine

structure OptionSpec where
  names : List String
  takesValue : Bool

structure Given where
  name : String
  value : Option String
deriving Repr

structure Arguments where
  options : List Given
  operands : List String
deriving Repr

namespace Arguments

def value? (a : Arguments) (name : String) : Option String :=
  (a.options.reverse.find? fun g => g.name == name).bind (·.value)

def has (a : Arguments) (name : String) : Bool :=
  a.options.any fun g => g.name == name

def isOn (a : Arguments) (on off : String) : Bool :=
  (a.options.reverse.find? fun g => g.name == on || g.name == off).any fun g => g.name == on

end Arguments

structure Parts where
  flags : List String
  last : Option (String × Option String)

def spec? (specs : List OptionSpec) (name : String) : Option OptionSpec :=
  specs.find? fun s => s.names.contains name

def OptionSpec.mainName (s : OptionSpec) : String :=
  s.names.headD ""

def longParts? (specs : List OptionSpec) (arg : List Char) : Option Parts := do
  let name := arg.takeWhile (· != '=')
  let attached := match arg.dropWhile (· != '=') with
    | _ :: text => some (String.ofList text)
    | [] => none
  let s ← spec? specs (String.ofList name)
  if s.takesValue then return ⟨[], some (s.mainName, attached)⟩
  else if attached.isSome then none
  else return ⟨[s.mainName], none⟩

def shortParts? (specs : List OptionSpec) : List Char → Option Parts
  | [] => some ⟨[], none⟩
  | c :: rest => do
    let s ← spec? specs (String.ofList ['-', c])
    if s.takesValue then
      return ⟨[], some (s.mainName, if rest.isEmpty then none else some (String.ofList rest))⟩
    else
      let parts ← shortParts? specs rest
      return { parts with flags := s.mainName :: parts.flags }

def parts? (specs : List OptionSpec) (arg : List Char) : Option Parts :=
  match arg with
  | '-' :: '-' :: _ => longParts? specs arg
  | _ :: short => shortParts? specs short
  | [] => none

def isOption (arg : List Char) : Bool :=
  arg.head? == some '-' && 1 < arg.length

def flagsOnly (names : List String) : List Given :=
  names.map fun n => ⟨n, none⟩

/-- Options and operands; `--` makes operands of all that follows. Unless they may be `mixed`, the
first operand ends the options. -/
def arguments? (specs : List OptionSpec) (mixed : Bool) : List String → Option Arguments
  | [] => some ⟨[], []⟩
  | arg :: rest =>
    if arg = "--" then some ⟨[], rest⟩
    else if isOption arg.toList then
      match parts? specs arg.toList with
      | none => none
      | some ⟨flags, none⟩ =>
        (arguments? specs mixed rest).map fun a =>
          { a with options := flagsOnly flags ++ a.options }
      | some ⟨flags, some (name, some text)⟩ =>
        (arguments? specs mixed rest).map fun a =>
          { a with options := flagsOnly flags ++ ⟨name, some text⟩ :: a.options }
      | some ⟨flags, some (name, none)⟩ =>
        match rest with
        | [] => none
        | text :: rest =>
          (arguments? specs mixed rest).map fun a =>
            { a with options := flagsOnly flags ++ ⟨name, some text⟩ :: a.options }
    else if mixed then
      (arguments? specs mixed rest).map fun a => { a with operands := arg :: a.operands }
    else some ⟨[], arg :: rest⟩

end NetDesc.CommandLine
