import NetDesc.Text.Char

namespace NetDesc.Text

def hexDigit (n : Nat) : Char :=
  if n < 10 then Char.ofNat (0x30 + n) else Char.ofNat (0x57 + n)

def hexDigits : Nat → Nat → List Char
  | 0, _ => []
  | width + 1, n => hexDigits width (n / 16) ++ [hexDigit (n % 16)]

def escapedCode (n : Nat) : List Char :=
  if n < 0x100 then '\\' :: 'x' :: hexDigits 2 n
  else if n < 0x10000 then '\\' :: 'u' :: hexDigits 4 n
  else '\\' :: 'U' :: hexDigits 8 n

def shownChar (quote c : Char) : List Char :=
  if c = quote ∨ c = '\\' then ['\\', c]
  else if c = '\n' then ['\\', 'n']
  else if c = '\r' then ['\\', 'r']
  else if c = '\t' then ['\\', 't']
  else if isPrintable c then [c]
  else escapedCode c.toNat

def shownCode (quote : Char) (n : Nat) : List Char :=
  if isCharCode n then shownChar quote (Char.ofNat n) else escapedCode n

def shownQuote (cs : List Char) : Char :=
  if cs.contains '\'' && !cs.contains '"' then '"' else '\''

def shown (s : String) : String :=
  let quote := shownQuote s.toList
  String.ofList (quote :: s.toList.flatMap (shownChar quote) ++ [quote])

def shownCodes (codes : List Nat) : String :=
  let quote := shownQuote (codes.map Char.ofNat)
  String.ofList (quote :: codes.flatMap (shownCode quote) ++ [quote])

end NetDesc.Text
