import NetDesc.Stream.Bytes
import NetDesc.Text.Char

namespace NetDesc.Text.Base64

def value? (c : Char) : Option Nat :=
  let n := c.toNat
  if 'A' ≤ c ∧ c ≤ 'Z' then some (n - 0x41)
  else if 'a' ≤ c ∧ c ≤ 'z' then some (n - 0x47)
  else if '0' ≤ c ∧ c ≤ '9' then some (n + 4)
  else if c = '+' then some 62
  else if c = '/' then some 63
  else none

/-- The values up to the end or to the padding that completes four places; none where a group of
four is left open. Marks of padding count only from the third place on and next to each other. -/
def values? (place pads : Nat) : List Char → Option (List Nat)
  | [] => if place = 0 then some [] else none
  | c :: rest =>
    match value? c with
    | some v => (values? ((place + 1) % 4) 0 rest).map (v :: ·)
    | none =>
      if c = '=' ∧ 2 ≤ place then
        if 3 ≤ place + pads then some [] else values? place (pads + 1) rest
      else values? place pads rest

def bytes : List Nat → Bytes
  | a :: b :: c :: d :: rest =>
    UInt8.ofNat (a * 4 + b / 16) :: UInt8.ofNat (b * 16 + c / 4) :: UInt8.ofNat (c * 64 + d) ::
      bytes rest
  | [a, b, c] => [UInt8.ofNat (a * 4 + b / 16), UInt8.ofNat (b * 16 + c / 4)]
  | [a, b] => [UInt8.ofNat (a * 4 + b / 16)]
  | _ => []

def decode? (s : String) : Option Bytes :=
  if s.toList.all fun c => c.toNat < 0x80 then (values? 0 0 s.toList).map bytes else none

end NetDesc.Text.Base64
