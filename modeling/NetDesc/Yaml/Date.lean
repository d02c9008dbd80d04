import NetDesc.Decimal.Numeral
import NetDesc.Text.Literal

namespace NetDesc.Yaml

open Decimal

structure Clock where
  hour : Nat
  minute : Nat
  second : Nat
  offset : Int
deriving DecidableEq, Repr

structure Date where
  year : Nat
  month : Nat
  day : Nat
  clock : Option Clock
deriving DecidableEq, Repr

namespace Date

def isBlank (c : Char) : Bool :=
  c == ' ' || c == '\t'

def digits (cs : List Char) : Nat :=
  ofDigits (takeDigits cs).1

def short? (cs : List Char) : Option (Nat × List Char) :=
  let ds := cs.takeWhile isAsciiDigit
  if ds.length = 1 ∨ ds.length = 2 then some (digits ds, cs.dropWhile isAsciiDigit) else none

def pair? : List Char → Option (Nat × List Char)
  | a :: b :: rest =>
    if isAsciiDigit a && isAsciiDigit b then some (digits [a, b], rest) else none
  | _ => none

def after? (mark : Char) : List Char → Option (List Char)
  | c :: rest => if c = mark then some rest else none
  | [] => none

def signedOffset? (west : Bool) (cs : List Char) : Option Int := do
  let (hours, rest) ← short? cs
  let minutes ← match rest with
    | [] => some 0
    | rest => do
      let (m, rest) ← pair? (← after? ':' rest)
      if rest.isEmpty then some m else none
  let seconds : Int := ((hours * 60 + minutes) * 60 : Nat)
  return if west then -seconds else seconds

def offset? (cs : List Char) : Option Int :=
  match cs.dropWhile isBlank with
  | [] => if cs.isEmpty then some 0 else none
  | c :: rest =>
    if c = 'Z' then (if rest.isEmpty then some 0 else none)
    else if c = '+' ∨ c = '-' then signedOffset? (c == '-') rest
    else none

def clock? (cs : List Char) : Option Clock := do
  let start ← match cs with
    | c :: rest =>
      if c = 't' ∨ c = 'T' then some rest
      else if isBlank c then some (rest.dropWhile isBlank)
      else none
    | [] => none
  let (hour, rest) ← short? start
  let (minute, rest) ← pair? (← after? ':' rest)
  let (second, rest) ← pair? (← after? ':' rest)
  let rest := match rest with
    | '.' :: rest => rest.dropWhile isAsciiDigit
    | rest => rest
  return ⟨hour, minute, second, ← offset? rest⟩

def parse? (cs : List Char) : Option Date := do
  let (century, rest) ← pair? cs
  let (year, rest) ← pair? rest
  let (month, rest) ← short? (← after? '-' rest)
  let (day, rest) ← short? (← after? '-' rest)
  let clock ← if rest.isEmpty then some none else (clock? rest).map some
  return ⟨century * 100 + year, month, day, clock⟩

def isPlain (cs : List Char) : Bool :=
  (parse? cs).any fun d => d.clock.isSome || cs.length == 10

def isLeap (year : Nat) : Bool :=
  year % 4 == 0 && (year % 100 != 0 || year % 400 == 0)

def monthLength (year month : Nat) : Nat :=
  if month = 2 then (if isLeap year then 29 else 28)
  else if [4, 6, 9, 11].contains month then 30
  else 31

def clockFault? (c : Clock) : Option LiteralFault :=
  if 23 < c.hour then some .hour
  else if 59 < c.minute then some .minute
  else if 59 < c.second then some .second
  else none

def dayFault? (d : Date) : Option LiteralFault :=
  if d.year = 0 then some .year
  else if d.month = 0 ∨ 12 < d.month then some .month
  else if d.day = 0 ∨ monthLength d.year d.month < d.day then some .day
  else none

def fault? (d : Date) : Option LiteralFault :=
  match d.clock with
  | none => d.dayFault?
  | some c =>
    if 86400 ≤ c.offset.natAbs then some (.offset c.offset)
    else d.dayFault?.or (clockFault? c)

end Date

end NetDesc.Yaml
