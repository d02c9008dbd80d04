import NetDesc.Decimal.Numeral
import NetDesc.Json.Basic

/-!
Tokens of a JSON text. Numbers are read generously: they may start with zeros, and a minus without
digits is a zero.
-/

namespace NetDesc.Json

open Decimal Text

inductive Token where
  | openList
  | closeList
  | openObject
  | closeObject
  | comma
  | colon
  | scalar (j : Json)
  | longInt (digits : Nat)
  | invalid

namespace Token

def hexUnit? (a b c d : Char) : Option Nat := do
  let a ← hexValue? a
  let b ← hexValue? b
  let c ← hexValue? c
  let d ← hexValue? d
  return ((a * 16 + b) * 16 + c) * 16 + d

def isHighUnit (n : Nat) : Bool := 0xd800 ≤ n && n < 0xdc00

def isLowUnit (n : Nat) : Bool := 0xdc00 ≤ n && n < 0xe000

def escaped? (c : Char) : Option Char :=
  if c = '"' ∨ c = '\\' ∨ c = '/' then some c
  else if c = 'b' then some '\x08'
  else if c = 'f' then some '\x0c'
  else if c = 'n' then some '\n'
  else if c = 'r' then some '\r'
  else if c = 't' then some '\t'
  else none

def codes? : List Char → Option (List Nat × List Char)
  | [] => none
  | '\\' :: 'u' :: a :: b :: c :: d :: rest =>
    match hexUnit? a b c d with
    | none => none
    | some n => (codes? rest).map fun r => (n :: r.1, r.2)
  | '\\' :: c :: rest =>
    match escaped? c with
    | none => none
    | some c => (codes? rest).map fun r => (c.toNat :: r.1, r.2)
  | c :: rest =>
    if c = '"' then some ([], rest)
    else if c = '\\' ∨ c = '\x00' then none
    else (codes? rest).map fun r => (c.toNat :: r.1, r.2)

/-- Two halves of a pair that follow one another are one character. -/
def joinHalves : List Nat → List Nat
  | [] => []
  | [n] => [n]
  | n :: m :: rest =>
    if isHighUnit n && isLowUnit m then
      (0x10000 + (n - 0xd800) * 0x400 + (m - 0xdc00)) :: joinHalves rest
    else n :: joinHalves (m :: rest)

def asciiDigits (cs : List Char) : List Nat × List Char :=
  ((cs.takeWhile isAsciiDigit).map fun c => c.toNat - 0x30, cs.dropWhile isAsciiDigit)

def fraction (cs : List Char) : Option (List Nat) × List Char :=
  match cs with
  | '.' :: rest => ((some (asciiDigits rest).1), (asciiDigits rest).2)
  | cs => (none, cs)

def exponent (cs : List Char) : Option (Bool × List Nat) × List Char :=
  match cs with
  | c :: rest =>
    if c = 'e' ∨ c = 'E' then
      let (negative, rest) := takeSign rest
      (some (negative, (asciiDigits rest).1), (asciiDigits rest).2)
    else (none, c :: rest)
  | [] => (none, [])

def signed (negative : Bool) (ds : List Nat) : Int :=
  if negative then -(ofDigits ds : Int) else ofDigits ds

/-- A number without a point and an exponent. Only one outside the words of 64 bits has a limit to
its digits. -/
def whole (negative : Bool) (ds : List Nat) : Token :=
  let n := signed negative ds
  if digitLimit < ds.length && (n < -0x8000000000000000 || 0x10000000000000000 ≤ n) then
    .longInt ds.length
  else .scalar (.int n)

/-- Where there is a point or an exponent, there is a digit before the exponent and one in it. -/
def number (negative : Bool) (cs : List Char) : Token × List Char :=
  let (front, rest) := asciiDigits cs
  let (frac, rest) := fraction rest
  let (exp, rest) := exponent rest
  if frac.isNone && exp.isNone then (whole negative front, rest)
  else
    let digits := front ++ frac.getD []
    let (less, power) := exp.getD (false, [0])
    if digits.isEmpty || power.isEmpty then (.invalid, rest)
    else
      let e := signed less power - (frac.getD []).length
      (.scalar (.float (.ofDecimal negative (ofDigits digits) e)), rest)

def afterWord? : List Char → List Char → Option (List Char)
  | [], cs => some cs
  | w :: ws, c :: cs => if w = c then afterWord? ws cs else none
  | _ :: _, [] => none

def words : List (List Char × Json) :=
  [("true".toList, .bool true), ("false".toList, .bool false), ("null".toList, .null),
    ("NaN".toList, .float (.nan false)), ("Infinity".toList, .float (.infinity false)),
    ("-Infinity".toList, .float (.infinity true))]

def isSpace (c : Char) : Bool :=
  c == ' ' || c == '\t' || c == '\r' || c == '\n'

def next (c : Char) (cs : List Char) : Token × List Char :=
  if c = '[' then (.openList, cs)
  else if c = ']' then (.closeList, cs)
  else if c = '{' then (.openObject, cs)
  else if c = '}' then (.closeObject, cs)
  else if c = ',' then (.comma, cs)
  else if c = ':' then (.colon, cs)
  else if c = '"' then
    match codes? cs with
    | some (codes, rest) => (.scalar (ofCodes (joinHalves codes)), rest)
    | none => (.invalid, [])
  else
    match words.findSome? fun w => (afterWord? w.1 (c :: cs)).map fun rest => (w.2, rest) with
    | some (j, rest) => (.scalar j, rest)
    | none =>
      if c = '-' then number true cs
      else if isAsciiDigit c then number false (c :: cs)
      else (.invalid, cs)

def scan (cs : List Char) : List Token :=
  go cs.length cs
where
  go : Nat → List Char → List Token
    | _, [] => []
    | 0, _ :: _ => [.invalid]
    | fuel + 1, c :: cs =>
      if isSpace c then go fuel cs
      else
        match next c cs with
        | (.invalid, _) => [.invalid]
        | (t, rest) => t :: go fuel rest

end Token

end NetDesc.Json
