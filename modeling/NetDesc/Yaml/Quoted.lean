import NetDesc.Json.Token
import NetDesc.Yaml.Token

namespace NetDesc.Yaml

namespace Quoted

open Text

def escapes : List (Char × Char) :=
  [('0', '\x00'), ('a', '\x07'), ('b', '\x08'), ('t', '\t'), ('\t', '\t'), ('n', '\n'),
    ('v', '\x0b'), ('f', '\x0c'), ('r', '\r'), ('e', '\x1b'), (' ', ' '), ('"', '"'), ('\\', '\\'),
    ('/', '/'), ('N', '\x85'), ('_', '\u00a0'), ('L', '\u2028'), ('P', '\u2029')]

def code (digits : List Char) : Scanned Nat :=
  match digits.foldlM (fun n c => (hexValue? c).map fun d => n * 16 + d) 0 with
  | none => .error .token
  | some n => if 0x10ffff < n then .error (.literal (.character n)) else .ok n

def codes (cs : List Char) : List Nat :=
  cs.map Char.toNat

abbrev Codes := Scanned (List Nat × Cursor)

def before (ns : List Nat) (r : Codes) : Codes :=
  r.map fun r => (ns ++ r.1, r.2)

def escaped (digits : List Char) (r : Codes) : Codes :=
  match code digits with
  | .ok n => before [n] r
  | .error f => .error f

def single (gap : Gap) : Position → List Char → Codes
  | _, [] => .error .token
  | p, c :: rest =>
    let p' := p.after c
    if gap.hasBreak && p.column == 0 && startsWithMark (c :: rest) then .error .token
    else if c = ' ' ∨ c = '\t' then single (gap.addBlank c) p' rest
    else if isBreak c then single (gap.addBreak c) p' rest
    else if c = '\'' then
      match rest with
      | '\'' :: rest => before (codes (gap.text ++ ['\''])) (single .none (p'.after '\'') rest)
      | rest => .ok (codes gap.text, ⟨p', rest⟩)
    else before (codes (gap.text ++ [c])) (single .none p' rest)

def double (gap : Gap) : Position → List Char → Codes
  | _, [] => .error .token
  | p, c :: rest =>
    let p' := p.after c
    if gap.hasBreak && p.column == 0 && startsWithMark (c :: rest) then .error .token
    else if c = ' ' ∨ c = '\t' then double (gap.addBlank c) p' rest
    else if isBreak c then double (gap.addBreak c) p' rest
    else if c = '"' then .ok (codes gap.text, ⟨p', rest⟩)
    else if c = '\\' then
      match rest with
      | 'x' :: a :: b :: rest =>
        before (codes gap.text) (escaped [a, b]
          (double .none (['x', a, b].foldl Position.after p') rest))
      | 'u' :: a :: b :: d :: e :: rest =>
        before (codes gap.text) (escaped [a, b, d, e]
          (double .none (['u', a, b, d, e].foldl Position.after p') rest))
      | 'U' :: a :: b :: d :: e :: f :: g :: h :: i :: rest =>
        before (codes gap.text) (escaped [a, b, d, e, f, g, h, i]
          (double .none (['U', a, b, d, e, f, g, h, i].foldl Position.after p') rest))
      | d :: rest =>
        if isBreak d then
          before (codes gap.text) (double (.breaks none []) (p'.after d) rest)
        else
          match escapes.lookup d with
          | some e => before (codes gap.text ++ [e.toNat]) (double .none (p'.after d) rest)
          | none => .error .token
      | [] => .error .token
    else before (codes (gap.text ++ [c])) (double .none p' rest)

def scan (quote : Char) (c : Cursor) : Codes :=
  if quote = '"' then double .none c.position c.rest else single .none c.position c.rest

end Quoted

end NetDesc.Yaml
