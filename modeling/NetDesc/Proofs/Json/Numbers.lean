import NetDesc.Json.Token
import NetDesc.Proofs.Decimal.Reading

namespace NetDesc.Json.Token

open Decimal

def EndsNumber (rest : List Char) : Prop :=
  ∀ c ∈ rest.head?, c.isDigit = false ∧ c ≠ '.' ∧ c ≠ 'e' ∧ c ≠ 'E'

variable {rest : List Char}

theorem asciiDigits_append {cs : List Char} (hd : ∀ c ∈ cs, c.isDigit = true)
    (hr : ∀ c ∈ rest.head?, c.isDigit = false) : asciiDigits (cs ++ rest) = (digitsOf cs, rest) := by
  obtain ⟨ht, hw⟩ := Text.takeWhile_append_stop (p := isAsciiDigit) hd hr
  rw [asciiDigits, ht, hw]
  rfl

theorem fraction_of_ne (h : ∀ c ∈ rest.head?, c ≠ '.') : fraction rest = (none, rest) := by
  cases rest with
  | nil => rfl
  | cons c rest =>
    rw [fraction]
    intro _ he
    exact h c rfl (List.cons.inj he).1

theorem exponent_of_ne (h : ∀ c ∈ rest.head?, c ≠ 'e' ∧ c ≠ 'E') : exponent rest = (none, rest) := by
  cases rest with
  | nil => rfl
  | cons c rest =>
    obtain ⟨hl, hu⟩ := h c rfl
    simp [exponent, hl, hu]

section Spelled

variable {s : Spelling} (hs : s.Regular) (hr : EndsNumber rest)

include hr

theorem head_exponent_append : ∀ c ∈ (Spelling.exponentText s.exponent ++ rest).head?,
    c.isDigit = false ∧ c ≠ '.' := by
  cases he : s.exponent with
  | none => exact fun c hc => ⟨(hr c hc).1, (hr c hc).2.1⟩
  | some e =>
    rintro _ ⟨⟩
    decide

include hs

theorem exponent_text : exponent (Spelling.exponentText s.exponent ++ rest) =
    (s.exponent.map fun e => (e.1, digitsOf e.2), rest) := by
  cases he : s.exponent with
  | none => exact exponent_of_ne fun c hc => (hr c hc).2.2
  | some e =>
    obtain ⟨negative, ds⟩ := e
    have hd := asciiDigits_append (hs.exponent _ he) fun c hc => (hr c hc).1
    have hsign : takeSign ((if negative then '-' else '+') :: (ds ++ rest)) =
        (negative, ds ++ rest) := by
      cases negative <;> rfl
    simp [Spelling.exponentText, exponent, hsign, hd]

theorem fraction_text :
    fraction (Spelling.fractionText s.fraction ++ (Spelling.exponentText s.exponent ++ rest)) =
      (s.fraction.map digitsOf, Spelling.exponentText s.exponent ++ rest) := by
  have hh := @head_exponent_append _ s hr
  cases hf : s.fraction with
  | none => exact fraction_of_ne fun c hc => (hh c hc).2
  | some ds =>
    have hd := asciiDigits_append (hs.fraction ds hf) fun c hc => (hh c hc).1
    simp [Spelling.fractionText, fraction, hd]

theorem asciiDigits_text : asciiDigits (s.text ++ rest) = (digitsOf s.whole,
    Spelling.fractionText s.fraction ++ (Spelling.exponentText s.exponent ++ rest)) := by
  have hh := @head_exponent_append _ s hr
  have htail : ∀ c ∈ (Spelling.fractionText s.fraction ++
      (Spelling.exponentText s.exponent ++ rest)).head?, c.isDigit = false := by
    cases hf : s.fraction with
    | none => exact fun c hc => (hh c hc).1
    | some ds =>
      rintro _ ⟨⟩
      decide
  rw [Spelling.text, List.append_assoc, List.append_assoc]
  exact asciiDigits_append hs.whole htail

theorem number_text (negative : Bool) (hp : s.HasPoint) :
    number negative (s.text ++ rest) = (.scalar (.float (s.value negative)), rest) := by
  have hw : digitsOf s.whole ≠ [] := by simpa [digitsOf] using hs.starts
  rw [number, asciiDigits_text hs hr]
  simp only [fraction_text hs hr, exponent_text hs hr]
  have hz : signed false [0] = 0 := rfl
  cases he : s.exponent with
  | none =>
    obtain ⟨ds, hf⟩ := Option.isSome_iff_exists.mp (hp.resolve_right (by simp [he]))
    simp [hf, hz, hs.starts, Spelling.value, Spelling.digits, Spelling.power, he,
      ← ofDigits_digitsOf, digitsOf]
  | some e =>
    obtain ⟨less, power⟩ := e
    have hpower : digitsOf power ≠ [] := by simpa [digitsOf] using hs.ends _ he
    have hsigned : signed less (digitsOf power) = s.power := by
      simp [signed, Spelling.power, he, ofDigits_digitsOf]
    cases hf : s.fraction with
    | none => simp [hw, hpower, hsigned, Spelling.value, Spelling.digits, hf, ← ofDigits_digitsOf]
    | some ds =>
      simp [hw, hpower, hsigned, Spelling.value, Spelling.digits, hf, ← ofDigits_digitsOf]
      simp [digitsOf]

end Spelled

theorem number_integer {n : Nat} (negative : Bool) (hr : EndsNumber rest) :
    number negative (Nat.toDigits 10 n ++ rest) =
      (whole negative (digitsOf (Nat.toDigits 10 n)), rest) := by
  have hd := asciiDigits_append (isDigit_toDigits n) fun c hc => (hr c hc).1
  have hf := fraction_of_ne fun c hc => (hr c hc).2.1
  have he := exponent_of_ne fun c hc => (hr c hc).2.2
  simp [number, hd, hf, he]

end NetDesc.Json.Token
