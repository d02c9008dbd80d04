import NetDesc.Decimal.FieldNumber
import NetDesc.Decimal.Layout
import NetDesc.Proofs.Decimal.Shortest
import NetDesc.Proofs.Text.Char

namespace NetDesc.Decimal

open Text

theorem digitValue?_of_isDigit {c : Char} (h : c.isDigit = true) :
    digitValue? c = some (c.toNat - 0x30) := by
  simp only [Char.isDigit, Bool.and_eq_true, decide_eq_true_eq, ge_iff_le, UInt32.le_iff_toNat_le] at h
  have h1 : 0x30 ≤ c.toNat := h.1
  have h2 : c.toNat ≤ 0x39 := h.2
  have h3 : c.toNat < 0x80 := by omega
  simp [digitValue?, h1, h2, h3]

theorem isDigit_of_ascii {c : Char} (h : c.isDigit = true) : Text.isDigit c = true := by
  rw [Text.isDigit, digitValue?_of_isDigit h]
  rfl

def digitsOf (cs : List Char) : List Nat :=
  cs.map fun c => c.toNat - 0x30

theorem takeDigits_append {cs rest : List Char} (hd : ∀ c ∈ cs, c.isDigit = true)
    (hr : ∀ c ∈ rest.head?, digitValue? c = none) :
    takeDigits (cs ++ rest) = (digitsOf cs, rest) := by
  induction cs with
  | nil =>
    cases rest with
    | nil => rfl
    | cons c rest => simp [takeDigits, hr c (by simp), digitsOf]
  | cons c cs ih =>
    have hc := digitValue?_of_isDigit (hd c (by simp))
    simp [takeDigits, hc, ih fun x hx => hd x (by simp [hx]), digitsOf]

theorem takeDigits_of_isDigit {cs : List Char} (h : ∀ c ∈ cs, c.isDigit = true) :
    takeDigits cs = (digitsOf cs, []) := by
  have htake := @takeDigits_append cs [] h nofun
  rwa [List.append_nil] at htake

theorem ofDigits_digitsOf (cs : List Char) : ofDigits (digitsOf cs) = Nat.ofDigitChars 10 cs 0 := by
  simp only [ofDigits, digitsOf, List.foldl_map, Nat.ofDigitChars_eq_foldl, Nat.mul_comm]
  rfl

def signText : Option Bool → List Char
  | none => []
  | some negative => [if negative then '-' else '+']

theorem takeSign_append {cs : List Char} (sign : Option Bool)
    (h : ∀ c ∈ cs.head?, c ≠ '-' ∧ c ≠ '+') :
    takeSign (signText sign ++ cs) = (sign.getD false, cs) := by
  rcases sign with _ | _ | _
  · cases cs with
    | nil => rfl
    | cons c cs =>
      obtain ⟨hm, hp⟩ := h c rfl
      rw [signText, List.nil_append, takeSign]
      · rfl
      · intro _ he
        exact hm (List.cons.inj he).1
      · intro _ he
        exact hp (List.cons.inj he).1
  · rfl
  · rfl

theorem ne_sign_of_isDigit {c : Char} (h : c.isDigit = true) : c ≠ '-' ∧ c ≠ '+' := by
  constructor <;> rintro rfl <;> cases h

theorem readExponent?_digits {ds : List Char} (sign : Option Bool) (hd : ∀ c ∈ ds, c.isDigit = true)
    (hne : ds ≠ []) : readExponent? ('e' :: (signText sign ++ ds)) =
      some (if sign.getD false then -(Nat.ofDigitChars 10 ds 0 : Int) else Nat.ofDigitChars 10 ds 0) := by
  obtain ⟨c, cs, rfl⟩ := List.exists_cons_of_ne_nil hne
  have hhead : ∀ e ∈ (c :: cs).head?, e ≠ '-' ∧ e ≠ '+' := by
    rintro e ⟨⟩
    exact ne_sign_of_isDigit (hd c (List.mem_cons_self ..))
  have htake := takeDigits_of_isDigit hd
  have hof := ofDigits_digitsOf (c :: cs)
  obtain ⟨d, values, hvalues⟩ : ∃ d values, digitsOf (c :: cs) = d :: values := ⟨_, _, rfl⟩
  rw [hvalues] at htake hof
  rw [readExponent?, if_pos (.inl rfl), takeSign_append sign hhead]
  dsimp only
  rw [htake]
  dsimp only
  rw [hof]

structure Spelling where
  whole : List Char
  fraction : Option (List Char)
  exponent : Option (Bool × List Char)

namespace Spelling

def exponentText : Option (Bool × List Char) → List Char
  | none => []
  | some (negative, ds) => 'e' :: (if negative then '-' else '+') :: ds

def fractionText : Option (List Char) → List Char
  | none => []
  | some ds => '.' :: ds

def text (s : Spelling) : List Char :=
  s.whole ++ (fractionText s.fraction ++ exponentText s.exponent)

def power (s : Spelling) : Int :=
  match s.exponent with
  | none => 0
  | some (negative, ds) =>
    let n : Int := Nat.ofDigitChars 10 ds 0
    if negative then -n else n

def digits (s : Spelling) : Nat :=
  Nat.ofDigitChars 10 (s.whole ++ s.fraction.getD []) 0

def value (negative : Bool) (s : Spelling) : Double :=
  .ofDecimal negative s.digits (s.power - (s.fraction.getD []).length)

structure Regular (s : Spelling) : Prop where
  whole : ∀ c ∈ s.whole, c.isDigit = true
  starts : s.whole ≠ []
  fraction : ∀ ds ∈ s.fraction, ∀ c ∈ ds, c.isDigit = true
  exponent : ∀ e ∈ s.exponent, ∀ c ∈ e.2, c.isDigit = true
  ends : ∀ e ∈ s.exponent, e.2 ≠ []

def isRegular (s : Spelling) : Bool :=
  s.whole.all Char.isDigit && !s.whole.isEmpty && s.fraction.all (·.all Char.isDigit) &&
    s.exponent.all fun e => e.2.all Char.isDigit && !e.2.isEmpty

variable {s : Spelling}

theorem regular_iff : s.Regular ↔ s.isRegular = true := by
  simp only [isRegular, Bool.and_eq_true, List.all_eq_true, Bool.not_eq_true',
    List.isEmpty_eq_false_iff, Option.all_eq_true]
  constructor
  · intro h
    exact ⟨⟨⟨h.whole, h.starts⟩, h.fraction⟩, fun e he => ⟨h.exponent e he, h.ends e he⟩⟩
  · rintro ⟨⟨⟨hwhole, hstarts⟩, hfraction⟩, hexponent⟩
    exact ⟨hwhole, hstarts, hfraction, fun e he => (hexponent e he).1, fun e he => (hexponent e he).2⟩

instance (s : Spelling) : Decidable s.Regular :=
  decidable_of_iff _ regular_iff.symm

theorem readExponent?_exponentText (hs : s.Regular) :
    readExponent? (exponentText s.exponent) = some s.power := by
  rw [power]
  cases he : s.exponent with
  | none => rfl
  | some e => exact readExponent?_digits (some e.1) (hs.exponent e he) (hs.ends e he)

theorem digitValue?_dot : digitValue? '.' = none := by decide

theorem digitValue?_e : digitValue? 'e' = none := by decide

theorem head_exponentText (e : Option (Bool × List Char)) :
    ∀ c ∈ (exponentText e).head?, c = 'e' := by
  cases e with
  | none => simp [exponentText]
  | some e => simp [exponentText]

theorem readDecimal?_parts {ending : List Char} (negative : Bool) (hs : s.Regular)
    (hhead : ∀ c ∈ ending.head?, c = 'e') (hread : readExponent? ending = some s.power) :
    readDecimal? negative (s.whole ++ (fractionText s.fraction ++ ending)) =
      some (s.value negative) := by
  have hend : ∀ c ∈ ending.head?, digitValue? c = none := fun c hc => by
    rw [hhead c hc]
    exact digitValue?_e
  have hw : digitsOf s.whole ≠ [] := by simpa [digitsOf] using hs.starts
  have hmid : ∀ c ∈ (fractionText s.fraction ++ ending).head?, digitValue? c = none := by
    cases hf : s.fraction with
    | none => simpa [fractionText] using hend
    | some ds => simpa [fractionText] using digitValue?_dot
  rw [readDecimal?, takeDigits_append hs.whole hmid]
  cases hf : s.fraction with
  | none =>
    cases ending with
    | nil => simp [fractionText, hw, hread, value, digits, hf, ← ofDigits_digitsOf]
    | cons c rest =>
      obtain rfl := hhead c rfl
      simp [fractionText, hw, hread, value, digits, hf, ← ofDigits_digitsOf]
  | some ds =>
    have ht := takeDigits_append (hs.fraction ds hf) hend
    simp [fractionText, ht, hs.starts, hread, value, digits, hf, ← ofDigits_digitsOf, digitsOf]

theorem readDecimal?_text (negative : Bool) (hs : s.Regular) :
    readDecimal? negative s.text = some (s.value negative) :=
  readDecimal?_parts negative hs (head_exponentText _) (readExponent?_exponentText hs)

theorem value_eq {d k : Nat} {e : Int} (negative : Bool) (hd : s.digits = d * tenTo k)
    (he : s.power - (s.fraction.getD []).length = e - k) :
    s.value negative = .ofDecimal negative d e := by
  rw [value, hd, he, Double.ofDecimal_shift]

end Spelling

theorem isDigit_zeros (n : Nat) : ∀ c ∈ zeros n, c.isDigit = true := fun c hc => by
  rw [List.eq_of_mem_replicate hc]
  rfl

theorem isDigit_toDigits (n : Nat) : ∀ c ∈ Nat.toDigits 10 n, c.isDigit = true := fun _ hc =>
  Nat.isDigit_of_mem_toDigits (by decide) (by decide) hc

theorem isDigit_append {cs ds : List Char} (hc : ∀ c ∈ cs, c.isDigit = true)
    (hd : ∀ c ∈ ds, c.isDigit = true) : ∀ c ∈ cs ++ ds, c.isDigit = true := fun c h =>
  (List.mem_append.mp h).elim (hc c) (hd c)

theorem ofDigitChars_zeros_append (n : Nat) (ds : List Char) :
    Nat.ofDigitChars 10 (zeros n ++ ds) 0 = Nat.ofDigitChars 10 ds 0 := by
  rw [Nat.ofDigitChars_append, zeros, Nat.ofDigitChars_replicate_zero, Nat.mul_zero]

theorem ofDigitChars_append_zeros (ds : List Char) (n : Nat) :
    Nat.ofDigitChars 10 (ds ++ zeros n) 0 = Nat.ofDigitChars 10 ds 0 * tenTo n := by
  rw [Nat.ofDigitChars_append, zeros, Nat.ofDigitChars_replicate_zero, Nat.mul_comm]
  rfl

theorem isDigit_padded (width n : Nat) : ∀ c ∈ padded width n, c.isDigit = true :=
  isDigit_append (isDigit_zeros _) (isDigit_toDigits n)

theorem ofDigitChars_padded (width n : Nat) : Nat.ofDigitChars 10 (padded width n) 0 = n := by
  rw [padded, ofDigitChars_zeros_append, Nat.ofDigitChars_ten_toDigits]

theorem padded_ne_nil (width n : Nat) : padded width n ≠ [] := by
  simp [padded]

namespace Spelling

def positional (ds : List Char) (place : Int) : Spelling :=
  if place ≤ 0 then ⟨['0'], some (zeros (-place).toNat ++ ds), none⟩
  else if ds.length ≤ place.toNat then ⟨ds ++ zeros (place.toNat - ds.length), some ['0'], none⟩
  else ⟨ds.take place.toNat, some (ds.drop place.toNat), none⟩

def exponential (width : Nat) (ds : List Char) (exponent : Int) : Spelling :=
  ⟨ds.take 1, if ds.length ≤ 1 then none else some (ds.drop 1),
    some (decide (exponent < 0), padded width exponent.natAbs)⟩

def integer (n : Nat) : Spelling :=
  ⟨Nat.toDigits 10 n, none, none⟩

theorem text_positional (ds : List Char) (place : Int) :
    (positional ds place).text = Decimal.positional ds place := by
  unfold positional Decimal.positional
  split
  · simp [text, fractionText, exponentText]
  dsimp only
  split
  · simp [text, fractionText, exponentText]
  · simp [text, fractionText, exponentText]

theorem text_exponential (width : Nat) (ds : List Char) (exponent : Int) :
    (exponential width ds exponent).text = Decimal.exponential width ds exponent := by
  rcases ds with _ | ⟨d, _ | ⟨d', ds⟩⟩ <;>
    simp [exponential, Decimal.exponential, text, fractionText, exponentText]

theorem text_integer (n : Nat) : (integer n).text = Nat.toDigits 10 n := by
  simp [integer, text, fractionText, exponentText]

theorem isSome_positional (ds : List Char) (place : Int) :
    (positional ds place).fraction.isSome = true := by
  unfold positional
  split
  · rfl
  split <;> rfl

theorem isSome_exponential (width : Nat) (ds : List Char) (exponent : Int) :
    (exponential width ds exponent).exponent.isSome = true := rfl

theorem regular_positional {ds : List Char} {place : Int} (hd : ∀ c ∈ ds, c.isDigit = true)
    (hne : ds ≠ []) : (positional ds place).Regular := by
  have hz : ∀ c ∈ ['0'], c.isDigit = true := List.forall_mem_singleton.mpr rfl
  unfold positional
  split
  · refine ⟨hz, by simp, ?_, by simp, by simp⟩
    rintro _ ⟨⟩
    exact isDigit_append (isDigit_zeros _) hd
  split
  · refine ⟨isDigit_append hd (isDigit_zeros _), by simp [hne], ?_, by simp, by simp⟩
    rintro _ ⟨⟩
    exact hz
  · next hp _ =>
    refine ⟨fun c hc => hd c (List.mem_of_mem_take hc), ?_, ?_, by simp, by simp⟩
    · simpa [hne] using hp
    · rintro _ ⟨⟩
      exact fun c hc => hd c (List.mem_of_mem_drop hc)

theorem regular_exponential {ds : List Char} (width : Nat) (exponent : Int)
    (hd : ∀ c ∈ ds, c.isDigit = true) (hne : ds ≠ []) : (exponential width ds exponent).Regular := by
  refine ⟨fun c hc => hd c (List.mem_of_mem_take hc), by simpa [exponential] using hne, ?_, ?_, ?_⟩
  · intro fs hf
    simp only [exponential] at hf
    split at hf
    · cases hf
    · cases hf
      exact fun c hc => hd c (List.mem_of_mem_drop hc)
  · rintro _ ⟨⟩
    exact isDigit_padded _ _
  · rintro _ ⟨⟩
    exact padded_ne_nil _ _

theorem regular_integer (n : Nat) : (integer n).Regular :=
  ⟨isDigit_toDigits n, Nat.toDigits_ne_nil, by simp [integer], by simp [integer], by simp [integer]⟩

variable (negative : Bool) (d : Nat) (e : Int)

theorem value_positional :
    (positional (Nat.toDigits 10 d) ((Nat.toDigits 10 d).length + e)).value negative =
      .ofDecimal negative d e := by
  unfold positional
  split
  · next hp =>
    apply value_eq (k := 0)
    · simp [digits, Nat.ofDigitChars_cons, ofDigitChars_zeros_append, tenTo_zero]
    · simp [power, zeros]
      omega
  split
  · next hp hl =>
    apply value_eq (k := ((Nat.toDigits 10 d).length + e).toNat - (Nat.toDigits 10 d).length + 1)
    · have hz : ['0'] = zeros 1 := rfl
      simp only [digits, Option.getD_some, hz, ofDigitChars_append_zeros,
        Nat.ofDigitChars_ten_toDigits, tenTo_add, Nat.mul_assoc]
    · simp [power]
      omega
  · next hp hl =>
    apply value_eq (k := 0)
    · simp [digits, tenTo_zero]
    · simp [power]
      omega

theorem value_exponential (width : Nat) :
    (exponential width (Nat.toDigits 10 d) ((Nat.toDigits 10 d).length + e - 1)).value negative =
      .ofDecimal negative d e := by
  have hpos : 0 < (Nat.toDigits 10 d).length := Nat.length_toDigits_pos
  apply value_eq (k := 0)
  · unfold exponential
    split
    · next hl =>
      simp [digits, List.take_of_length_le hl, tenTo_zero]
    · simp only [digits, Option.getD_some, List.take_append_drop, Nat.ofDigitChars_ten_toDigits,
        tenTo_zero, Nat.mul_one]
  · have hlen : ((exponential width (Nat.toDigits 10 d)
        ((Nat.toDigits 10 d).length + e - 1)).fraction.getD []).length =
        (Nat.toDigits 10 d).length - 1 := by
      unfold exponential
      split
      · next hl => simp; omega
      · simp
    rw [hlen]
    simp only [exponential, power, ofDigitChars_padded, decide_eq_true_eq]
    split <;> omega

theorem value_integer : (integer d).value negative = .ofDecimal negative d 0 := by
  simp [value, integer, digits, power]

end Spelling

def Layout.spelled (l : Layout) (x : Double) : Spelling :=
  if x.units = 0 then ⟨['0'], some ['0'], none⟩
  else
    let ds := Nat.toDigits 10 x.shortest.digits
    let place := ds.length + x.shortest.exponent
    if l.least < place ∧ place ≤ l.bound then .positional ds place
    else .exponential l.exponentWidth ds (place - 1)

section Spelled

variable (l : Layout) {x : Double}

theorem Layout.text_spelled (x : Double) : (l.spelled x).text = l.unsigned x := by
  unfold spelled unsigned
  split
  · rfl
  · dsimp only
    split
    · exact Spelling.text_positional _ _
    · exact Spelling.text_exponential _ _ _

theorem Layout.regular_spelled (x : Double) : (l.spelled x).Regular := by
  unfold spelled
  split
  · exact @Spelling.regular_positional ['0'] 1 (List.forall_mem_singleton.mpr rfl) (by simp)
  · dsimp only
    split
    · exact Spelling.regular_positional (isDigit_toDigits _) Nat.toDigits_ne_nil
    · exact Spelling.regular_exponential _ _ (isDigit_toDigits _) Nat.toDigits_ne_nil

def Spelling.HasPoint (s : Spelling) : Prop :=
  s.fraction.isSome = true ∨ s.exponent.isSome = true

theorem Layout.hasPoint_spelled (x : Double) : (l.spelled x).HasPoint := by
  unfold spelled
  split
  · exact .inl rfl
  · dsimp only
    split
    · exact .inl (Spelling.isSome_positional _ _)
    · exact .inr (Spelling.isSome_exponential _ _ _)

theorem Layout.value_spelled (hx : x.isFinite = true) : (l.spelled x).value x.negative = x := by
  unfold spelled
  split
  · next hu =>
    have hc := Double.code_of_units hx hu
    have hz := Double.ofCode_code x
    rw [hc] at hz
    simpa [Spelling.value, Spelling.digits, Nat.ofDigitChars_cons, Double.ofDecimal] using hz
  · dsimp only
    split
    · rw [Spelling.value_positional, Double.ofDecimal_shortest hx]
    · rw [Spelling.value_exponential, Double.ofDecimal_shortest hx]

end Spelled

end NetDesc.Decimal
