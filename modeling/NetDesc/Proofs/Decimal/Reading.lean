import NetDesc.Proofs.Decimal.Spelling

namespace NetDesc.Decimal

open Text

theorem trim_eq_self {p : Char → Bool} {cs : List Char} (h : ∀ c ∈ cs, p c = false) :
    trim p cs = cs := by
  have hdrop {ds : List Char} (hd : ∀ d ∈ ds, p d = false) : ds.dropWhile p = ds := by
    cases ds with
    | nil => rfl
    | cons d ds => simp [hd d (by simp)]
  rw [trim, hdrop h, hdrop fun c hc => h c (List.mem_reverse.mp hc), List.reverse_reverse]

/-- ASCII without blanks, underscores and colons. -/
def IsPlain (cs : List Char) : Prop :=
  ∀ c ∈ cs, 0x2b ≤ c.toNat ∧ c.toNat ≤ 0x7a ∧ c.toNat ≠ 0x5f ∧ c.toNat ≠ 0x3a

section Plain

variable {cs : List Char}

theorem isPlain_nil : IsPlain [] :=
  nofun

theorem IsPlain.cons {c : Char} (h : IsPlain cs)
    (hc : 0x2b ≤ c.toNat ∧ c.toNat ≤ 0x7a ∧ c.toNat ≠ 0x5f ∧ c.toNat ≠ 0x3a) : IsPlain (c :: cs) :=
  List.forall_mem_cons.mpr ⟨hc, h⟩

theorem IsPlain.append {ds : List Char} (hc : IsPlain cs) (hd : IsPlain ds) : IsPlain (cs ++ ds) :=
  List.forall_mem_append.mpr ⟨hc, hd⟩

theorem IsPlain.ne_underscore (h : IsPlain cs) : ∀ c ∈ cs, c ≠ '_' := fun c hc he =>
  (h c hc).2.2.1 (he ▸ rfl)

theorem isSpace_of_plain {c : Char} (h : 0x2b ≤ c.toNat ∧ c.toNat ≤ 0x7a) : isSpace c = false := by
  rw [Bool.eq_false_iff]
  simp only [isSpace, Bool.or_eq_true, Bool.and_eq_true, ne_eq, decide_eq_true_eq, beq_iff_eq]
  omega

theorem IsPlain.trim (h : IsPlain cs) : Text.trim isSpace cs = cs :=
  trim_eq_self fun c hc => isSpace_of_plain ⟨(h c hc).1, (h c hc).2.1⟩

theorem IsPlain.withoutUnderscores (h : IsPlain cs) : withoutUnderscores cs = cs := by
  rw [Decimal.withoutUnderscores, List.filter_eq_self]
  exact fun c hc => by simpa using h.ne_underscore c hc

theorem joinDigits_of_ne (h : ∀ c ∈ cs, c ≠ '_') (after : Bool) :
    underscoresJoinDigits.go after cs = true := by
  induction cs generalizing after with
  | nil => rfl
  | cons c cs ih =>
    have hc := h c (by simp)
    rw [underscoresJoinDigits.go]
    · exact ih (fun d hd => h d (by simp [hd])) _
    · rintro _ _ rfl
      exact absurd rfl hc
    · rintro rfl
      exact absurd rfl hc

theorem IsPlain.joinDigits (h : IsPlain cs) : underscoresJoinDigits cs = true :=
  joinDigits_of_ne h.ne_underscore false

theorem IsPlain.isAscii (h : IsPlain cs) : isAscii cs = true := by
  rw [Decimal.isAscii, List.all_eq_true]
  intro c hc
  have := h c hc
  exact decide_eq_true (by omega)

end Plain

def signedText (negative : Bool) (cs : List Char) : List Char :=
  if negative then '-' :: cs else cs

theorem takeSign_signedText {cs : List Char} (negative : Bool)
    (h : ∀ c ∈ cs.head?, c ≠ '-' ∧ c ≠ '+') : takeSign (signedText negative cs) = (negative, cs) := by
  cases negative with
  | true => rfl
  | false => exact takeSign_append none h

theorem isPlain_signedText {cs : List Char} (negative : Bool) (h : IsPlain cs) :
    IsPlain (signedText negative cs) := by
  cases negative with
  | false => exact h
  | true => exact h.cons (by decide)

theorem isPlain_signText (sign : Option Bool) : IsPlain (signText sign) := by
  rcases sign with _ | _ | _
  · exact nofun
  · exact isPlain_nil.cons (by decide)
  · exact isPlain_nil.cons (by decide)

theorem isDigit_toNat {c : Char} (h : c.isDigit = true) : 0x30 ≤ c.toNat ∧ c.toNat ≤ 0x39 := by
  simp only [Char.isDigit, Bool.and_eq_true, decide_eq_true_eq, ge_iff_le,
    UInt32.le_iff_toNat_le] at h
  exact h

theorem isPlain_of_isDigit {cs : List Char} (h : ∀ c ∈ cs, c.isDigit = true) : IsPlain cs :=
  fun c hc => by
    have := isDigit_toNat (h c hc)
    omega

theorem toLower_of_digitValue? {c : Char} {d : Nat} (h : digitValue? c = some d) : c.toLower = c := by
  refine dif_neg ?_
  rintro ⟨hl, hu⟩
  have hle : 65 ≤ c.toNat := UInt32.le_iff_toNat_le.mp hl
  have hge : c.toNat ≤ 90 := UInt32.le_iff_toNat_le.mp hu
  have hnone : digitValue? c = none := by
    unfold digitValue?
    simp only
    rw [if_pos (by omega), if_neg (by simp; omega)]
  rw [hnone] at h
  cases h

theorem readUnsigned?_of_digit {c : Char} {d : Nat} {cs : List Char} (negative : Bool)
    (hc : digitValue? c = some d) :
    readUnsigned? negative (c :: cs) = readDecimal? negative (c :: cs) := by
  have hword {e : Char} {w : List Char} (he : digitValue? e = none) :
      String.ofList ((c :: cs).map Char.toLower) ≠ String.ofList (e :: w) := by
    intro hw
    rw [String.ofList_inj, List.map_cons, toLower_of_digitValue? hc] at hw
    rw [(List.cons.inj hw).1, he] at hc
    cases hc
  have hinf : String.ofList ((c :: cs).map Char.toLower) ≠ "inf" := hword (by decide)
  have hinfinity : String.ofList ((c :: cs).map Char.toLower) ≠ "infinity" := hword (by decide)
  have hnan : String.ofList ((c :: cs).map Char.toLower) ≠ "nan" := hword (by decide)
  rw [readUnsigned?]
  simp only [hinf, hinfinity, hnan, or_self, if_false]

namespace Spelling

variable {s : Spelling}

theorem isPlain_fractionText {fraction : Option (List Char)}
    (h : ∀ ds ∈ fraction, ∀ c ∈ ds, c.isDigit = true) : IsPlain (fractionText fraction) := by
  cases fraction with
  | none => exact isPlain_nil
  | some ds => exact (isPlain_of_isDigit (h ds rfl)).cons (by decide)

theorem isPlain_text (hs : s.Regular) : IsPlain s.text := by
  refine (isPlain_of_isDigit hs.whole).append ((isPlain_fractionText hs.fraction).append ?_)
  cases he : s.exponent with
  | none => exact isPlain_nil
  | some e =>
    have hdigits := isPlain_of_isDigit (hs.exponent e he)
    exact ((isPlain_signText (some e.1)).append hdigits).cons (by decide)

theorem text_eq_cons (hs : s.Regular) : ∃ c cs, c.isDigit = true ∧ s.text = c :: cs := by
  obtain ⟨c, cs, hc⟩ := List.exists_cons_of_ne_nil hs.starts
  exact ⟨c, cs ++ (fractionText s.fraction ++ exponentText s.exponent), hs.whole c (by simp [hc]),
    by simp [text, hc]⟩

theorem readUnsigned?_text (negative : Bool) (hs : s.Regular) :
    readUnsigned? negative s.text = some (s.value negative) := by
  obtain ⟨c, cs, hc, ht⟩ := text_eq_cons hs
  rw [← readDecimal?_text negative hs, ht, readUnsigned?_of_digit negative (digitValue?_of_isDigit hc)]

end Spelling

section Readers

variable {cs : List Char} {negative : Bool} {x : Double}

theorem readDouble?_signedText (hp : IsPlain cs) (hc : ∀ c ∈ cs.head?, c ≠ '-' ∧ c ≠ '+') :
    readDouble? (String.ofList (signedText negative cs)) = readUnsigned? negative cs := by
  rw [readDouble?, String.toList_ofList, (isPlain_signedText negative hp).trim]
  simp [takeSign_signedText negative hc, hp.joinDigits, hp.withoutUnderscores]

theorem readFieldDouble?_signedText (hp : IsPlain cs) (hc : ∀ c ∈ cs.head?, c ≠ '-' ∧ c ≠ '+')
    (hr : readUnsigned? negative cs = some x) :
    readFieldDouble? (String.ofList (signedText negative cs)) = some x := by
  have hs := isPlain_signedText negative hp
  rw [readFieldDouble?, String.toList_ofList, hs.trim]
  simp [readAscii?, hs.isAscii, takeSign_signedText negative hc, hr]

end Readers

theorem toList_toString (n : Int) :
    (toString n).toList = signedText (decide (n < 0)) (Nat.toDigits 10 n.natAbs) := by
  cases n with
  | ofNat m => simp [signedText, Int.repr]
  | negSucc m => simp [signedText, Int.repr]

theorem toString_eq (n : Int) :
    toString n = String.ofList (signedText (decide (n < 0)) (Nat.toDigits 10 n.natAbs)) := by
  rw [← toList_toString, String.ofList_toList]

namespace Spelling

theorem head_text {s : Spelling} (hs : s.Regular) : ∀ c ∈ s.text.head?, c ≠ '-' ∧ c ≠ '+' := by
  obtain ⟨c, cs, hc, ht⟩ := text_eq_cons hs
  rw [ht]
  rintro _ ⟨⟩
  exact ne_sign_of_isDigit hc

end Spelling

def Double.unsignedZero (x : Double) : Double :=
  if x.code = 0 then .zero else x

/-- What a text keeps of a number: no sign of a zero, and nothing of a NaN but that it is one. -/
def Double.canonical (x : Double) : Double :=
  if x.isNaN then nan false else x.unsignedZero

theorem Double.code_zero : Double.zero.code = 0 := rfl

theorem Double.key_zero : Double.zero.key = 0 := rfl

theorem Double.isNaN_zero : Double.zero.isNaN = false := rfl

theorem Double.isNaN_nan : (Double.nan false).isNaN = true := rfl

theorem infinityCode_pos : 0 < infinityCode := by
  decide

theorem readDouble?_nan : readDouble? "nan" = some (Double.nan false) := rfl

theorem readFieldDouble?_nan : readFieldDouble? "nan" = some (Double.nan false) := rfl

section Format

-- The powers are far too large to be computed.
attribute [local irreducible] twoTo

variable {x : Double}

theorem Double.sameNumber_self (hx : x.isNaN = false) : x.sameNumber x = true := by
  simp [sameNumber, hx]

theorem Double.sameNumber_unsignedZero (hx : x.isNaN = false) :
    x.sameNumber x.unsignedZero = true := by
  unfold unsignedZero
  split
  · next hc =>
    have hk : x.key = Double.zero.key := by
      rw [key_zero, key, hc]
      simp
    simp [sameNumber, hx, isNaN_zero, hk]
  · exact sameNumber_self hx

theorem Double.infinity_eq (hn : x.isNaN = false) (hf : x.isFinite = false) :
    infinity x.negative = x := by
  have hc : x.code = infinityCode :=
    Nat.le_antisymm (Nat.le_of_not_lt (of_decide_eq_false hn)) (Nat.le_of_not_lt (of_decide_eq_false hf))
  rw [infinity, ← hc, ofCode_code]

theorem Double.units_of_code (hc : x.code = 0) : x.units = 0 := by
  simp [units, hc]

theorem Double.isWhole_of_code (hc : x.code = 0) : x.isWhole = true := by
  rw [isWhole, units_of_code hc, isFinite, hc, Nat.zero_mod, decide_eq_true infinityCode_pos]
  rfl

theorem Double.unsignedZero_of_units (hu : x.units ≠ 0) : x.unsignedZero = x :=
  if_neg fun hc => hu (units_of_code hc)

structure SpelledAs (x : Double) (text : String) (negative : Bool) (cs : List Char) : Prop where
  text : text = String.ofList (signedText negative cs)
  plain : IsPlain cs
  head : ∀ c ∈ cs.head?, c ≠ '-' ∧ c ≠ '+'
  value : readUnsigned? negative cs = some x

theorem SpelledAs.of_regular {s : Spelling} {negative : Bool} (hs : s.Regular)
    (hv : s.value negative = x) :
    SpelledAs x (String.ofList (signedText negative s.text)) negative s.text :=
  ⟨rfl, Spelling.isPlain_text hs, Spelling.head_text hs, hv ▸ Spelling.readUnsigned?_text negative hs⟩

theorem render_finite (l : Layout) (hx : x.isNaN = false) (hf : x.isFinite = true) :
    l.render x = String.ofList (signedText x.negative (l.spelled x).text) := by
  rw [Layout.text_spelled]
  simp [Layout.render, hx, hf, signedText]

theorem render_infinite (l : Layout) (hx : x.isNaN = false) (hf : x.isFinite = false) :
    l.render x = String.ofList (signedText x.negative l.infinity.toList) := by
  simp [Layout.render, hx, hf, signedText]

theorem render_spelledAs (hx : x.isNaN = false) :
    ∃ cs, SpelledAs x (Layout.plain.render x) x.negative cs := by
  by_cases hf : x.isFinite = true
  · rw [render_finite _ hx hf]
    exact ⟨_, .of_regular (Layout.plain.regular_spelled x) (Layout.plain.value_spelled hf)⟩
  · rw [Bool.not_eq_true] at hf
    have hi : "inf".toList = ['i', 'n', 'f'] := rfl
    refine ⟨"inf".toList, render_infinite _ hx hf, ?_, ?_, ?_⟩
    · simp [hi, IsPlain]
    · simp [hi]
    · rw [readUnsigned?, if_pos (.inl (by decide)), Double.infinity_eq hx hf]

theorem whole_spelledAs (hx : x.isWhole = true) :
    ∃ negative cs, SpelledAs x.unsignedZero (toString x.whole) negative cs := by
  by_cases hz : x.units / twoTo 1074 = 0
  · have hw : x.whole = 0 := by simp [Double.whole, hz]
    have hc : x.code = 0 := by
      simp only [Double.isWhole, Bool.and_eq_true, beq_iff_eq] at hx
      refine Double.code_of_units hx.1 ?_
      rw [← Nat.div_add_mod x.units (twoTo 1074), hz, hx.2, Nat.mul_zero]
    rw [hw, Double.unsignedZero, if_pos hc]
    exact ⟨false, ['0'], .of_regular (Spelling.regular_integer 0)
      ((Spelling.value_integer false 0).trans rfl)⟩
  · have hu : x.units ≠ 0 := fun h => hz (by rw [h, Nat.zero_div])
    have hneg : decide (x.whole < 0) = x.negative := by
      rw [Double.whole]
      generalize x.units / twoTo 1074 = n at hz ⊢
      cases x.negative with
      | false => simp
      | true =>
        simp
        omega
    have habs : x.whole.natAbs = x.units / twoTo 1074 := by
      rw [Double.whole]
      cases x.negative <;> simp only [Bool.false_eq_true, if_false, if_true, Int.natAbs_neg,
        Int.natAbs_natCast]
    rw [Double.unsignedZero_of_units hu, toString_eq, hneg, habs, ← Spelling.text_integer]
    exact ⟨_, _, .of_regular (Spelling.regular_integer _)
      ((Spelling.value_integer _ _).trans (Double.ofDecimal_whole hx))⟩

theorem format_spelledAs (hx : x.isNaN = false) :
    ∃ negative cs, SpelledAs x.unsignedZero (format x) negative cs := by
  unfold format
  by_cases hw : x.isWhole = true
  · rw [if_pos hw]
    exact whole_spelledAs hw
  · rw [if_neg hw, Double.unsignedZero, if_neg]
    · exact ⟨_, render_spelledAs hx⟩
    · exact fun hc => hw (Double.isWhole_of_code hc)

theorem format_of_isNaN (hx : x.isNaN = true) : format x = "nan" := by
  have hf : x.isFinite = false := by
    rw [Double.isNaN, decide_eq_true_eq] at hx
    rw [Double.isFinite, decide_eq_false_iff_not]
    exact Nat.not_lt_of_gt hx
  rw [format, Double.isWhole, hf, Bool.false_and, if_neg Bool.false_ne_true, Layout.render, if_pos hx]
  rfl

theorem format_of_code (hc : x.code = 0) : format x = "0" := by
  have hz : x.whole = 0 := by
    rw [Double.whole, Double.units_of_code hc, Nat.zero_div, Int.natCast_zero, Int.neg_zero, ite_self]
  rw [format, if_pos (Double.isWhole_of_code hc), hz]
  rfl

theorem format_canonical (x : Double) : format x.canonical = format x := by
  unfold Double.canonical Double.unsignedZero
  split
  · next hx =>
    rw [format_of_isNaN hx, format_of_isNaN Double.isNaN_nan]
  split
  · next hc =>
    rw [format_of_code hc, format_of_code Double.code_zero]
  · rfl

theorem Double.canonical_of_isNaN (hx : x.isNaN = false) : x.canonical = x.unsignedZero :=
  if_neg (Bool.eq_false_iff.mp hx)

theorem readDouble?_format (x : Double) : readDouble? (format x) = some x.canonical := by
  cases hx : x.isNaN with
  | true =>
    rw [format_of_isNaN hx, Double.canonical, if_pos hx, readDouble?_nan]
  | false =>
    obtain ⟨negative, cs, hs⟩ := format_spelledAs hx
    rw [hs.text, readDouble?_signedText hs.plain hs.head, hs.value, Double.canonical_of_isNaN hx]

theorem readFieldDouble?_format (x : Double) : readFieldDouble? (format x) = some x.canonical := by
  cases hx : x.isNaN with
  | true =>
    rw [format_of_isNaN hx, Double.canonical, if_pos hx, readFieldDouble?_nan]
  | false =>
    obtain ⟨negative, cs, hs⟩ := format_spelledAs hx
    rw [hs.text, readFieldDouble?_signedText hs.plain hs.head hs.value,
      Double.canonical_of_isNaN hx]

end Format

theorem isLeadingDigit_digitChar : ∀ n < 10, 0 < n → isLeadingDigit (Nat.digitChar n) = true := by
  decide

theorem toDigits_head {n : Nat} (hn : 0 < n) :
    ∃ c cs, Nat.toDigits 10 n = c :: cs ∧ isLeadingDigit c = true := by
  induction n using Nat.strongRecOn with
  | ind n ih =>
    rw [Nat.toDigits_eq_if (by decide)]
    split
    · next hlt => exact ⟨_, _, rfl, isLeadingDigit_digitChar n hlt hn⟩
    · next hge =>
      obtain ⟨c, cs, hc, hd⟩ := ih (n / 10) (by omega) (by omega)
      exact ⟨c, cs ++ [Nat.digitChar (n % 10)], by rw [hc]; rfl, hd⟩

theorem head_toDigits (n : Nat) : ∀ c ∈ (Nat.toDigits 10 n).head?, c ≠ '-' ∧ c ≠ '+' := by
  rw [← Spelling.text_integer]
  exact Spelling.head_text (Spelling.regular_integer n)

theorem signed_natAbs (n : Int) : (if n < 0 then -(n.natAbs : Int) else n.natAbs) = n := by
  split <;> omega

theorem takeDigits_toDigits (n : Nat) :
    takeDigits (Nat.toDigits 10 n) = (digitsOf (Nat.toDigits 10 n), []) :=
  takeDigits_of_isDigit (isDigit_toDigits n)

theorem ofDigits_toDigits (n : Nat) : ofDigits (digitsOf (Nat.toDigits 10 n)) = n := by
  rw [ofDigits_digitsOf, Nat.ofDigitChars_ten_toDigits]

theorem length_toDigits_le_iff {n k : Nat} (hk : 0 < k) :
    (Nat.toDigits 10 n).length ≤ k ↔ n < tenTo k :=
  Nat.length_toDigits_le_iff (by decide) hk

theorem length_digitsOf (cs : List Char) : (digitsOf cs).length = cs.length :=
  List.length_map _

theorem isTooLong_eq_false_iff {n : Nat} :
    isTooLong n = false ↔ (Nat.toDigits 10 n).length ≤ digitLimit := by
  rw [length_toDigits_le_iff (by decide), isTooLong, decide_eq_false_iff_not, Nat.not_le]

theorem lt_length_toDigits_iff {n : Nat} :
    digitLimit < (Nat.toDigits 10 n).length ↔ isTooLong n = true := by
  rw [← Nat.not_le, ← isTooLong_eq_false_iff, Bool.not_eq_false]

theorem tenTo_le {m n : Nat} (h : m ≤ n) : tenTo m ≤ tenTo n :=
  Nat.pow_le_pow_right (by decide) h

theorem isTooLong_of_lt {n k : Nat} (hk : k ≤ digitLimit) (h : n < tenTo k) : isTooLong n = false := by
  rw [isTooLong, decide_eq_false_iff_not, Nat.not_le]
  exact Nat.lt_of_lt_of_le h (tenTo_le hk)

theorem isTooLong_zero : isTooLong 0 = false :=
  decide_eq_false (Nat.not_le.mpr (tenTo_pos digitLimit))

theorem readInt?_toString (n : Int) : readInt? (toString n) =
    if isTooLong n.natAbs then none else some n := by
  have hp := isPlain_of_isDigit (isDigit_toDigits n.natAbs)
  have hne : digitsOf (Nat.toDigits 10 n.natAbs) ≠ [] := by simp [digitsOf]
  have hs := signed_natAbs n
  have hof := ofDigits_toDigits n.natAbs
  have hlen : digitLimit < (digitsOf (Nat.toDigits 10 n.natAbs)).length ↔ isTooLong n.natAbs = true := by
    rw [length_digitsOf, lt_length_toDigits_iff]
  rw [readInt?, toList_toString, (isPlain_signedText _ hp).trim]
  simp only [takeSign_signedText _ (head_toDigits _), hp.joinDigits, hp.withoutUnderscores,
    takeDigits_toDigits]
  generalize digitsOf (Nat.toDigits 10 n.natAbs) = ds at hne hof hlen ⊢
  cases ds with
  | nil => exact absurd rfl hne
  | cons d ds =>
    simp only [hlen, hof, decide_eq_true_eq, hs, Bool.not_true, Bool.false_eq_true, if_false]

theorem readInt?_toString_of_short {n : Int} (h : isTooLong n.natAbs = false) :
    readInt? (toString n) = some n := by
  rw [readInt?_toString, h]
  rfl

theorem takeWhile_eq_self {p : Char → Bool} {cs : List Char} (h : ∀ c ∈ cs, p c = true) :
    cs.takeWhile p = cs ∧ cs.dropWhile p = [] := by
  have ht := @takeWhile_append_stop _ p cs [] h (by simp)
  rwa [List.append_nil] at ht

theorem skipZeros_toDigits (n : Nat) :
    skipZeros (Nat.toDigits 10 n) = some (Nat.toDigits 10 n) := by
  rcases Nat.eq_zero_or_pos n with rfl | hn
  · rfl
  · obtain ⟨c, cs, hc, hd⟩ := toDigits_head hn
    rw [hc, skipZeros, if_pos hd]

theorem withoutZeroFraction_of_ne {cs : List Char} (h : ∀ c ∈ cs, c ≠ '.') :
    withoutZeroFraction cs = cs := by
  have hdrop : cs.dropWhile (· != '.') = [] :=
    (takeWhile_eq_self fun c hc => bne_iff_ne.mpr (h c hc)).2
  rw [withoutZeroFraction, hdrop]

theorem withoutZeroFraction_toDigits (n : Nat) :
    withoutZeroFraction (Nat.toDigits 10 n) = Nat.toDigits 10 n := by
  apply withoutZeroFraction_of_ne
  rintro c hc rfl
  exact absurd (isDigit_toDigits n '.' hc) (by decide)

theorem readMinus_of_head {cs : List Char} (negative : Bool) (h : ∀ c ∈ cs.head?, c ≠ '-') :
    readMinus negative cs = readDigits negative cs := by
  cases cs with
  | nil => rfl
  | cons c cs =>
    rw [readMinus]
    intro _ he
    exact h c rfl (List.cons.inj he).1

theorem readMinus_toDigits (negative : Bool) (n : Nat) :
    readMinus negative (Nat.toDigits 10 n) = readDigits negative (Nat.toDigits 10 n) :=
  readMinus_of_head negative fun c hc => (head_toDigits n c hc).1

theorem readFieldInt_eq (n : Int) :
    readFieldInt (toString n) = readDigits (decide (n < 0)) (Nat.toDigits 10 n.natAbs) := by
  have hp := isPlain_of_isDigit (isDigit_toDigits n.natAbs)
  rw [readFieldInt, toList_toString, (isPlain_signedText _ hp).trim]
  simp only [takeSign_signedText _ (head_toDigits _), skipZeros_toDigits,
    withoutZeroFraction_toDigits, hp.withoutUnderscores, ite_self, readMinus_toDigits]

theorem readDigits_toDigits (negative : Bool) {n : Nat} (hn : 0 < n) :
    readDigits negative (Nat.toDigits 10 n) =
      if isTooLong n then .tooLong else .value (if negative then -(n : Int) else n) := by
  obtain ⟨c, cs, hc, hd⟩ := toDigits_head hn
  have hne : Nat.toDigits 10 n ≠ ['0'] := by
    intro he
    rw [he] at hc
    rw [← (List.cons.inj hc).1] at hd
    exact absurd hd (by decide)
  have hhead : (Nat.toDigits 10 n).head?.any isLeadingDigit = true := by
    rw [hc]
    exact hd
  have hrun : (Nat.toDigits 10 n).takeWhile isAsciiDigit = Nat.toDigits 10 n :=
    (takeWhile_eq_self (isDigit_toDigits n)).1
  rw [readDigits, if_neg hne, hhead, hrun]
  simp [takeDigits_toDigits, ofDigits_toDigits, lt_length_toDigits_iff]

theorem readFieldInt_toString (n : Int) : readFieldInt (toString n) =
    if isTooLong n.natAbs then .tooLong else .value n := by
  rw [readFieldInt_eq]
  rcases Nat.eq_zero_or_pos n.natAbs with hz | hn
  · rw [hz, isTooLong_zero, Int.natAbs_eq_zero.mp hz]
    rfl
  · rw [readDigits_toDigits _ hn]
    simp only [decide_eq_true_eq, signed_natAbs]

theorem isPlainInt_toString (n : Int) : isPlainInt (toString n) = true := by
  have hdrop : (signedText (decide (n < 0)) (Nat.toDigits 10 n.natAbs)).dropWhile
      (fun c => c == '+' || c == '-') = Nat.toDigits 10 n.natAbs := by
    have hh := head_toDigits n.natAbs
    have hbody : (Nat.toDigits 10 n.natAbs).dropWhile (fun c => c == '+' || c == '-') =
        Nat.toDigits 10 n.natAbs := by
      cases hc : Nat.toDigits 10 n.natAbs with
      | nil => rfl
      | cons c cs =>
        obtain ⟨hm, hp⟩ := hh c (by rw [hc]; rfl)
        simp [hm, hp]
    cases decide (n < 0) with
    | false => exact hbody
    | true => simpa [signedText] using hbody
  rw [isPlainInt, toList_toString, hdrop]
  simp only [Bool.and_eq_true, Bool.not_eq_true', List.isEmpty_eq_false_iff, List.all_eq_true]
  refine ⟨Nat.toDigits_ne_nil, fun c hc => ?_⟩
  rw [isDigit, digitValue?_of_isDigit (isDigit_toDigits _ c hc)]
  rfl

end NetDesc.Decimal
