import NetDesc.Proofs.Decimal.WholeNumber

namespace NetDesc.Decimal

open Text

structure SignedSpelling where
  sign : Option Bool
  whole : List Char
  fraction : Option (List Char)
  exponent : Option (Option Bool × List Char)

namespace SignedSpelling

def exponentText (l : SignedSpelling) : List Char :=
  match l.exponent with
  | none => []
  | some (sign, ds) => 'e' :: (signText sign ++ ds)

def tail (l : SignedSpelling) : List Char :=
  Spelling.fractionText l.fraction ++ l.exponentText

def unsigned (l : SignedSpelling) : List Char :=
  l.whole ++ l.tail

def text (l : SignedSpelling) : String :=
  String.ofList (signText l.sign ++ l.unsigned)

def negative (l : SignedSpelling) : Bool :=
  l.sign.getD false

def spelling (l : SignedSpelling) : Spelling :=
  ⟨l.whole, l.fraction, l.exponent.map fun e => (e.1.getD false, e.2)⟩

def Regular (l : SignedSpelling) : Prop :=
  l.spelling.Regular

instance (l : SignedSpelling) : Decidable l.Regular :=
  inferInstanceAs (Decidable l.spelling.Regular)

def magnitude (l : SignedSpelling) : Scientific :=
  ⟨l.spelling.digits, l.spelling.power - (l.fraction.getD []).length⟩

def Denotes (l : SignedSpelling) (n : Int) : Prop :=
  ∃ k : Nat, l.magnitude.Equals ⟨k, 0⟩ ∧ n = if l.negative then -(k : Int) else k

def isPlain (l : SignedSpelling) : Bool :=
  l.fraction.isNone && l.exponent.isNone

variable {l : SignedSpelling} {n : Int}

section Text

theorem head_exponentText (l : SignedSpelling) : ∀ c ∈ l.exponentText.head?, c = 'e' := by
  unfold exponentText
  split
  · exact nofun
  · rintro c ⟨⟩
    rfl

theorem head_tail (l : SignedSpelling) : ∀ c ∈ l.tail.head?, c = '.' ∨ c = 'e' := by
  rw [tail]
  cases l.fraction with
  | none => exact fun c hc => .inr (l.head_exponentText c hc)
  | some ds =>
    rintro c ⟨⟩
    exact .inl rfl

theorem mem_exponent {e : Option Bool × List Char} (he : l.exponent = some e) :
    (e.1.getD false, e.2) ∈ l.spelling.exponent :=
  Option.map_eq_some_iff.mpr ⟨e, he, rfl⟩

theorem Regular.isDigit_exponent (hl : l.Regular) {e : Option Bool × List Char}
    (he : l.exponent = some e) : ∀ c ∈ e.2, c.isDigit = true :=
  hl.exponent _ (mem_exponent he)

theorem Regular.exponent_ne_nil (hl : l.Regular) {e : Option Bool × List Char}
    (he : l.exponent = some e) : e.2 ≠ [] :=
  hl.ends _ (mem_exponent he)

theorem exists_isDigit (hl : l.Regular) : ∃ c cs, c.isDigit = true ∧ l.unsigned = c :: cs := by
  obtain ⟨c, cs, hc⟩ : ∃ c cs, l.whole = c :: cs := List.exists_cons_of_ne_nil hl.starts
  have hmem : c ∈ l.whole := by
    rw [hc]
    exact List.mem_cons_self ..
  refine ⟨c, cs ++ l.tail, hl.whole c hmem, ?_⟩
  rw [unsigned, hc]
  rfl

theorem isPlain_unsigned (hl : l.Regular) : IsPlain l.unsigned := by
  refine (isPlain_of_isDigit hl.whole).append ((Spelling.isPlain_fractionText hl.fraction).append ?_)
  unfold exponentText
  split
  · exact isPlain_nil
  · next sign ds he =>
    have hdigits := isPlain_of_isDigit (hl.isDigit_exponent he)
    exact ((isPlain_signText sign).append hdigits).cons (by decide)

theorem head_unsigned (hl : l.Regular) : ∀ c ∈ l.unsigned.head?, c ≠ '-' ∧ c ≠ '+' := by
  obtain ⟨c, cs, hc, hu⟩ := exists_isDigit hl
  rw [hu]
  rintro _ ⟨⟩
  exact ne_sign_of_isDigit hc

theorem takeSign_text (hl : l.Regular) :
    takeSign (trim isSpace l.text.toList) = (l.negative, l.unsigned) := by
  have hp : IsPlain (signText l.sign ++ l.unsigned) :=
    (isPlain_signText l.sign).append (isPlain_unsigned hl)
  rw [text, String.toList_ofList, hp.trim, takeSign_append l.sign (head_unsigned hl), negative]

end Text

section Double

theorem readExponent?_exponentText (hl : l.Regular) :
    readExponent? l.exponentText = some l.spelling.power := by
  rw [exponentText, Spelling.power, spelling]
  cases he : l.exponent with
  | none => rfl
  | some e => exact readExponent?_digits e.1 (hl.isDigit_exponent he) (hl.exponent_ne_nil he)

theorem readDouble?_text (hl : l.Regular) :
    readDouble? l.text = some (l.spelling.value l.negative) := by
  have hp := isPlain_unsigned hl
  obtain ⟨c, cs, hc, hu⟩ := exists_isDigit hl
  rw [readDouble?, takeSign_text hl]
  dsimp only
  rw [if_pos hp.joinDigits, hp.withoutUnderscores, hu,
    readUnsigned?_of_digit l.negative (digitValue?_of_isDigit hc), ← hu]
  exact Spelling.readDecimal?_parts l.negative hl l.head_exponentText (readExponent?_exponentText hl)

theorem value_of_equals {k : Nat} (h : l.magnitude.Equals ⟨k, 0⟩) :
    l.spelling.value l.negative = .ofDecimal l.negative k 0 := by
  calc l.spelling.value l.negative
      = .ofDecimal l.negative l.magnitude.digits l.magnitude.exponent := rfl
    _ = .ofDecimal l.negative k 0 := by
        rw [Double.ofDecimal_eq, Scientific.nearestCode_of_equals h]
        exact (Double.ofDecimal_eq l.negative ⟨k, 0⟩).symm

end Double

section Plain

theorem isPlainInt_text (hl : l.Regular) : isPlainInt l.text = l.isPlain := by
  have hdrop : (signText l.sign ++ l.unsigned).dropWhile (fun c => c == '+' || c == '-') =
      l.unsigned := by
    refine (takeWhile_append_stop ?_ ?_).2
    · cases hs : l.sign with
      | none => exact nofun
      | some negative =>
        intro c hc
        obtain rfl := List.mem_singleton.mp hc
        cases negative <;> rfl
    · intro c hc
      obtain ⟨hm, hp⟩ := head_unsigned hl c hc
      simp [hm, hp]
  have hempty : l.unsigned.isEmpty = false := by
    obtain ⟨c, cs, -, hu⟩ := exists_isDigit hl
    rw [hu]
    rfl
  have hwhole : l.whole.all isDigit = true :=
    List.all_eq_true.mpr fun c hc => isDigit_of_ascii (hl.whole c hc)
  rw [isPlainInt, text, String.toList_ofList, hdrop, hempty, Bool.not_false, Bool.true_and, unsigned,
    List.all_append, hwhole, Bool.true_and, isPlain, tail, exponentText]
  cases l.fraction with
  | none =>
    cases l.exponent with
    | none => rfl
    | some e => rfl
  | some ds => rfl

end Plain

end SignedSpelling

section Field

theorem suffix_of_afterZeros {last : Char} {cs rest : List Char}
    (h : afterZeros last cs = some rest) : rest <:+ last :: cs := by
  induction cs generalizing last with
  | nil =>
    cases h
    exact List.suffix_refl _
  | cons c cs ih =>
    rw [afterZeros] at h
    split at h
    · exact (ih h).trans (List.suffix_cons last (c :: cs))
    split at h
    · cases h
      exact List.suffix_cons last (c :: cs)
    split at h
    · cases h
      exact List.suffix_refl _
    · cases h

theorem suffix_of_skipZeros {cs rest : List Char} (h : skipZeros cs = some rest) : rest <:+ cs := by
  cases cs with
  | nil => cases h
  | cons c cs =>
    rw [skipZeros] at h
    split at h
    · cases h
      exact List.suffix_refl _
    split at h
    · exact suffix_of_afterZeros h
    · cases h

theorem eq_zeros_append {cs rest : List Char} (hp : IsPlain cs) (h : skipZeros cs = some rest) :
    ∃ k, cs = List.replicate k '0' ++ rest := by
  obtain ⟨k, hk⟩ := zeros_of_skipZeros h
  have hrest : IsPlain rest := fun c hc => hp c ((suffix_of_skipZeros h).mem hc)
  rw [hp.withoutUnderscores, hrest.withoutUnderscores] at hk
  exact ⟨k, hk⟩

theorem eq_append_of_zeros {k : Nat} {ds tail rest : List Char} (ht : ∀ c ∈ tail.head?, c ≠ '0')
    (h : ds ++ tail = List.replicate k '0' ++ rest) :
    ∃ left, ds = List.replicate k '0' ++ left ∧ rest = left ++ tail := by
  induction k generalizing ds with
  | zero => exact ⟨ds, rfl, h.symm⟩
  | succ k ih =>
    cases ds with
    | nil =>
      rw [List.nil_append] at h
      subst h
      exact absurd rfl (ht '0' rfl)
    | cons d ds =>
      rw [List.replicate_succ, List.cons_append, List.cons_append] at h
      obtain ⟨rfl, htail⟩ := List.cons.inj h
      obtain ⟨left, rfl, hrest⟩ := ih htail
      exact ⟨left, rfl, hrest⟩

theorem withoutZeroFraction_point {ds : List Char} (h : ∀ c ∈ ds, c ≠ '.') (tail : List Char) :
    withoutZeroFraction (ds ++ '.' :: tail) =
      if !tail.isEmpty && tail.all (· == '0') then ds else ds ++ '.' :: tail := by
  have hstop : ∀ c ∈ ('.' :: tail).head?, (c != '.') = false := by
    rintro c ⟨⟩
    rfl
  obtain ⟨htake, hdrop⟩ := takeWhile_append_stop (fun c hc => bne_iff_ne.mpr (h c hc)) hstop
  rw [withoutZeroFraction, hdrop, htake]
  cases tail <;> rfl

theorem value_of_readMinus {negative : Bool} {ds tail : List Char} {n : Int}
    (hd : ∀ c ∈ ds, c.isDigit = true) (ht : ∀ c ∈ tail.head?, c = '.' ∨ c = 'e')
    (hp : IsPlain (ds ++ tail))
    (h : readMinus negative (if underscoresInside (ds ++ tail) then withoutUnderscores (ds ++ tail)
      else ds ++ tail) = .value n) :
    tail = [] ∧ n = if negative then -(Nat.ofDigitChars 10 ds 0 : Int) else Nat.ofDigitChars 10 ds 0 := by
  have hhead : ∀ c ∈ (ds ++ tail).head?, c ≠ '-' := by
    rintro c hc rfl
    cases ds with
    | nil => rcases ht _ hc with hc | hc <;> cases hc
    | cons d ds =>
      cases hc
      cases hd '-' (List.mem_cons_self ..)
  rw [hp.withoutUnderscores, ite_self, readMinus_of_head negative hhead] at h
  obtain ⟨hascii, hvalue⟩ := value_of_readDigits h
  have hnil : tail = [] := by
    cases tail with
    | nil => rfl
    | cons c tail =>
      have hc := hascii c (by simp)
      rcases ht c rfl with rfl | rfl <;> cases hc
  subst hnil
  rw [List.append_nil, takeDigits_of_isDigit hd, ofDigits_digitsOf] at hvalue
  exact ⟨rfl, hvalue⟩

namespace SignedSpelling

variable {l : SignedSpelling} {n m : Int}

theorem ne_point_exponentText (hl : l.Regular) : ∀ c ∈ l.exponentText, c ≠ '.' := by
  rintro c hc rfl
  unfold exponentText at hc
  split at hc
  · cases hc
  · next sign ds he =>
    rcases List.mem_cons.mp hc with hc | hc
    · cases hc
    rcases List.mem_append.mp hc with hc | hc
    · rcases sign with _ | _ | _ <;> simp [signText] at hc
    · cases hl.isDigit_exponent he '.' hc

theorem withoutZeroFraction_tail (hl : l.Regular) {ds : List Char} (hd : ∀ c ∈ ds, c ≠ '.') :
    withoutZeroFraction (ds ++ l.tail) = ds ++ l.tail ∨
      withoutZeroFraction (ds ++ l.tail) = ds ∧
        l.exponentText = [] ∧ ∀ fs ∈ l.fraction, ∀ c ∈ fs, c = '0' := by
  rw [tail]
  cases l.fraction with
  | none =>
    left
    apply withoutZeroFraction_of_ne
    intro c hc
    exact (List.mem_append.mp hc).elim (hd c) (ne_point_exponentText hl c)
  | some fs =>
    have hpoint := withoutZeroFraction_point hd (fs ++ l.exponentText)
    by_cases hz : (!(fs ++ l.exponentText).isEmpty && (fs ++ l.exponentText).all (· == '0')) = true
    · rw [if_pos hz] at hpoint
      rw [Bool.and_eq_true, List.all_eq_true] at hz
      have hzero : ∀ c ∈ fs ++ l.exponentText, c = '0' := fun c hc => beq_iff_eq.mp (hz.2 c hc)
      refine .inr ⟨hpoint, ?_, ?_⟩
      · have hhead := l.head_exponentText
        cases hexp : l.exponentText with
        | nil => rfl
        | cons c cs =>
          have he := hhead c (by rw [hexp]; rfl)
          have hc := hzero c (by simp [hexp])
          cases hc.symm.trans he
      · rintro _ ⟨⟩ c hc
        exact hzero c (List.mem_append_left _ hc)
    · rw [if_neg hz] at hpoint
      exact .inl hpoint

theorem of_readFieldInt (hl : l.Regular) (h : readFieldInt l.text = .value n) :
    l.exponentText = [] ∧ (∀ fs ∈ l.fraction, ∀ c ∈ fs, c = '0') ∧
      n = if l.negative then -(Nat.ofDigitChars 10 l.whole 0 : Int)
        else Nat.ofDigitChars 10 l.whole 0 := by
  have htail : ∀ c ∈ l.tail.head?, c ≠ '0' := by
    intro c hc
    rcases l.head_tail c hc with rfl | rfl <;> decide
  unfold readFieldInt at h
  rw [takeSign_text hl] at h
  dsimp only at h
  split at h
  · cases h
  next rest hrest =>
  obtain ⟨k, hk⟩ := eq_zeros_append (isPlain_unsigned hl) hrest
  obtain ⟨ds, hds, rfl⟩ := eq_append_of_zeros htail hk
  have hdigits : ∀ c ∈ ds, c.isDigit = true := by
    intro c hc
    refine hl.whole c ?_
    change c ∈ l.whole
    rw [hds]
    exact List.mem_append_right _ hc
  have hpoint : ∀ c ∈ ds, c ≠ '.' := by
    rintro c hc rfl
    cases hdigits '.' hc
  have hvalue : Nat.ofDigitChars 10 l.whole 0 = Nat.ofDigitChars 10 ds 0 := by
    rw [hds]
    exact ofDigitChars_zeros_append k ds
  rw [hvalue]
  rcases withoutZeroFraction_tail hl hpoint with hcut | ⟨hcut, hexp, hzeros⟩
  · rw [hcut] at h
    have hp : IsPlain (ds ++ l.tail) := fun c hc =>
      isPlain_unsigned hl c (by rw [hk]; exact List.mem_append_right _ hc)
    obtain ⟨hnil, hn⟩ := value_of_readMinus hdigits l.head_tail hp h
    obtain ⟨hfraction, hexp⟩ := List.append_eq_nil_iff.mp hnil
    refine ⟨hexp, ?_, hn⟩
    intro fs hfs
    rw [Option.mem_def.mp hfs] at hfraction
    cases hfraction
  · rw [hcut, ← List.append_nil ds] at h
    have hp : IsPlain (ds ++ []) := (isPlain_of_isDigit hdigits).append isPlain_nil
    exact ⟨hexp, hzeros, (value_of_readMinus hdigits (by simp) hp h).2⟩

theorem eq_of_equals {s : Scientific} {j k : Nat} (hj : s.Equals ⟨j, 0⟩) (hk : s.Equals ⟨k, 0⟩) :
    j = k := by
  have hnum (n : Nat) (h : s.Equals ⟨n, 0⟩) : s.num = n * s.den := by
    simpa [Scientific.Equals, Scientific.num, Scientific.den, tenTo_zero] using h
  exact Nat.eq_of_mul_eq_mul_right s.den_pos ((hnum j hj).symm.trans (hnum k hk))

theorem equals_whole (hexp : l.exponentText = [])
    (hzeros : ∀ fs ∈ l.fraction, ∀ c ∈ fs, c = '0') :
    l.magnitude.Equals ⟨Nat.ofDigitChars 10 l.whole 0, 0⟩ := by
  have hnone : l.exponent = none := by
    unfold exponentText at hexp
    split at hexp
    · next he => exact he
    · cases hexp
  have hfraction : l.fraction.getD [] = zeros (l.fraction.getD []).length := by
    rw [zeros, List.eq_replicate_iff]
    refine ⟨rfl, fun c hc => ?_⟩
    cases hf : l.fraction with
    | none =>
      rw [hf] at hc
      cases hc
    | some fs =>
      rw [hf] at hc
      exact hzeros fs hf c hc
  have hdigits : l.spelling.digits =
      Nat.ofDigitChars 10 l.whole 0 * tenTo (l.fraction.getD []).length := by
    rw [← ofDigitChars_append_zeros, ← hfraction]
    rfl
  have hpower : l.spelling.power = 0 := by
    rw [Spelling.power, spelling, hnone]
    rfl
  have hshift := Scientific.equals_shift (Nat.ofDigitChars 10 l.whole 0) (l.fraction.getD []).length
    (0 - (l.fraction.getD []).length)
  rw [Int.sub_add_cancel] at hshift
  rw [magnitude, hdigits, hpower]
  exact hshift

theorem eq_of_readFieldInt (hl : l.Regular) (hd : l.Denotes m) (h : readFieldInt l.text = .value n) :
    n = m := by
  obtain ⟨hexp, hzeros, rfl⟩ := of_readFieldInt hl h
  obtain ⟨k, hk, rfl⟩ := hd
  rw [eq_of_equals (equals_whole hexp hzeros) hk]

theorem eq_of_intOfText (hl : l.Regular) (hd : l.Denotes m) (h : Record.intOfText l.text = .ok n) :
    n = if l.isPlain then m else Double.rounded m := by
  have hfield (h : Check.intText l.text = .ok n) : n = m := by
    unfold Check.intText at h
    split at h <;> cases h
    next hread => exact eq_of_readFieldInt hl hd hread
  have hrounded : Double.rounded m = if (l.spelling.value l.negative).isWhole
      then (l.spelling.value l.negative).whole else m := by
    obtain ⟨k, hk, hsign⟩ := hd
    rw [value_of_equals hk]
    exact Double.rounded_of_signed hsign
  unfold Record.intOfText at h
  rw [readDouble?_text hl] at h
  dsimp only at h
  rw [isPlainInt_text hl] at h
  split at h
  · next hw =>
    rw [Bool.and_eq_true, Bool.not_eq_true'] at hw
    cases h
    rw [hw.2, if_neg Bool.false_ne_true, hrounded, if_pos hw.1]
  · next hw =>
    rw [hfield h]
    cases hplain : l.isPlain with
    | true => rfl
    | false =>
      rw [hplain, Bool.not_false, Bool.and_true] at hw
      rw [if_neg Bool.false_ne_true, hrounded, if_neg hw]

end SignedSpelling

end Field

end NetDesc.Decimal
