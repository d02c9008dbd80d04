import NetDesc.Proofs.Decimal.Length
import NetDesc.Record.Tree

namespace NetDesc.Decimal

open Text

section Doubles

-- The powers are far too large to be computed.
attribute [local irreducible] twoTo

theorem nearestCode_le (num den : Nat) : nearestCode num den ≤ infinityCode :=
  Nat.min_le_left _ _

theorem nearestCode_ne_zero {n : Nat} (hn : 0 < n) : nearestCode n 1 ≠ 0 := by
  have hle : twoTo 1074 ≤ n * twoTo 1074 / 1 := by
    rw [Nat.div_one]
    exact Nat.le_mul_of_pos_left _ hn
  have hlog : 1074 ≤ (n * twoTo 1074 / 1).log2 := le_log2 hle
  have hinf : 0 < infinityCode := Nat.mul_pos (by decide) (twoTo_pos 52)
  have hshift : 0 < ((n * twoTo 1074 / 1).log2 - 52) * twoTo 52 :=
    Nat.mul_pos (by omega) (twoTo_pos 52)
  have hmin : 0 < nearestCode n 1 :=
    Nat.lt_min.mpr ⟨hinf, Nat.lt_of_lt_of_le hshift (Nat.le_add_right _ _)⟩
  exact Nat.ne_of_gt hmin

namespace Double

theorem infinityCode_lt : infinityCode < twoTo 63 := by
  decide +kernel

theorem bits_ofCode {c : Nat} (b : Bool) (hc : c < twoTo 63) :
    (ofCode b c).bits.toNat = c + if b then twoTo 63 else 0 := by
  have hsize : UInt64.size = twoTo 63 + twoTo 63 := by decide +kernel
  rw [ofCode]
  refine UInt64.toNat_ofNat_of_lt' ?_
  split <;> omega

theorem negative_ofCode {c : Nat} (b : Bool) (hc : c < twoTo 63) : (ofCode b c).negative = b := by
  rw [negative, bits_ofCode b hc]
  cases b with
  | false => exact decide_eq_false (Nat.not_le.mpr hc)
  | true => exact decide_eq_true (Nat.le_add_left _ _)

theorem code_ofCode {c : Nat} (b : Bool) (hc : c < twoTo 63) : (ofCode b c).code = c := by
  rw [code, bits_ofCode b hc]
  cases b with
  | false => exact Nat.mod_eq_of_lt hc
  | true => rw [if_pos rfl, Nat.add_mod_right, Nat.mod_eq_of_lt hc]

theorem ofDecimal_zero (b : Bool) (n : Nat) : ofDecimal b n 0 = ofCode b (nearestCode n 1) := by
  have h := ofDecimal_eq b ⟨n, 0⟩
  rwa [Scientific.num, Scientific.den, Int.neg_zero, Int.toNat_zero, tenTo_zero, Nat.mul_one] at h

theorem whole_ofDecimal {n : Nat} (hn : 0 < n) (hw : (ofDecimal true n 0).isWhole = true) :
    (ofDecimal true n 0).whole < 0 := by
  rw [ofDecimal_zero] at hw ⊢
  have hlt := Nat.lt_of_le_of_lt (nearestCode_le n 1) infinityCode_lt
  have hneg := negative_ofCode true hlt
  have hcode := code_ofCode true hlt
  generalize ofCode true (nearestCode n 1) = x at hw hneg hcode ⊢
  rw [isWhole, Bool.and_eq_true, beq_iff_eq] at hw
  have hquot : x.units / twoTo 1074 ≠ 0 := by
    intro hq
    have hu : x.units = 0 := by
      rw [← Nat.div_add_mod x.units (twoTo 1074), hq, hw.2, Nat.mul_zero]
    exact nearestCode_ne_zero hn (hcode.symm.trans (code_of_units hw.1 hu))
  rw [whole, if_pos hneg]
  generalize x.units / twoTo 1074 = q at hquot ⊢
  omega

end Double

end Doubles

section Free

theorem readUnsigned?_digits {cs : List Char} {d : Nat} {ds : List Nat} (negative : Bool)
    (h : takeDigits cs = (d :: ds, [])) :
    readUnsigned? negative cs = some (.ofDecimal negative (ofDigits (d :: ds)) 0) := by
  cases cs with
  | nil => cases h
  | cons c cs =>
    have hc : ∃ e, digitValue? c = some e := by
      rw [takeDigits] at h
      split at h
      · next e he => exact ⟨e, he⟩
      · cases h
    obtain ⟨e, he⟩ := hc
    rw [readUnsigned?_of_digit negative he, readDecimal?, h]
    simp [readExponent?]

end Free

section Field

theorem zeros_of_afterZeros {last : Char} {cs rest : List Char} (hl : last = '0' ∨ last = '_')
    (h : afterZeros last cs = some rest) :
    ∃ k, withoutUnderscores (last :: cs) = List.replicate k '0' ++ withoutUnderscores rest := by
  induction cs generalizing last with
  | nil =>
    cases h
    exact ⟨0, rfl⟩
  | cons c cs ih =>
    have hcons : ∃ j, withoutUnderscores (last :: c :: cs) =
        List.replicate j '0' ++ withoutUnderscores (c :: cs) := by
      rcases hl with rfl | rfl
      · exact ⟨1, rfl⟩
      · exact ⟨0, rfl⟩
    rw [afterZeros] at h
    split at h
    · next hc =>
      obtain ⟨j, hj⟩ := hcons
      obtain ⟨k, hk⟩ := ih hc h
      exact ⟨j + k, by rw [hj, hk, ← List.append_assoc, List.replicate_append_replicate]⟩
    split at h
    · cases h
      exact hcons
    split at h
    · cases h
      exact ⟨0, rfl⟩
    · cases h

theorem zeros_of_skipZeros {cs rest : List Char} (h : skipZeros cs = some rest) :
    ∃ k, withoutUnderscores cs = List.replicate k '0' ++ withoutUnderscores rest := by
  cases cs with
  | nil => cases h
  | cons c cs =>
    rw [skipZeros] at h
    split at h
    · cases h
      exact ⟨0, rfl⟩
    split at h
    · next hc =>
      cases hc
      exact zeros_of_afterZeros (.inl rfl) h
    · cases h

theorem value_of_readDigits {negative : Bool} {cs : List Char} {n : Int}
    (h : readDigits negative cs = .value n) : (∀ c ∈ cs, isAsciiDigit c = true) ∧
      n = if negative then -(ofDigits (takeDigits cs).1 : Int) else ofDigits (takeDigits cs).1 := by
  unfold readDigits at h
  split at h
  · next hc =>
    cases h
    subst hc
    refine ⟨List.forall_mem_singleton.mpr rfl, ?_⟩
    cases negative <;> rfl
  split at h
  · cases h
  · dsimp only at h
    split at h
    · cases h
    split at h
    · cases h
    next hlength =>
    cases h
    have hall : cs.takeWhile isAsciiDigit = cs :=
      (List.takeWhile_prefix _).eq_of_length_le (Nat.not_lt.mp hlength)
    have hascii : (cs.takeWhile isAsciiDigit).all isAsciiDigit = true := List.all_takeWhile
    rw [hall] at hascii ⊢
    exact ⟨List.all_eq_true.mp hascii, rfl⟩

theorem ofDigits_takeDigits_zeros (k : Nat) (cs : List Char) :
    ofDigits (takeDigits (List.replicate k '0' ++ cs)).1 = ofDigits (takeDigits cs).1 := by
  induction k with
  | zero => rfl
  | succ k ih => exact ih

theorem isDigit_of_takeDigits {cs : List Char} (h : (takeDigits cs).2 = []) :
    ∀ c ∈ cs, isDigit c = true := by
  induction cs with
  | nil =>
    intro c hc
    cases hc
  | cons c cs ih =>
    rw [takeDigits] at h
    split at h
    · next d hd =>
      intro e he
      rcases List.mem_cons.mp he with rfl | he
      · rw [isDigit, hd]
        rfl
      · exact ih h e he
    · cases h

theorem parts_of_readInt? {s : String} {n : Int} (h : readInt? s = some n) :
    ∃ negative cs d ds, takeSign (trim isSpace s.toList) = (negative, cs) ∧
      underscoresJoinDigits cs = true ∧ takeDigits (withoutUnderscores cs) = (d :: ds, []) ∧
      n = if negative then -(ofDigits (d :: ds) : Int) else ofDigits (d :: ds) := by
  unfold readInt? at h
  generalize hs : takeSign (trim isSpace s.toList) = sign at h
  obtain ⟨negative, cs⟩ := sign
  simp only at h
  split at h
  · cases h
  next hj =>
  split at h
  · cases h
  · next ds hne hd =>
    split at h
    · cases h
    · cases h
      cases ds with
      | nil => exact (hne rfl).elim
      | cons d ds => exact ⟨negative, cs, d, ds, rfl, by simpa using hj, hd, rfl⟩
  · cases h

theorem readFieldInt_of_readInt? {s : String} {m n : Int} (hr : readInt? s = some m)
    (h : readFieldInt s = .value n) : n = m := by
  obtain ⟨negative, cs, d, ds, hs, -, hd, rfl⟩ := parts_of_readInt? hr
  unfold readFieldInt at h
  simp only [hs] at h
  split at h
  · cases h
  next rest hrest =>
  obtain ⟨k, hk⟩ := zeros_of_skipZeros hrest
  -- Among digits and underscores there is neither a point nor a minus.
  have hchar : ∀ c ∈ rest, c = '_' ∨ isDigit c = true := by
    intro c hc
    by_cases hu : c = '_'
    · exact .inl hu
    · refine .inr (isDigit_of_takeDigits (by rw [hd]) c ?_)
      rw [hk, List.mem_append, withoutUnderscores, List.mem_filter]
      exact .inr ⟨hc, bne_iff_ne.mpr hu⟩
  have hpoint : withoutZeroFraction rest = rest := by
    apply withoutZeroFraction_of_ne
    rintro c hc rfl
    exact absurd (hchar _ hc) (by decide)
  rw [hpoint] at h
  have hread : readDigits negative (if underscoresInside rest then withoutUnderscores rest else rest) =
      .value n := by
    unfold readMinus at h
    split at h
    · next tail htail =>
      have hminus : '-' ∈ rest := by
        have hmem : '-' ∈ if underscoresInside rest then withoutUnderscores rest else rest := by
          rw [htail]
          exact List.mem_cons_self ..
        split at hmem
        · exact (List.mem_filter.mp hmem).1
        · exact hmem
      exact absurd (hchar _ hminus) (by decide)
    · exact h
  obtain ⟨hascii, hvalue⟩ := value_of_readDigits hread
  have hrun : (if underscoresInside rest then withoutUnderscores rest else rest) =
      withoutUnderscores rest := by
    split
    · rfl
    · next hu =>
      rw [if_neg hu] at hascii
      refine (List.filter_eq_self.mpr fun c hc => ?_).symm
      rw [bne_iff_ne]
      rintro rfl
      exact absurd (hascii _ hc) (by decide)
  rw [hrun, ← ofDigits_takeDigits_zeros k, ← hk, hd] at hvalue
  exact hvalue

end Field

theorem readDouble?_of_readInt? {s : String} {n : Int} (h : readInt? s = some n) :
    ∃ negative k, readDouble? s = some (.ofDecimal negative k 0) ∧
      n = if negative then -(k : Int) else k := by
  obtain ⟨negative, cs, d, ds, hs, hj, hd, rfl⟩ := parts_of_readInt? h
  refine ⟨negative, ofDigits (d :: ds), ?_, rfl⟩
  rw [readDouble?, hs]
  dsimp only
  rw [if_pos hj, readUnsigned?_digits negative hd]

theorem of_intOfText {text : String} {m n : Int} (hr : readInt? text = some m)
    (h : Record.intOfText text = .ok n) :
    n = m ∨ ∃ negative k, m = (if negative then -(k : Int) else k) ∧ isPlainInt text = false ∧
      (Double.ofDecimal negative k 0).isWhole = true ∧ n = (Double.ofDecimal negative k 0).whole := by
  have hplain (h : Check.intText text = .ok n) : n = m := by
    unfold Check.intText at h
    split at h
    · next k hk =>
      cases h
      exact readFieldInt_of_readInt? hr hk
    · cases h
    · cases h
  unfold Record.intOfText at h
  split at h
  · next x hx =>
    split at h
    · next hw =>
      cases h
      obtain ⟨negative, k, hdouble, hm⟩ := readDouble?_of_readInt? hr
      cases hx.symm.trans hdouble
      rw [Bool.and_eq_true, Bool.not_eq_true'] at hw
      exact .inr ⟨negative, k, hm, hw.2, hw.1, rfl⟩
    · exact .inl (hplain h)
  · exact .inl (hplain h)

theorem neg_of_intOfText {text : String} {m n : Int} (hr : readInt? text = some m) (hm : m < 0)
    (h : Record.intOfText text = .ok n) : n < 0 := by
  rcases of_intOfText hr h with rfl | ⟨negative, k, rfl, -, hw, rfl⟩
  · exact hm
  · cases negative with
    | false => exact absurd hm (by simp)
    | true =>
      have hk : 0 < k := by simpa using hm
      exact Double.whole_ofDecimal hk hw

end NetDesc.Decimal
