import NetDesc.Proofs.Decimal.Sign

namespace NetDesc.Decimal

namespace Double

-- The powers are far too large to be computed.
attribute [local irreducible] twoTo

/-- The 53 bits that are left of a whole number. -/
def mantissa (n : Nat) : Nat :=
  roundHalfEven (n * twoTo 1074) (twoTo (n.log2 + 1022))

section Mantissa

variable {n : Nat}

theorem le_mantissa (hn : 0 < n) : twoTo 52 ≤ mantissa n := by
  have hexp : 52 + (n.log2 + 1022) = n.log2 + 1074 := by omega
  refine Nat.le_trans ?_ (le_roundHalfEven _ _)
  rw [Nat.le_div_iff_mul_le (twoTo_pos _)]
  calc twoTo 52 * twoTo (n.log2 + 1022) = twoTo n.log2 * twoTo 1074 := by
        rw [← twoTo_add, ← twoTo_add, hexp]
    _ ≤ n * twoTo 1074 := Nat.mul_le_mul_right _ (twoTo_log2_le hn)

theorem mantissa_le (n : Nat) : mantissa n ≤ twoTo 52 + twoTo 52 := by
  have hexp : n.log2 + 1 + 1074 = 52 + 1 + (n.log2 + 1022) := by omega
  refine Nat.le_trans (roundHalfEven_le _ _) (Nat.succ_le_of_lt ?_)
  rw [Nat.div_lt_iff_lt_mul (twoTo_pos _)]
  calc n * twoTo 1074 < twoTo (n.log2 + 1) * twoTo 1074 :=
        Nat.mul_lt_mul_of_pos_right (lt_twoTo_log2 n) (twoTo_pos _)
    _ = (twoTo 52 + twoTo 52) * twoTo (n.log2 + 1022) := by
        rw [← twoTo_succ, ← twoTo_add, ← twoTo_add, hexp]

theorem nearestCode_whole (hn : 0 < n) :
    nearestCode n 1 = min infinityCode ((n.log2 + 1022) * twoTo 52 + mantissa n) := by
  have hshift : (n * twoTo 1074 / 1).log2 - 52 = n.log2 + 1022 := by
    rw [Nat.div_one, log2_mul_twoTo hn]
    omega
  simp only [nearestCode, hshift, Nat.one_mul, mantissa]

theorem units_ofCode {b : Bool} {shift q : Nat} (hlow : twoTo 52 ≤ q)
    (hhigh : q ≤ twoTo 52 + twoTo 52) (hc : shift * twoTo 52 + q < twoTo 63) :
    (ofCode b (shift * twoTo 52 + q)).units = q * twoTo shift := by
  have hpos := twoTo_pos 52
  have hstep {shift f : Nat} (hf : f < twoTo 52) (hc : f + twoTo 52 * (shift + 1) < twoTo 63) :
      (ofCode b (f + twoTo 52 * (shift + 1))).units = (f + twoTo 52) * twoTo shift := by
    rw [units, code_ofCode b hc, Nat.add_mul_div_left _ _ hpos, Nat.add_mul_mod_self_left,
      Nat.div_eq_of_lt hf, Nat.mod_eq_of_lt hf, Nat.zero_add, if_neg (Nat.succ_ne_zero shift),
      Nat.add_sub_cancel]
  obtain ⟨f, rfl⟩ := Nat.exists_eq_add_of_le hlow
  rcases Nat.lt_or_eq_of_le (Nat.le_of_add_le_add_left hhigh) with hf | rfl
  · have hcode : shift * twoTo 52 + (twoTo 52 + f) = f + twoTo 52 * (shift + 1) := by
      rw [Nat.mul_add, Nat.mul_one, Nat.mul_comm]
      omega
    rw [hcode] at hc ⊢
    rw [hstep hf hc, Nat.add_comm f]
  · have hcode : shift * twoTo 52 + (twoTo 52 + twoTo 52) = 0 + twoTo 52 * (shift + 1 + 1) := by
      rw [Nat.mul_add, Nat.mul_add, Nat.mul_one, Nat.mul_comm]
      omega
    have hdouble : (twoTo 52 + twoTo 52) * twoTo shift = twoTo 52 * twoTo (shift + 1) := by
      rw [twoTo_succ shift, Nat.add_mul, Nat.mul_add]
    rw [hcode] at hc ⊢
    rw [hstep hpos hc, Nat.zero_add, hdouble]

theorem units_nearest {b : Bool} (hn : 0 < n)
    (hf : (ofCode b (nearestCode n 1)).isFinite = true) :
    (ofCode b (nearestCode n 1)).units = mantissa n * twoTo (n.log2 + 1022) := by
  have hlt := Nat.lt_of_le_of_lt (nearestCode_le n 1) infinityCode_lt
  rw [isFinite, code_ofCode b hlt, decide_eq_true_eq] at hf
  rw [nearestCode_whole hn] at hf hlt ⊢
  have hle : (n.log2 + 1022) * twoTo 52 + mantissa n ≤ infinityCode := by omega
  rw [Nat.min_eq_right hle] at hlt ⊢
  exact units_ofCode (le_mantissa hn) (mantissa_le n) hlt

theorem mantissa_eq_iff (n : Nat) :
    mantissa n * twoTo (n.log2 + 1022) = n * twoTo 1074 ↔ twoTo (n.log2 - 52) ∣ n := by
  rw [mantissa, roundHalfEven_mul_eq_iff (twoTo_pos _)]
  rcases Nat.le_total 52 n.log2 with hl | hl
  · have hsplit : twoTo (n.log2 + 1022) = twoTo (n.log2 - 52) * twoTo 1074 := by
      rw [← twoTo_add]
      exact congrArg twoTo (by omega)
    rw [hsplit]
    exact Nat.mul_dvd_mul_iff_right (twoTo_pos 1074)
  · have hsplit : twoTo 1074 = twoTo (52 - n.log2) * twoTo (n.log2 + 1022) := by
      rw [← twoTo_add]
      exact congrArg twoTo (by omega)
    rw [Nat.sub_eq_zero_of_le hl, twoTo_zero, hsplit, ← Nat.mul_assoc]
    exact iff_of_true (Nat.dvd_mul_left _ _) (Nat.one_dvd n)

theorem dvd_mantissa (n : Nat) : twoTo 1074 ∣ mantissa n * twoTo (n.log2 + 1022) := by
  by_cases hl : n.log2 ≤ 52
  · have hkept : twoTo (n.log2 - 52) ∣ n := by
      rw [Nat.sub_eq_zero_of_le hl, twoTo_zero]
      exact Nat.one_dvd n
    rw [(mantissa_eq_iff n).mpr hkept]
    exact Nat.dvd_mul_left _ _
  · have hsplit : twoTo (n.log2 + 1022) = twoTo (n.log2 - 52) * twoTo 1074 := by
      rw [← twoTo_add]
      exact congrArg twoTo (by omega)
    rw [hsplit, ← Nat.mul_assoc]
    exact Nat.dvd_mul_left _ _

end Mantissa

theorem isWhole_nearest (b : Bool) (n : Nat) :
    (ofCode b (nearestCode n 1)).isWhole = (ofCode b (nearestCode n 1)).isFinite := by
  rcases Nat.eq_zero_or_pos n with rfl | hn
  · cases b <;> decide +kernel
  rw [isWhole]
  cases hf : (ofCode b (nearestCode n 1)).isFinite with
  | false => rfl
  | true =>
    rw [units_nearest hn hf, Nat.mod_eq_zero_of_dvd (dvd_mantissa n)]
    rfl

theorem whole_nearest_eq_iff {b : Bool} {n : Nat}
    (hf : (ofCode b (nearestCode n 1)).isFinite = true) :
    (ofCode b (nearestCode n 1)).whole = (if b then -(n : Int) else n) ↔
      twoTo (n.log2 - 52) ∣ n := by
  rcases Nat.eq_zero_or_pos n with rfl | hn
  · refine iff_of_true ?_ (Nat.dvd_zero _)
    cases b <;> decide +kernel
  have hlt := Nat.lt_of_le_of_lt (nearestCode_le n 1) infinityCode_lt
  have hquot : mantissa n * twoTo (n.log2 + 1022) / twoTo 1074 = n ↔ twoTo (n.log2 - 52) ∣ n := by
    rw [← mantissa_eq_iff, Nat.div_eq_iff_eq_mul_left (twoTo_pos 1074) (dvd_mantissa n)]
  rw [whole, negative_ofCode b hlt, units_nearest hn hf, ← hquot]
  cases b <;> simp only [Bool.false_eq_true, if_false, if_true] <;> omega

end Double
end NetDesc.Decimal
