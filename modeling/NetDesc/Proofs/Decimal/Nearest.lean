import NetDesc.Decimal.Shortest

namespace NetDesc.Decimal

theorem twoTo_pos (n : Nat) : 0 < twoTo n :=
  Nat.pow_pos (by decide)

theorem tenTo_pos (n : Nat) : 0 < tenTo n :=
  Nat.pow_pos (by decide)

theorem twoTo_zero : twoTo 0 = 1 := rfl

theorem tenTo_zero : tenTo 0 = 1 := rfl

theorem twoTo_add (m n : Nat) : twoTo (m + n) = twoTo m * twoTo n :=
  Nat.pow_add 2 m n

theorem tenTo_add (m n : Nat) : tenTo (m + n) = tenTo m * tenTo n :=
  Nat.pow_add 10 m n

theorem le_log2 {k n : Nat} (h : twoTo k ≤ n) : k ≤ n.log2 :=
  (Nat.le_log2 (Nat.ne_of_gt (Nat.lt_of_lt_of_le (twoTo_pos k) h))).mpr h

theorem log2_lt {k n : Nat} (hn : 0 < n) (h : n < twoTo k) : n.log2 < k :=
  (Nat.log2_lt (Nat.ne_of_gt hn)).mpr h

theorem twoTo_log2_le {n : Nat} (hn : 0 < n) : twoTo n.log2 ≤ n :=
  Nat.log2_self_le (Nat.ne_of_gt hn)

theorem lt_twoTo_log2 (n : Nat) : n < twoTo (n.log2 + 1) :=
  Nat.lt_log2_self

theorem twoTo_succ (n : Nat) : twoTo (n + 1) = twoTo n + twoTo n :=
  (twoTo_add n 1).trans (Nat.mul_two _)

theorem log2_mul_twoTo {n : Nat} (hn : 0 < n) (k : Nat) : (n * twoTo k).log2 = n.log2 + k := by
  have hne : n * twoTo k ≠ 0 := Nat.ne_of_gt (Nat.mul_pos hn (twoTo_pos k))
  rw [Nat.log2_eq_iff hne]
  constructor
  · calc 2 ^ (n.log2 + k) = twoTo n.log2 * twoTo k := twoTo_add _ _
      _ ≤ n * twoTo k := Nat.mul_le_mul_right _ (twoTo_log2_le hn)
  · calc n * twoTo k < twoTo (n.log2 + 1) * twoTo k :=
          Nat.mul_lt_mul_of_pos_right (lt_twoTo_log2 n) (twoTo_pos k)
      _ = 2 ^ (n.log2 + k + 1) := by
          rw [← twoTo_add, Nat.add_right_comm]
          rfl

section Rounding

variable {num den k : Nat}

theorem roundHalfEven_mul (hk : 0 < k) :
    roundHalfEven (num * k) (den * k) = roundHalfEven num den := by
  have hlow : 2 * (num % den * k) < den * k ↔ 2 * (num % den) < den := by
    rw [← Nat.mul_assoc]
    exact Nat.mul_lt_mul_right hk
  have hhigh : den * k < 2 * (num % den * k) ↔ den < 2 * (num % den) := by
    rw [← Nat.mul_assoc]
    exact Nat.mul_lt_mul_right hk
  simp only [roundHalfEven, Nat.mul_div_mul_right num den hk, Nat.mul_mod_mul_right, hlow, hhigh]

theorem roundHalfEven_exact (hd : 0 < den) (q : Nat) : roundHalfEven (q * den) den = q := by
  simp [roundHalfEven, Nat.mul_div_cancel q hd, hd]

theorem roundHalfEven_small (h : 2 * num < den) : roundHalfEven num den = 0 := by
  have hlt : num < den := by omega
  simp [roundHalfEven, Nat.div_eq_of_lt hlt, Nat.mod_eq_of_lt hlt, h]

theorem roundHalfEven_le (num den : Nat) : roundHalfEven num den ≤ num / den + 1 := by
  unfold roundHalfEven
  dsimp only
  split
  · exact Nat.le_succ _
  split
  · exact Nat.le_refl _
  · omega

theorem le_roundHalfEven (num den : Nat) : num / den ≤ roundHalfEven num den := by
  unfold roundHalfEven
  dsimp only
  split
  · exact Nat.le_refl _
  split
  · exact Nat.le_succ _
  · exact Nat.le_add_right _ _

theorem roundHalfEven_mul_eq_iff (hd : 0 < den) :
    roundHalfEven num den * den = num ↔ den ∣ num := by
  constructor
  · intro h
    exact ⟨roundHalfEven num den, by rw [Nat.mul_comm, h]⟩
  · rintro ⟨q, rfl⟩
    rw [Nat.mul_comm den q, roundHalfEven_exact hd]

theorem nearestCode_mul (hk : 0 < k) : nearestCode (num * k) (den * k) = nearestCode num den := by
  have hu : num * k * twoTo 1074 = num * twoTo 1074 * k := Nat.mul_right_comm num k _
  have hs (s : Nat) : den * k * twoTo s = den * twoTo s * k := Nat.mul_right_comm den k _
  simp only [nearestCode, hu, hs, Nat.mul_div_mul_right _ den hk, roundHalfEven_mul hk]

theorem nearestCode_congr {a b c d : Nat} (hb : 0 < b) (hd : 0 < d) (h : a * d = c * b) :
    nearestCode a b = nearestCode c d := by
  calc nearestCode a b = nearestCode (a * d) (b * d) := (nearestCode_mul hd).symm
    _ = nearestCode (c * b) (d * b) := by rw [h, Nat.mul_comm b d]
    _ = nearestCode c d := nearestCode_mul hb

theorem nearestCode_of_small (h : 2 * (num * twoTo 1074) < den) : nearestCode num den = 0 := by
  have hq : num * twoTo 1074 / den = 0 := Nat.div_eq_of_lt (by omega)
  have hl : Nat.log2 0 - 52 = 0 := by simp
  have hr : roundHalfEven (num * twoTo 1074) (den * twoTo 0) = 0 := by
    apply roundHalfEven_small
    rwa [twoTo_zero, Nat.mul_one]
  simp only [nearestCode, hq, hl, hr, Nat.zero_mul, Nat.zero_add, Nat.min_zero]

theorem nearestCode_of_large (hd : 0 < den) (h : den * twoTo 1025 ≤ num) :
    nearestCode num den = infinityCode := by
  have hq : twoTo 2099 ≤ num * twoTo 1074 / den := by
    rw [Nat.le_div_iff_mul_le hd]
    calc twoTo 2099 * den = den * twoTo 1025 * twoTo 1074 := by
          rw [Nat.mul_assoc, ← twoTo_add, Nat.mul_comm]
      _ ≤ num * twoTo 1074 := Nat.mul_le_mul_right _ h
  have hl : 2099 ≤ (num * twoTo 1074 / den).log2 := le_log2 hq
  apply Nat.min_eq_left
  rw [infinityCode]
  calc 2047 * twoTo 52 ≤ ((num * twoTo 1074 / den).log2 - 52) * twoTo 52 :=
        Nat.mul_le_mul_right _ (by omega)
    _ ≤ _ := Nat.le_add_right _ _

end Rounding

namespace Double

variable {x : Double}

theorem ofCode_code (x : Double) : ofCode x.negative x.code = x := by
  have hlt : x.bits.toNat < twoTo 64 := x.bits.toNat_lt
  have hbits : x.code + (if x.negative then twoTo 63 else 0) = x.bits.toNat := by
    by_cases hn : x.negative = true
    · have hle : twoTo 63 ≤ x.bits.toNat := of_decide_eq_true hn
      rw [if_pos hn, code]
      simp only [twoTo, Nat.pow_eq, Nat.reducePow] at hlt hle ⊢
      omega
    · have hle : x.bits.toNat < twoTo 63 := by simpa [negative] using hn
      rw [if_neg hn, code, Nat.mod_eq_of_lt hle, Nat.add_zero]
  rw [ofCode, hbits, UInt64.ofNat_toNat]

theorem log2_mantissa {f e : Nat} (hf : f < twoTo 52) :
    ((f + twoTo 52) * twoTo e).log2 = 52 + e := by
  have hpos : 0 < f + twoTo 52 := Nat.add_pos_right f (twoTo_pos 52)
  have hlog : (f + twoTo 52).log2 = 52 := by
    rw [Nat.log2_eq_iff (Nat.ne_of_gt hpos)]
    refine ⟨Nat.le_add_left _ _, ?_⟩
    calc f + twoTo 52 < twoTo 52 + twoTo 52 := Nat.add_lt_add_right hf _
      _ = twoTo (52 + 1) := (twoTo_succ 52).symm
  rw [log2_mul_twoTo hpos, hlog]

theorem count_units (x : Double) :
    (x.units.log2 - 52) * twoTo 52 + roundHalfEven x.units (twoTo (x.units.log2 - 52)) = x.code := by
  have hsplit : x.code / twoTo 52 * twoTo 52 + x.code % twoTo 52 = x.code :=
    Nat.div_add_mod' x.code (twoTo 52)
  have hf : x.code % twoTo 52 < twoTo 52 := Nat.mod_lt _ (twoTo_pos 52)
  by_cases he : x.code / twoTo 52 = 0
  · have hu : x.units = x.code % twoTo 52 := by simp [units, he]
    have hl : x.units.log2 - 52 = 0 := by
      by_cases hz : x.units = 0
      · simp [hz]
      · have hlog : x.units.log2 < 52 := log2_lt (Nat.pos_of_ne_zero hz) (hu ▸ hf)
        omega
    have hr := roundHalfEven_exact (twoTo_pos 0) x.units
    rw [twoTo_zero, Nat.mul_one] at hr
    rw [he, Nat.zero_mul, Nat.zero_add] at hsplit
    rw [hl, twoTo_zero, hr, hu, hsplit, Nat.zero_mul, Nat.zero_add]
  · have hu : x.units = (x.code % twoTo 52 + twoTo 52) * twoTo (x.code / twoTo 52 - 1) := by
      simp [units, he]
    have hl : x.units.log2 - 52 = x.code / twoTo 52 - 1 := by
      rw [hu, log2_mantissa hf]
      omega
    rw [hl, hu, roundHalfEven_exact (twoTo_pos _)]
    obtain ⟨e, hs⟩ := Nat.exists_eq_succ_of_ne_zero he
    rw [hs, Nat.succ_mul] at hsplit
    rw [hs, Nat.succ_sub_one]
    omega

theorem nearestCode_units (hx : x.isFinite = true) : nearestCode x.units (twoTo 1074) = x.code := by
  have hfin : x.code < infinityCode := of_decide_eq_true hx
  have hr : roundHalfEven (x.units * twoTo 1074) (twoTo 1074 * twoTo (x.units.log2 - 52)) =
      roundHalfEven x.units (twoTo (x.units.log2 - 52)) := by
    rw [Nat.mul_comm (twoTo 1074)]
    exact roundHalfEven_mul (twoTo_pos 1074)
  simp only [nearestCode, Nat.mul_div_cancel _ (twoTo_pos 1074), hr, count_units]
  exact Nat.min_eq_right (Nat.le_of_lt hfin)

end Double

end NetDesc.Decimal
