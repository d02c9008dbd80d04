import NetDesc.Proofs.Decimal.Nearest

namespace NetDesc.Decimal

namespace Scientific

def Equals (s t : Scientific) : Prop :=
  s.num * t.den = t.num * s.den

theorem den_pos (s : Scientific) : 0 < s.den :=
  tenTo_pos _

theorem nearestCode_of_equals {s t : Scientific} (h : s.Equals t) :
    nearestCode s.num s.den = nearestCode t.num t.den :=
  nearestCode_congr s.den_pos t.den_pos h

theorem equals_shift (d k : Nat) (e : Int) :
    (⟨d * tenTo k, e⟩ : Scientific).Equals ⟨d, e + k⟩ := by
  have hexp : k + e.toNat + (-(e + k)).toNat = (e + k).toNat + (-e).toNat := by omega
  calc d * tenTo k * tenTo e.toNat * tenTo (-(e + k)).toNat
      = d * tenTo (k + e.toNat + (-(e + k)).toNat) := by simp only [tenTo_add, Nat.mul_assoc]
    _ = d * tenTo (e + k).toNat * tenTo (-e).toNat := by
        rw [hexp, tenTo_add, Nat.mul_assoc]

theorem nearestCode_dropZeros (fuel : Nat) (s : Scientific) :
    nearestCode (dropZeros fuel s).num (dropZeros fuel s).den = nearestCode s.num s.den := by
  induction fuel generalizing s with
  | zero => rfl
  | succ fuel ih =>
    rw [dropZeros]
    split
    · next h =>
      have hd : s.digits / 10 * tenTo 1 = s.digits := by
        rw [show tenTo 1 = 10 from rfl]
        omega
      have he := equals_shift (s.digits / 10) 1 s.exponent
      rw [hd] at he
      rw [ih]
      exact (nearestCode_of_equals he).symm
    · rfl

end Scientific

open Scientific

theorem tenTo_eq (n : Nat) : tenTo n = fiveTo n * twoTo n :=
  Nat.mul_pow 5 2 n

theorem lt_tenTo_digitCount (d : Nat) : d < tenTo (Double.digitCount d) :=
  (Nat.length_toDigits_le_iff (b := 10) (by decide) Nat.length_toDigits_pos).mp (Nat.le_refl _)

theorem tenTo_le_of_pos {d : Nat} (hd : 0 < d) : tenTo (Double.digitCount d - 1) ≤ d := by
  rcases Nat.eq_zero_or_pos (Double.digitCount d - 1) with h | h
  · rw [h]
    exact hd
  · have hn : ¬ Double.digitCount d ≤ Double.digitCount d - 1 := by omega
    exact Nat.le_of_not_lt fun hlt => hn ((Nat.length_toDigits_le_iff (by decide) h).mpr hlt)

-- The powers are far too large to be computed.
attribute [local irreducible] twoTo tenTo fiveTo nearestCode

theorem nearer_eq (units : Nat) (low high : Scientific) :
    nearer units low high = low ∨ nearer units low high = high := by
  by_cases hl : low.distance units < high.distance units
  · exact .inl (if_pos hl)
  by_cases hh : high.distance units < low.distance units
  · exact .inr ((if_neg hl).trans (if_pos hh))
  by_cases he : low.digits % 2 = 0
  · exact .inl ((if_neg hl).trans ((if_neg hh).trans (if_pos he)))
  · exact .inr ((if_neg hl).trans ((if_neg hh).trans (if_neg he)))

theorem readsBack_of_oneOf {code units : Nat} {low high s : Scientific}
    (h : oneOf code units low high = some s) : s.readsBack code = true := by
  by_cases hl : low.readsBack code = true
  · by_cases hh : high.readsBack code = true
    · have hs : some (nearer units low high) = some s :=
        ((if_pos hl).trans (if_pos hh)).symm.trans h
      obtain rfl := Option.some.inj hs
      rcases nearer_eq units low high with he | he
      · rwa [he]
      · rwa [he]
    · have hs : some low = some s := ((if_pos hl).trans (if_neg hh)).symm.trans h
      obtain rfl := Option.some.inj hs
      exact hl
  · by_cases hh : high.readsBack code = true
    · have hs : some high = some s := ((if_neg hl).trans (if_pos hh)).symm.trans h
      obtain rfl := Option.some.inj hs
      exact hh
    · cases ((if_neg hl).trans (if_neg hh)).symm.trans h

theorem nearestCode_scaled (units k : Nat) :
    nearestCode (units * fiveTo k * tenTo 0) (tenTo k) = nearestCode units (twoTo k) := by
  apply nearestCode_congr (tenTo_pos k) (twoTo_pos k)
  rw [tenTo_zero, Nat.mul_one, Nat.mul_assoc, ← tenTo_eq]

theorem digits_exactly (units : Nat) : (exactly units).digits = units * fiveTo 1074 := rfl

theorem exponent_exactly (units : Nat) : (exactly units).exponent = -1074 := rfl

theorem nearestCode_exactly (units : Nat) :
    nearestCode (exactly units).num (exactly units).den = nearestCode units (twoTo 1074) := by
  rw [num, den, digits_exactly, exponent_exactly]
  exact nearestCode_scaled units 1074

theorem Double.nearestCode_shortest {x : Double} (hx : x.isFinite = true) :
    nearestCode x.shortest.num x.shortest.den = x.code := by
  have hs : x.shortest = (((List.range 17).findSome? fun n =>
      onGrid x.code x.units (pointPlace x.units) (n + 1)).map fun s =>
        s.dropZeros (Double.digitCount s.digits)).getD (exactly x.units) := rfl
  rw [hs]
  cases hf : (List.range 17).findSome? fun n =>
      onGrid x.code x.units (pointPlace x.units) (n + 1) with
  | none =>
    rw [Option.map_none, Option.getD_none, nearestCode_exactly]
    exact nearestCode_units hx
  | some s =>
    obtain ⟨n, -, hn⟩ := List.exists_of_findSome?_eq_some hf
    rw [Option.map_some, Option.getD_some, nearestCode_dropZeros]
    exact beq_iff_eq.mp (readsBack_of_oneOf hn)

section Reach

variable {d : Nat}

theorem nearestCode_below {e : Int} (h : (Double.digitCount d : Int) + e < -330) :
    nearestCode (⟨d, e⟩ : Scientific).num (⟨d, e⟩ : Scientific).den = 0 := by
  apply nearestCode_of_small
  obtain ⟨k, hk⟩ : ∃ k, (-e).toNat = Double.digitCount d + (331 + k) :=
    ⟨(-e).toNat - Double.digitCount d - 331, by omega⟩
  have he : e.toNat = 0 := by omega
  have hbound : 2 * twoTo 1074 ≤ tenTo 331 := by decide +kernel
  have hk1 : 1 ≤ tenTo k := tenTo_pos k
  have hpos := tenTo_pos 331
  rw [num, den, hk, he, tenTo_zero, Nat.mul_one, tenTo_add, tenTo_add]
  generalize twoTo 1074 = half at hbound ⊢
  generalize tenTo 331 = bound at hbound hpos ⊢
  calc 2 * (d * half) = d * (2 * half) := Nat.mul_left_comm 2 d half
    _ ≤ d * (bound * tenTo k) :=
        Nat.mul_le_mul_left d (Nat.le_trans hbound (Nat.le_mul_of_pos_right _ hk1))
    _ < tenTo (Double.digitCount d) * (bound * tenTo k) :=
        Nat.mul_lt_mul_of_pos_right (lt_tenTo_digitCount d) (Nat.mul_pos hpos hk1)

theorem nearestCode_above {e : Int} (hd : 0 < d) (h : 320 < (Double.digitCount d : Int) + e) :
    nearestCode (⟨d, e⟩ : Scientific).num (⟨d, e⟩ : Scientific).den = infinityCode := by
  apply nearestCode_of_large (den_pos _)
  obtain ⟨k, hk⟩ : ∃ k, Double.digitCount d - 1 + e.toNat = (-e).toNat + (309 + k) :=
    ⟨Double.digitCount d - 1 + e.toNat - (-e).toNat - 309, by omega⟩
  have hbound : twoTo 1025 ≤ tenTo 309 := by decide +kernel
  have hk1 : 1 ≤ tenTo k := tenTo_pos k
  calc tenTo (-e).toNat * twoTo 1025 ≤ tenTo (-e).toNat * (tenTo 309 * tenTo k) :=
        Nat.mul_le_mul_left _ (Nat.le_trans hbound (Nat.le_mul_of_pos_right _ hk1))
    _ = tenTo (Double.digitCount d - 1) * tenTo e.toNat := by
        rw [← tenTo_add, ← tenTo_add, ← hk, tenTo_add]
    _ ≤ d * tenTo e.toNat := Nat.mul_le_mul_right _ (tenTo_le_of_pos hd)

end Reach

namespace Double

theorem ofDecimal_eq (negative : Bool) (s : Scientific) :
    ofDecimal negative s.digits s.exponent = ofCode negative (nearestCode s.num s.den) := by
  obtain ⟨d, e⟩ := s
  rw [ofDecimal]
  split
  · next h =>
    congr 1
    rcases h with rfl | h
    · rw [nearestCode_of_small]
      simp only [num, Nat.zero_mul, Nat.mul_zero]
      exact den_pos ⟨0, e⟩
    · exact (nearestCode_below h).symm
  split
  · next h0 h =>
    rw [nearestCode_above (Nat.pos_of_ne_zero fun hd => h0 (.inl hd)) h, infinity]
  split
  · next he =>
    have hn : (-e).toNat = 0 := Int.toNat_of_nonpos (Int.neg_nonpos_of_nonneg he)
    rw [ofRatio, num, den, hn, tenTo_zero]
  · next he =>
    have hn : e.toNat = 0 := Int.toNat_of_nonpos (Int.le_of_lt (Int.not_le.mp he))
    rw [ofRatio, num, den, hn, tenTo_zero, Nat.mul_one]

theorem ofDecimal_shift (negative : Bool) (d k : Nat) (e : Int) :
    ofDecimal negative (d * tenTo k) (e - k) = ofDecimal negative d e := by
  have he := equals_shift d k (e - k)
  rw [Int.sub_add_cancel] at he
  calc ofDecimal negative (d * tenTo k) (e - k)
      = ofCode negative (nearestCode (⟨d * tenTo k, e - k⟩ : Scientific).num
          (⟨d * tenTo k, e - k⟩ : Scientific).den) := ofDecimal_eq negative ⟨d * tenTo k, e - k⟩
    _ = ofDecimal negative d e := by
        rw [nearestCode_of_equals he]
        exact (ofDecimal_eq negative ⟨d, e⟩).symm

theorem ofDecimal_shortest {x : Double} (hx : x.isFinite = true) :
    ofDecimal x.negative x.shortest.digits x.shortest.exponent = x := by
  rw [ofDecimal_eq, nearestCode_shortest hx, ofCode_code]

theorem code_of_units {x : Double} (hx : x.isFinite = true) (hu : x.units = 0) : x.code = 0 := by
  rw [← nearestCode_units hx, hu]
  apply nearestCode_of_small
  rw [Nat.zero_mul, Nat.mul_zero]
  exact twoTo_pos 1074

theorem ofDecimal_whole {x : Double} (hx : x.isWhole = true) :
    ofDecimal x.negative (x.units / twoTo 1074) 0 = x := by
  simp only [isWhole, Bool.and_eq_true, beq_iff_eq] at hx
  have hn : nearestCode (⟨x.units / twoTo 1074, 0⟩ : Scientific).num
      (⟨x.units / twoTo 1074, 0⟩ : Scientific).den = nearestCode x.units (twoTo 1074) := by
    apply nearestCode_congr (den_pos _) (twoTo_pos _)
    calc x.units / twoTo 1074 * tenTo 0 * twoTo 1074 = x.units / twoTo 1074 * twoTo 1074 := by
          rw [tenTo_zero, Nat.mul_one]
      _ = x.units := Nat.div_mul_cancel (Nat.dvd_of_mod_eq_zero hx.2)
      _ = x.units * tenTo 0 := by rw [tenTo_zero, Nat.mul_one]
  calc ofDecimal x.negative (x.units / twoTo 1074) 0
      = ofCode x.negative (nearestCode x.units (twoTo 1074)) := by
        rw [← hn]
        exact ofDecimal_eq x.negative ⟨x.units / twoTo 1074, 0⟩
    _ = x := by rw [nearestCode_units hx.1, ofCode_code]

end Double

end NetDesc.Decimal
