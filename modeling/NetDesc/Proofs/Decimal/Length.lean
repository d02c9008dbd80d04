import NetDesc.Proofs.Decimal.Reading

namespace NetDesc.Decimal

open Text

section Digits

theorem digitValue?_lt {c : Char} {d : Nat} (h : digitValue? c = some d) : d < 10 := by
  unfold digitValue? at h
  simp only at h
  split at h
  · split at h
    · next hc =>
      cases h
      rw [Bool.and_eq_true, decide_eq_true_eq, decide_eq_true_eq] at hc
      omega
    · cases h
  · obtain ⟨z, hz, rfl⟩ := Option.map_eq_some_iff.mp h
    have hc := Array.find?_some hz
    rw [Bool.and_eq_true, decide_eq_true_eq, decide_eq_true_eq] at hc
    omega

theorem lt_of_mem_takeDigits (cs : List Char) : ∀ d ∈ (takeDigits cs).1, d < 10 := by
  induction cs with
  | nil =>
    intro d hd
    cases hd
  | cons c cs ih =>
    intro d hd
    rw [takeDigits] at hd
    split at hd
    · next e he =>
      rcases List.mem_cons.mp hd with rfl | hd
      · exact digitValue?_lt he
      · exact ih d hd
    · cases hd

theorem length_takeDigits (cs : List Char) : (takeDigits cs).1.length ≤ cs.length := by
  induction cs with
  | nil => exact Nat.le_refl 0
  | cons c cs ih =>
    rw [takeDigits]
    split
    · exact Nat.succ_le_succ ih
    · exact Nat.zero_le _

theorem foldl_digits_lt {ds : List Nat} (h : ∀ d ∈ ds, d < 10) (n : Nat) :
    ds.foldl (fun n d => n * 10 + d) n < (n + 1) * tenTo ds.length := by
  induction ds generalizing n with
  | nil =>
    change n < (n + 1) * tenTo 0
    rw [tenTo_zero]
    omega
  | cons d ds ih =>
    have hd := h d (List.mem_cons_self ..)
    have hrest := ih (fun e he => h e (List.mem_cons_of_mem d he)) (n * 10 + d)
    have hle : (n * 10 + d + 1) * tenTo ds.length ≤ (n + 1) * 10 * tenTo ds.length :=
      Nat.mul_le_mul_right _ (by omega)
    have hten : tenTo (ds.length + 1) = 10 * tenTo ds.length := by
      rw [Nat.add_comm, tenTo_add]
      rfl
    rw [List.foldl_cons, List.length_cons, hten, ← Nat.mul_assoc]
    exact Nat.lt_of_lt_of_le hrest hle

theorem isTooLong_ofDigits {ds : List Nat} (h : ∀ d ∈ ds, d < 10) (hl : ds.length ≤ digitLimit) :
    isTooLong (ofDigits ds) = false := by
  have hlt := foldl_digits_lt h 0
  rw [Nat.zero_add, Nat.one_mul] at hlt
  exact isTooLong_of_lt hl hlt

end Digits

theorem natAbs_signed (negative : Bool) (n : Nat) :
    (if negative then -(n : Int) else n).natAbs = n := by
  cases negative
  · rfl
  · exact Int.natAbs_neg n

theorem isTooLong_of_readInt? {s : String} {n : Int} (h : readInt? s = some n) :
    isTooLong n.natAbs = false := by
  rw [readInt?] at h
  generalize takeSign (trim isSpace s.toList) = p at h
  obtain ⟨negative, cs⟩ := p
  simp only at h
  split at h
  · cases h
  have hten := lt_of_mem_takeDigits (withoutUnderscores cs)
  generalize takeDigits (withoutUnderscores cs) = read at h hten
  obtain ⟨ds, rest⟩ := read
  split at h
  · cases h
  · next heq =>
    cases heq
    split at h
    · cases h
    · next hl =>
      cases h
      rw [natAbs_signed]
      exact isTooLong_ofDigits hten (Nat.le_of_not_lt hl)
  · cases h

theorem isTooLong_of_readDigits {negative : Bool} {cs : List Char} {n : Int}
    (h : readDigits negative cs = .value n) : isTooLong n.natAbs = false := by
  unfold readDigits at h
  split at h
  · cases h
    exact isTooLong_zero
  split at h
  · cases h
  dsimp only at h
  split at h
  · cases h
  next hl =>
  split at h
  · cases h
  cases h
  rw [natAbs_signed]
  exact isTooLong_ofDigits (lt_of_mem_takeDigits _)
    (Nat.le_trans (length_takeDigits _) (Nat.le_of_not_lt hl))

theorem isTooLong_of_readFieldInt {s : String} {n : Int} (h : readFieldInt s = .value n) :
    isTooLong n.natAbs = false := by
  unfold readFieldInt at h
  simp only at h
  split at h
  · cases h
  unfold readMinus at h
  split at h
  · split at h
    · cases h
    · exact isTooLong_of_readDigits h
  · exact isTooLong_of_readDigits h

section Whole

theorem twoTo_le {m n : Nat} (h : m ≤ n) : twoTo m ≤ twoTo n :=
  Nat.pow_le_pow_right (by decide) h

-- The powers are far too large to be computed.
attribute [local irreducible] twoTo

namespace Double

variable {x : Double}

theorem units_lt (hx : x.isFinite = true) : x.units < twoTo 1024 * twoTo 1074 := by
  have hcode : x.code < 2047 * twoTo 52 := of_decide_eq_true hx
  have hf : x.code % twoTo 52 < twoTo 52 := Nat.mod_lt _ (twoTo_pos 52)
  have he : x.code / twoTo 52 < 2047 := Nat.div_lt_of_lt_mul (by rwa [Nat.mul_comm])
  have h53 : twoTo 53 = twoTo 1 * twoTo 52 := twoTo_add 1 52
  have hone : twoTo 1 = 2 := by decide +kernel
  rw [← twoTo_add]
  unfold units
  simp only
  split
  · exact Nat.lt_of_lt_of_le hf (twoTo_le (by decide))
  · calc (x.code % twoTo 52 + twoTo 52) * twoTo (x.code / twoTo 52 - 1)
        < twoTo 53 * twoTo (x.code / twoTo 52 - 1) :=
          Nat.mul_lt_mul_of_pos_right (by rw [h53, hone]; omega) (twoTo_pos _)
      _ = twoTo (53 + (x.code / twoTo 52 - 1)) := (twoTo_add ..).symm
      _ ≤ twoTo (1024 + 1074) := twoTo_le (by omega)

theorem isTooLong_whole (hx : x.isFinite = true) : isTooLong x.whole.natAbs = false := by
  have hdiv : x.units / twoTo 1074 < twoTo 1024 :=
    Nat.div_lt_of_lt_mul (by rw [Nat.mul_comm]; exact units_lt hx)
  have hpow : twoTo 1024 ≤ tenTo digitLimit := by decide +kernel
  have hw : x.whole.natAbs = x.units / twoTo 1074 := natAbs_signed _ _
  rw [hw]
  exact decide_eq_false (Nat.not_le.mpr (Nat.lt_of_lt_of_le hdiv hpow))

end Double

end Whole

end NetDesc.Decimal
