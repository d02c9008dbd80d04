import NetDesc.Tree.Literal

namespace NetDesc.Text

open Literal

theorem eq_iff_toNat {c d : Char} : c = d ↔ c.toNat = d.toNat :=
  ⟨fun h => h ▸ rfl, fun h => Char.ext (UInt32.toNat_inj.mp h)⟩

theorem le_iff_toNat {c d : Char} : c ≤ d ↔ c.toNat ≤ d.toNat := by
  rw [Char.le_def, UInt32.le_iff_toNat_le]
  rfl

theorem isNameChar_toNat {c : Char} (h : isNameChar c = true) :
    (0x2d ≤ c.toNat ∧ c.toNat ≤ 0x39) ∨ (0x41 ≤ c.toNat ∧ c.toNat ≤ 0x5d) ∨
      (0x5f ≤ c.toNat ∧ c.toNat ≤ 0x7a) := by
  simp only [isNameChar, isNameStart, isAsciiLetter, Bool.or_eq_true, Bool.and_eq_true,
    decide_eq_true_eq, beq_iff_eq, le_iff_toNat, eq_iff_toNat, Char.reduceToNat] at h
  omega

theorem breaksWord_of_isNameChar {c : Char} (h : isNameChar c = true) : breaksWord c = false := by
  have hc := isNameChar_toNat h
  rw [Bool.eq_false_iff]
  simp only [breaksWord, isBlank, isSpace, Bool.or_eq_true, Bool.and_eq_true, ne_eq,
    decide_eq_true_eq, beq_iff_eq, eq_iff_toNat, Char.reduceToNat]
  omega

theorem isBareWord_of_isName {cs : List Char} (h : isName cs = true) : isBareWord cs = true := by
  cases cs with
  | nil => cases h
  | cons c cs =>
    obtain ⟨hc, hcs⟩ := Bool.and_eq_true_iff.mp h
    have hs : isNameChar c = true := by simp [isNameChar, hc]
    have hb : ∀ d ∈ cs, breaksWord d = false := fun d hd =>
      breaksWord_of_isNameChar (List.all_eq_true.mp hcs d hd)
    simpa [isBareWord, breaksWord_of_isNameChar hs] using hb

theorem takeWhile_append_stop {α : Type} {p : α → Bool} {xs ys : List α}
    (hx : ∀ x ∈ xs, p x = true) (hy : ∀ y ∈ ys.head?, p y = false) :
    (xs ++ ys).takeWhile p = xs ∧ (xs ++ ys).dropWhile p = ys := by
  rw [List.takeWhile_append_of_pos hx, List.dropWhile_append_of_pos hx]
  cases ys with
  | nil => simp
  | cons y ys => simp [hy y (by simp)]

theorem takeWhile_append_cons {α : Type} {p : α → Bool} {y : α} (hy : p y = false) (xs ys : List α) :
    (xs ++ y :: ys).takeWhile p = xs.takeWhile p ∧
      (xs ++ y :: ys).dropWhile p = xs.dropWhile p ++ y :: ys := by
  induction xs with
  | nil => simp [hy]
  | cons x xs ih => by_cases hx : p x = true <;> simp [hx, ih]

end NetDesc.Text
