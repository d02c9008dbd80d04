import NetDesc.Proofs.Decimal.WholeDouble

namespace NetDesc.Decimal

open Text

/-- Digits of any script, with at most one underscore between two of them, and their values. -/
inductive DigitRun : List Char → List Nat → Prop
  | last {c : Char} {d : Nat} (h : digitValue? c = some d) : DigitRun [c] [d]
  | digit {c : Char} {d : Nat} {cs : List Char} {ds : List Nat} (h : digitValue? c = some d)
      (hr : DigitRun cs ds) : DigitRun (c :: cs) (d :: ds)
  | joined {c : Char} {d : Nat} {cs : List Char} {ds : List Nat} (h : digitValue? c = some d)
      (hr : DigitRun cs ds) : DigitRun (c :: '_' :: cs) (d :: ds)

inductive SignedRun : List Char → Int → Prop
  | bare {cs : List Char} {ds : List Nat} (h : DigitRun cs ds) (hl : ds.length ≤ digitLimit) :
      SignedRun cs (ofDigits ds)
  | plus {cs : List Char} {ds : List Nat} (h : DigitRun cs ds) (hl : ds.length ≤ digitLimit) :
      SignedRun ('+' :: cs) (ofDigits ds)
  | minus {cs : List Char} {ds : List Nat} (h : DigitRun cs ds) (hl : ds.length ≤ digitLimit) :
      SignedRun ('-' :: cs) (-(ofDigits ds : Int))

def Spells (s : String) (n : Int) : Prop :=
  ∃ before cs after, s.toList = before ++ cs ++ after ∧ (∀ c ∈ before, isSpace c = true) ∧
    (∀ c ∈ after, isSpace c = true) ∧ SignedRun cs n

section Reading

variable {c : Char} {d : Nat} {cs : List Char} {ds : List Nat} {n : Int}

def blankCodes : List Nat :=
  List.range' 0x09 5 ++ [0x20, 0x85, 0xa0, 0x1680] ++ List.range' 0x2000 11 ++
    [0x2028, 0x2029, 0x202f, 0x205f, 0x3000]

theorem isSpace_of_digitValue? (h : digitValue? c = some d) : isSpace c = false := by
  rw [Bool.eq_false_iff]
  intro hs
  have hcode : c.toNat ∈ blankCodes := by
    simp only [isSpace, Bool.or_eq_true, Bool.and_eq_true, decide_eq_true_eq, beq_iff_eq] at hs
    simp only [blankCodes, List.mem_append, List.mem_range'_1, List.mem_cons, List.not_mem_nil,
      or_false]
    omega
  have hnone : ∀ n ∈ blankCodes, (if n < 0x80 then
        if 0x30 ≤ n && n ≤ 0x39 then some (n - 0x30) else none
      else (zeroPoints.find? fun z => z ≤ n && n < z + 10).map (n - ·)) = none := by
    decide +kernel
  cases h.symm.trans (hnone c.toNat hcode)

theorem ne_underscore_of_digitValue? (h : digitValue? c = some d) : c ≠ '_' := by
  rintro rfl
  cases h

theorem DigitRun.isSpace (h : DigitRun cs ds) : ∀ c ∈ cs, isSpace c = false := by
  induction h with
  | last h => exact List.forall_mem_singleton.mpr (isSpace_of_digitValue? h)
  | digit h _ ih => exact List.forall_mem_cons.mpr ⟨isSpace_of_digitValue? h, ih⟩
  | joined h _ ih =>
    refine List.forall_mem_cons.mpr ⟨isSpace_of_digitValue? h, List.forall_mem_cons.mpr ⟨?_, ih⟩⟩
    decide

theorem DigitRun.head (h : DigitRun cs ds) : ∃ c rest d, cs = c :: rest ∧ digitValue? c = some d := by
  cases h with
  | last h => exact ⟨_, _, _, rfl, h⟩
  | digit h _ => exact ⟨_, _, _, rfl, h⟩
  | joined h _ => exact ⟨_, _, _, rfl, h⟩

theorem go_digit (h : digitValue? c = some d) (b : Bool) (rest : List Char) :
    underscoresJoinDigits.go b (c :: rest) = underscoresJoinDigits.go true rest := by
  have hd : isDigit c = true := by
    rw [isDigit, h]
    rfl
  have hne := ne_underscore_of_digitValue? h
  rw [← hd]
  cases rest with
  | nil => simp [underscoresJoinDigits.go, hne]
  | cons e rest => simp [underscoresJoinDigits.go, hne]

theorem DigitRun.join (h : DigitRun cs ds) (b : Bool) : underscoresJoinDigits.go b cs = true := by
  induction h generalizing b with
  | last h =>
    rw [go_digit h]
    rfl
  | digit h _ ih =>
    rw [go_digit h]
    exact ih true
  | @joined c d cs ds h hr ih =>
    obtain ⟨e, rest, v, rfl, he⟩ := hr.head
    have hrest := ih true
    have hd : isDigit e = true := by
      rw [isDigit, he]
      rfl
    rw [go_digit h, underscoresJoinDigits.go, hd, ← go_digit he true]
    simpa using hrest

theorem DigitRun.takeDigits (h : DigitRun cs ds) :
    takeDigits (withoutUnderscores cs) = (ds, []) := by
  have hstep {c : Char} {d : Nat} {cs : List Char} {ds : List Nat} (h : digitValue? c = some d)
      (ih : Decimal.takeDigits (withoutUnderscores cs) = (ds, [])) :
      Decimal.takeDigits (withoutUnderscores (c :: cs)) = (d :: ds, []) := by
    have hne : (c != '_') = true := bne_iff_ne.mpr (ne_underscore_of_digitValue? h)
    rw [withoutUnderscores, List.filter_cons, if_pos hne, Decimal.takeDigits, h]
    dsimp only
    rw [← withoutUnderscores, ih]
  induction h with
  | last h => exact hstep h rfl
  | digit h _ ih => exact hstep h ih
  | joined h _ ih => exact hstep h ih

theorem SignedRun.isSpace (h : SignedRun cs n) : ∀ c ∈ cs, isSpace c = false := by
  cases h with
  | bare h => exact h.isSpace
  | plus h => exact List.forall_mem_cons.mpr ⟨by decide, h.isSpace⟩
  | minus h => exact List.forall_mem_cons.mpr ⟨by decide, h.isSpace⟩

theorem takeSign_digits (h : DigitRun cs ds) : takeSign cs = (false, cs) := by
  obtain ⟨c, rest, d, rfl, hd⟩ := h.head
  apply takeSign_signedText false
  intro e he
  cases he
  constructor
  · rintro rfl
    cases hd
  · rintro rfl
    cases hd

theorem trim_append {p : Char → Bool} {before after : List Char} (hb : ∀ c ∈ before, p c = true)
    (ha : ∀ c ∈ after, p c = true) (h : ∀ c ∈ cs, p c = false) (hne : cs ≠ []) :
    trim p (before ++ cs ++ after) = cs := by
  have hfirst : ∀ c ∈ (cs ++ after).head?, p c = false := by
    intro c hc
    obtain ⟨e, rest, rfl⟩ := List.exists_cons_of_ne_nil hne
    obtain rfl : e = c := Option.some.inj hc
    exact h e (List.mem_cons_self ..)
  have hlast : ∀ c ∈ cs.reverse.head?, p c = false := by
    intro c hc
    exact h c (List.mem_reverse.mp (List.mem_of_mem_head? hc))
  rw [trim, List.append_assoc, (takeWhile_append_stop hb hfirst).2, List.reverse_append,
    (takeWhile_append_stop (fun c hc => ha c (List.mem_reverse.mp hc)) hlast).2,
    List.reverse_reverse]

theorem readInt?_of_parts {s : String} {negative : Bool}
    (hs : takeSign (trim isSpace s.toList) = (negative, cs)) (h : DigitRun cs ds)
    (hl : ds.length ≤ digitLimit) :
    readInt? s = some (if negative then -(ofDigits ds : Int) else ofDigits ds) := by
  have hjoin : underscoresJoinDigits cs = true := h.join false
  have hdigits := h.takeDigits
  unfold readInt?
  rw [hs]
  dsimp only
  rw [hjoin, hdigits, if_neg (by decide)]
  cases h with
  | last _ => exact if_neg (Nat.not_lt.mpr hl)
  | digit _ _ => exact if_neg (Nat.not_lt.mpr hl)
  | joined _ _ => exact if_neg (Nat.not_lt.mpr hl)

theorem readInt?_of_spells {s : String} (h : Spells s n) : readInt? s = some n := by
  obtain ⟨before, cs, after, hs, hb, ha, hrun⟩ := h
  have hne : cs ≠ [] := by
    cases hrun with
    | bare h =>
      obtain ⟨c, rest, d, rfl, -⟩ := h.head
      exact List.cons_ne_nil c rest
    | plus _ => exact List.cons_ne_nil _ _
    | minus _ => exact List.cons_ne_nil _ _
  have htrim : trim isSpace s.toList = cs := by
    rw [hs]
    exact trim_append hb ha hrun.isSpace hne
  cases hrun with
  | bare h hl => exact readInt?_of_parts (by rw [htrim, takeSign_digits h]) h hl
  | plus h hl => exact readInt?_of_parts (by rw [htrim]; rfl) h hl
  | minus h hl => exact readInt?_of_parts (by rw [htrim]; rfl) h hl

end Reading

section Doubles

namespace Double

-- The powers are far too large to be computed.
attribute [local irreducible] twoTo

def Keeps (n : Int) : Prop :=
  (ofDecimal (decide (n < 0)) n.natAbs 0).isWhole = true →
    (ofDecimal (decide (n < 0)) n.natAbs 0).whole = n

def rounded (n : Int) : Int :=
  if (ofInt n).isFinite then (ofInt n).whole else n

theorem ofDecimal_eq_ofInt (n : Int) : ofDecimal (decide (n < 0)) n.natAbs 0 = ofInt n :=
  ofDecimal_zero _ _

theorem isWhole_ofInt (n : Int) : (ofInt n).isWhole = (ofInt n).isFinite :=
  isWhole_nearest _ _

theorem rounded_eq_iff_keeps (n : Int) : rounded n = n ↔ Keeps n := by
  rw [Keeps, ofDecimal_eq_ofInt, isWhole_ofInt, rounded]
  split
  · next hf => exact ⟨fun h _ => h, fun h => h hf⟩
  · next hf => exact iff_of_true rfl fun h => absurd h hf

theorem rounded_eq_iff (n : Int) :
    rounded n = n ↔ (ofInt n).isFinite = false ∨ twoTo (n.natAbs.log2 - 52) ∣ n.natAbs := by
  have hsigned := signed_natAbs n
  rw [rounded]
  split
  · next hf =>
    have hwhole := whole_nearest_eq_iff (b := decide (n < 0)) (n := n.natAbs) hf
    simp only [decide_eq_true_eq, hsigned] at hwhole
    rw [hf]
    exact hwhole.trans (by simp)
  · next hf => exact iff_of_true rfl (.inl (Bool.eq_false_iff.mpr hf))

theorem keeps_of_le {n : Int} (h : n.natAbs ≤ twoTo 53) : Keeps n := by
  rw [← rounded_eq_iff_keeps, rounded_eq_iff]
  right
  rcases Nat.lt_or_eq_of_le h with hlt | heq
  · have hlog : n.natAbs.log2 - 52 = 0 := by
      rcases Nat.eq_zero_or_pos n.natAbs with hz | hn
      · rw [hz, Nat.log2_zero]
      · have hlog := log2_lt hn hlt
        omega
    rw [hlog, twoTo_zero]
    exact Nat.one_dvd _
  · rw [heq]
    decide +kernel

theorem rounded_of_signed {negative : Bool} {k : Nat} {n : Int}
    (hn : n = if negative then -(k : Int) else k) :
    rounded n = if (ofDecimal negative k 0).isWhole then (ofDecimal negative k 0).whole else n := by
  rcases Nat.eq_zero_or_pos k with rfl | hk
  · subst hn
    cases negative <;> decide +kernel
  · have hparts : decide (n < 0) = negative ∧ n.natAbs = k := by
      subst hn
      cases negative <;> simp [hk]
    rw [← hparts.1, ← hparts.2, ofDecimal_eq_ofInt, isWhole_ofInt, rounded]

theorem Keeps.whole {negative : Bool} {k : Nat} {n : Int} (h : Keeps n)
    (hn : n = if negative then -(k : Int) else k) (hw : (ofDecimal negative k 0).isWhole = true) :
    (ofDecimal negative k 0).whole = n := by
  have hrounded := rounded_of_signed hn
  rw [if_pos hw, (rounded_eq_iff_keeps n).mpr h] at hrounded
  exact hrounded.symm

end Double

theorem intOfText_of_readInt? {text : String} {m n : Int} (hr : readInt? text = some m)
    (hm : isPlainInt text = true ∨ Double.Keeps m) (h : Record.intOfText text = .ok n) : n = m := by
  rcases of_intOfText hr h with rfl | ⟨negative, k, hsign, hplain, hw, rfl⟩
  · rfl
  · rcases hm with hm | hm
    · cases hplain.symm.trans hm
    · exact hm.whole hsign hw

end Doubles

end NetDesc.Decimal
