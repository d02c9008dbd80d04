import NetDesc.Json.Token
import NetDesc.Json.Writer
import NetDesc.Proofs.Text.Char

namespace NetDesc.Json

open Text Token

theorem hexValue?_hexDigit : ∀ d < 16, hexValue? (hexDigit d) = some d := by
  decide

theorem hexDigits_four (n : Nat) : hexDigits 4 n =
    [hexDigit (n / 16 / 16 / 16 % 16), hexDigit (n / 16 / 16 % 16), hexDigit (n / 16 % 16),
      hexDigit (n % 16)] := rfl

theorem hexUnit?_hexDigits {n : Nat} (hn : n < 0x10000) :
    hexUnit? (hexDigit (n / 16 / 16 / 16 % 16)) (hexDigit (n / 16 / 16 % 16))
      (hexDigit (n / 16 % 16)) (hexDigit (n % 16)) = some n := by
  have hd (m : Nat) : hexValue? (hexDigit (m % 16)) = some (m % 16) :=
    hexValue?_hexDigit _ (Nat.mod_lt _ (by decide))
  simp only [hexUnit?, hd, Option.bind_eq_bind, Option.bind_some, Option.pure_def,
    Option.some.injEq]
  omega

def withCodes (ns : List Nat) (r : List Nat × List Char) : List Nat × List Char :=
  (ns ++ r.1, r.2)

theorem codes?_escapeUnit {n : Nat} (hn : n < 0x10000) (rest : List Char) :
    codes? (escapeUnit n ++ rest) = (codes? rest).map (withCodes [n]) := by
  rw [escapeUnit, hexDigits_four]
  simp only [List.cons_append, List.nil_append]
  rw [codes?, hexUnit?_hexDigits hn]
  rfl

theorem codes?_units {ns : List Nat} (hn : ∀ n ∈ ns, n < 0x10000) (rest : List Char) :
    codes? (ns.flatMap escapeUnit ++ rest) = (codes? rest).map (withCodes ns) := by
  induction ns with
  | nil => cases h : codes? rest <;> simp [h, withCodes]
  | cons n ns ih =>
    rw [List.flatMap_cons, List.append_assoc, codes?_escapeUnit (hn n (by simp)),
      ih fun m hm => hn m (by simp [hm]), Option.map_map]
    rfl

theorem toNat_valid (c : Char) : c.toNat < 0xd800 ∨ (0xdfff < c.toNat ∧ c.toNat < 0x110000) :=
  c.valid

theorem codeUnits_lt (c : Char) : ∀ n ∈ codeUnits c, n < 0x10000 := by
  have hc := toNat_valid c
  intro n hn
  rw [codeUnits] at hn
  split at hn
  · next hs =>
    obtain rfl := List.mem_singleton.mp hn
    exact hs
  · simp only [List.mem_cons, List.not_mem_nil, or_false] at hn
    omega

theorem codes?_escape (c : Char) (rest : List Char) :
    codes? (escape c ++ rest) = (codes? rest).map (withCodes (codeUnits c)) := by
  unfold escape
  split
  · next h => subst h; rfl
  split
  · next h => subst h; rfl
  split
  · next h => subst h; rfl
  split
  · next h => subst h; rfl
  split
  · next h => subst h; rfl
  split
  · next h => subst h; rfl
  split
  · next h => subst h; rfl
  split
  · next h => subst h; rfl
  split
  · next hq hb _ _ _ _ _ _ hr =>
    have hz : c ≠ '\x00' := by
      rintro rfl
      exact absurd hr.1 (by decide)
    have hu : codeUnits c = [c.toNat] := if_pos (by omega)
    rw [hu, List.singleton_append, codes?, if_neg hq, if_neg (not_or.mpr ⟨hb, hz⟩)]
    · rfl
    · intro _ _ _ _ _ he
      exact absurd he hb
    · intro _ _ he
      exact absurd he hb
  · exact codes?_units (codeUnits_lt c) rest

theorem codes?_quoted (cs rest : List Char) :
    codes? (cs.flatMap escape ++ '"' :: rest) = some (cs.flatMap codeUnits, rest) := by
  induction cs with
  | nil => rfl
  | cons c cs ih =>
    rw [List.flatMap_cons, List.append_assoc, codes?_escape, ih]
    rfl

theorem joinHalves_single {n : Nat} (hn : isHighUnit n = false) (ns : List Nat) :
    joinHalves (n :: ns) = n :: joinHalves ns := by
  cases ns with
  | nil => rfl
  | cons m ns => simp [joinHalves, hn]

theorem joinHalves_pair {n m : Nat} (hn : isHighUnit n = true) (hm : isLowUnit m = true)
    (ns : List Nat) : joinHalves (n :: m :: ns) =
      (0x10000 + (n - 0xd800) * 0x400 + (m - 0xdc00)) :: joinHalves ns := by
  simp [joinHalves, hn, hm]

theorem joinHalves_codeUnits (cs : List Char) :
    joinHalves (cs.flatMap codeUnits) = cs.map Char.toNat := by
  induction cs with
  | nil => rfl
  | cons c cs ih =>
    have hc := toNat_valid c
    rw [List.flatMap_cons, List.map_cons, ← ih, codeUnits]
    split
    · refine joinHalves_single ?_ _
      rw [isHighUnit, Bool.and_eq_false_iff, decide_eq_false_iff_not, decide_eq_false_iff_not]
      omega
    · have hsum : 0x10000 + (0xd800 + (c.toNat - 0x10000) / 0x400 - 0xd800) * 0x400 +
          (0xdc00 + (c.toNat - 0x10000) % 0x400 - 0xdc00) = c.toNat := by omega
      simp only [List.cons_append, List.nil_append]
      rw [joinHalves_pair, hsum]
      · rw [isHighUnit, Bool.and_eq_true, decide_eq_true_eq, decide_eq_true_eq]
        omega
      · rw [isLowUnit, Bool.and_eq_true, decide_eq_true_eq, decide_eq_true_eq]
        omega

theorem ofCodes?_codes (s : String) : Text.ofCodes? (codes s) = some s := by
  have hall : (codes s).all isCharCode = true := by
    rw [List.all_eq_true]
    intro n hn
    obtain ⟨c, -, rfl⟩ := List.mem_map.mp hn
    exact decide_eq_true c.valid
  have hmap : (codes s).map Char.ofNat = s.toList := by
    rw [codes, List.map_map]
    exact (List.map_congr_left fun c _ => Char.ofNat_toNat c).trans (List.map_id _)
  rw [Text.ofCodes?, if_pos hall, hmap, String.ofList_toList]

theorem ofCodes_quoted (s : String) :
    ofCodes (joinHalves (s.toList.flatMap codeUnits)) = .text s := by
  have hs : Text.ofCodes? (s.toList.map Char.toNat) = some s := ofCodes?_codes s
  rw [joinHalves_codeUnits, ofCodes, hs]
  rfl

end NetDesc.Json
