import NetDesc.Proofs.Json.Numbers
import NetDesc.Proofs.Json.Strings

namespace NetDesc.Json

open Decimal

-- The bound of the digits is far too large to be computed.
attribute [local irreducible] tenTo

/-- A text has these tokens, however much fuel there is beyond its length. -/
def Scans (cs : List Char) (ts : List Token) : Prop :=
  ∀ fuel, cs.length ≤ fuel → Token.scan.go fuel cs = ts

theorem scan_of_scans {cs : List Char} {ts : List Token} (h : Scans cs ts) : Token.scan cs = ts :=
  h cs.length (Nat.le_refl _)

theorem scans_nil : Scans [] [] := fun fuel _ => by
  cases fuel <;> rfl

theorem scans_next {c : Char} {cs rest : List Char} {t : Token} {ts : List Token}
    (hc : Token.isSpace c = false) (hn : Token.next c cs = (t, rest)) (ht : t ≠ .invalid)
    (hl : rest.length ≤ cs.length) (hr : Scans rest ts) : Scans (c :: cs) (t :: ts) := by
  intro fuel hf
  cases fuel with
  | zero => simp at hf
  | succ fuel =>
    have hrest := hr fuel (by simp at hf; omega)
    rw [Token.scan.go, hc, hn]
    cases t <;> simp_all

section Next

variable {rest : List Char}

theorem ne_of_isDigit {c d : Char} (hc : c.isDigit = true) (hd : d.isDigit = false) : c ≠ d := by
  rintro rfl
  rw [hc] at hd
  cases hd

theorem next_digit {c : Char} (hc : c.isDigit = true) (cs : List Char) :
    Token.next c cs = Token.number false (c :: cs) := by
  have hne {d : Char} (hd : d.isDigit = false) : c ≠ d := ne_of_isDigit hc hd
  have hw : Token.words.findSome? (fun w =>
      (Token.afterWord? w.1 (c :: cs)).map fun rest => (w.2, rest)) = none := by
    simp [Token.words, Token.afterWord?, (hne (d := 't') (by decide)).symm,
      (hne (d := 'f') (by decide)).symm, (hne (d := 'n') (by decide)).symm,
      (hne (d := 'N') (by decide)).symm, (hne (d := 'I') (by decide)).symm,
      (hne (d := '-') (by decide)).symm]
  rw [Token.next, if_neg (hne (by decide)), if_neg (hne (by decide)), if_neg (hne (by decide)),
    if_neg (hne (by decide)), if_neg (hne (by decide)), if_neg (hne (by decide)),
    if_neg (hne (by decide)), hw]
  exact (if_neg (hne (by decide))).trans (if_pos hc)

theorem next_minus {c : Char} (hc : c.isDigit = true) (cs : List Char) :
    Token.next '-' (c :: cs) = Token.number true (c :: cs) := by
  have hi : 'I' ≠ c := (ne_of_isDigit hc (by decide)).symm
  simp [Token.next, Token.words, Token.afterWord?, hi]

theorem scans_signed {cs : List Char} {t : Token} {ts : List Token} (negative : Bool)
    (hd : ∃ c tail, c.isDigit = true ∧ cs = c :: tail)
    (hn : Token.number negative (cs ++ rest) = (t, rest)) (ht : t ≠ .invalid)
    (hr : Scans rest ts) : Scans (signedText negative cs ++ rest) (t :: ts) := by
  obtain ⟨c, tail, hc, rfl⟩ := hd
  cases negative with
  | true =>
    refine scans_next (by decide) ((next_minus hc _).trans hn) ht ?_ hr
    simp
    omega
  | false =>
    refine scans_next ?_ ((next_digit hc _).trans hn) ht (by simp) hr
    have hs := isDigit_toNat hc
    rw [Bool.eq_false_iff]
    simp only [Token.isSpace, Bool.or_eq_true, beq_iff_eq, Text.eq_iff_toNat, Char.reduceToNat, ne_eq]
    omega

theorem scans_quoted {ts : List Token} (s : String) (hr : Scans rest ts) :
    Scans (quoted s ++ rest) (.scalar (.text s) :: ts) := by
  have hn : Token.next '"' (s.toList.flatMap escape ++ '"' :: rest) = (.scalar (.text s), rest) := by
    simp [Token.next, codes?_quoted, ofCodes_quoted]
  have hq : quoted s ++ rest = '"' :: (s.toList.flatMap escape ++ '"' :: rest) := by
    simp [quoted]
  rw [hq]
  refine scans_next (by decide) hn (by simp) ?_ hr
  simp
  omega

end Next

mutual

def tokens : Json → List Token
  | .list xs => .openList :: tokensList xs ++ [.closeList]
  | .object fs => .openObject :: tokensFields fs ++ [.closeObject]
  | j => [.scalar j]

def tokensList : List Json → List Token
  | [] => []
  | [x] => tokens x
  | x :: xs => tokens x ++ .comma :: tokensList xs

def tokensFields : List (String × Json) → List Token
  | [] => []
  | [(k, x)] => .scalar (.text k) :: .colon :: tokens x
  | (k, x) :: fs => .scalar (.text k) :: .colon :: tokens x ++ .comma :: tokensFields fs

end

mutual

/-- Data that keeps its value in a text: numbers have one, and no key is given twice. -/
def isLasting : Json → Bool
  | .int n => n.natAbs < tenTo digitLimit
  | .float x => !x.isNaN
  | .brokenText _ => false
  | .list xs => isLastingList xs
  | .object fs => decide (fs.map Prod.fst).Nodup && isLastingFields fs
  | .brokenObject _ => false
  | _ => true

def isLastingList : List Json → Bool
  | [] => true
  | x :: xs => isLasting x && isLastingList xs

def isLastingFields : List (String × Json) → Bool
  | [] => true
  | (_, x) :: fs => isLasting x && isLastingFields fs

end

def EndsValue (rest : List Char) : Prop :=
  ∀ c ∈ rest.head?, c = ',' ∨ c = ']' ∨ c = '}'

section Scalars

variable {rest : List Char} {ts : List Token}

theorem EndsValue.endsNumber (h : EndsValue rest) : Token.EndsNumber rest := by
  intro c hc
  rcases h c hc with rfl | rfl | rfl <;> decide

theorem whole_toDigits {n : Int} (hn : n.natAbs < tenTo digitLimit) :
    Token.whole (decide (n < 0)) (digitsOf (Nat.toDigits 10 n.natAbs)) = .scalar (.int n) := by
  have hl : ¬ digitLimit < (digitsOf (Nat.toDigits 10 n.natAbs)).length := by
    rw [length_digitsOf, Nat.not_lt]
    exact (length_toDigits_le_iff (by decide)).mpr hn
  have hs : Token.signed (decide (n < 0)) (digitsOf (Nat.toDigits 10 n.natAbs)) = n := by
    rw [Token.signed, ofDigits_toDigits]
    simp only [decide_eq_true_eq, signed_natAbs]
  rw [Token.whole, hs, decide_eq_false hl]
  rfl

theorem scans_int {n : Int} (hn : n.natAbs < tenTo digitLimit) (he : EndsValue rest)
    (hr : Scans rest ts) : Scans ((toString n).toList ++ rest) (.scalar (.int n) :: ts) := by
  rw [toList_toString]
  refine scans_signed _ ?_ ?_ (by simp) hr
  · obtain ⟨c, tail, hc, ht⟩ := Spelling.text_eq_cons (Spelling.regular_integer n.natAbs)
    rw [Spelling.text_integer] at ht
    exact ⟨c, tail, hc, ht⟩
  · rw [Token.number_integer _ he.endsNumber, whole_toDigits hn]

theorem scans_word {c : Char} {cs : List Char} {j : Json} (hc : Token.isSpace c = false)
    (hn : Token.next c (cs ++ rest) = (.scalar j, rest)) (hr : Scans rest ts) :
    Scans (c :: cs ++ rest) (.scalar j :: ts) :=
  scans_next hc hn (by simp) (by simp) hr

theorem scans_infinity (negative : Bool) (hr : Scans rest ts) :
    Scans (signedText negative "Infinity".toList ++ rest)
      (.scalar (.float (.infinity negative)) :: ts) := by
  have ht : "Infinity".toList = ['I', 'n', 'f', 'i', 'n', 'i', 't', 'y'] := by decide
  rw [ht]
  cases negative with
  | true => exact scans_word (by decide) (by simp [Token.next, Token.words, Token.afterWord?]) hr
  | false => exact scans_word (by decide) (by simp [Token.next, Token.words, Token.afterWord?]) hr

theorem scans_bool (b : Bool) (hr : Scans rest ts) :
    Scans ((if b then "true" else "false").toList ++ rest) (.scalar (.bool b) :: ts) := by
  have ht : "true".toList = ['t', 'r', 'u', 'e'] := by decide
  have hf : "false".toList = ['f', 'a', 'l', 's', 'e'] := by decide
  cases b with
  | true =>
    rw [if_pos rfl, ht]
    exact scans_word (by decide) (by simp [Token.next, Token.words, Token.afterWord?]) hr
  | false =>
    rw [if_neg (by decide), hf]
    exact scans_word (by decide) (by simp [Token.next, Token.words, Token.afterWord?]) hr

theorem scans_null (hr : Scans rest ts) : Scans ("null".toList ++ rest) (.scalar .null :: ts) := by
  have ht : "null".toList = ['n', 'u', 'l', 'l'] := by decide
  rw [ht]
  exact scans_word (by decide) (by simp [Token.next, Token.words, Token.afterWord?]) hr

theorem scans_float {x : Double} (hx : x.isNaN = false) (he : EndsValue rest)
    (hr : Scans rest ts) :
    Scans ((Layout.json.render x).toList ++ rest) (.scalar (.float x) :: ts) := by
  by_cases hf : x.isFinite = true
  · have hs := Layout.regular_spelled Layout.json x
    rw [render_finite _ hx hf, String.toList_ofList]
    refine scans_signed _ (Spelling.text_eq_cons hs) ?_ (by simp) hr
    rw [Token.number_text hs he.endsNumber _ (Layout.hasPoint_spelled _ x),
      Layout.value_spelled _ hf]
  · rw [Bool.not_eq_true] at hf
    have hi := scans_infinity x.negative hr
    rw [Double.infinity_eq hx hf] at hi
    rw [render_infinite _ hx hf, String.toList_ofList]
    exact hi

end Scalars

theorem scans_sign {c : Char} {cs : List Char} {t : Token} {ts : List Token}
    (hc : Token.isSpace c = false) (hn : Token.next c cs = (t, cs)) (ht : t ≠ .invalid)
    (hr : Scans cs ts) : Scans (c :: cs) (t :: ts) :=
  scans_next hc hn ht (Nat.le_refl _) hr

section Signs

variable {rest : List Char} {ts : List Token}

theorem scans_openList (hr : Scans rest ts) : Scans ('[' :: rest) (.openList :: ts) :=
  scans_sign (by decide) rfl (by simp) hr

theorem scans_closeList (hr : Scans rest ts) : Scans (']' :: rest) (.closeList :: ts) :=
  scans_sign (by decide) rfl (by simp) hr

theorem scans_openObject (hr : Scans rest ts) : Scans ('{' :: rest) (.openObject :: ts) :=
  scans_sign (by decide) rfl (by simp) hr

theorem scans_closeObject (hr : Scans rest ts) : Scans ('}' :: rest) (.closeObject :: ts) :=
  scans_sign (by decide) rfl (by simp) hr

theorem scans_comma (hr : Scans rest ts) : Scans (',' :: rest) (.comma :: ts) :=
  scans_sign (by decide) rfl (by simp) hr

theorem scans_colon (hr : Scans rest ts) : Scans (':' :: rest) (.colon :: ts) :=
  scans_sign (by decide) rfl (by simp) hr

theorem endsValue_comma (cs : List Char) : EndsValue (',' :: cs) := by
  simp [EndsValue]

theorem endsValue_closeList (cs : List Char) : EndsValue (']' :: cs) := by
  simp [EndsValue]

theorem endsValue_closeObject (cs : List Char) : EndsValue ('}' :: cs) := by
  simp [EndsValue]

end Signs

mutual

theorem scans_write (j : Json) (hj : j.isLasting = true) {rest : List Char} {ts : List Token}
    (he : EndsValue rest) (hr : Scans rest ts) : Scans (write j ++ rest) (tokens j ++ ts) := by
  match j with
  | .null => exact scans_null hr
  | .bool b => exact scans_bool b hr
  | .int n =>
    rw [isLasting, decide_eq_true_eq] at hj
    exact scans_int hj he hr
  | .float x =>
    rw [isLasting, Bool.not_eq_true'] at hj
    exact scans_float hj he hr
  | .text s => exact scans_quoted s hr
  | .brokenText _ => cases hj
  | .brokenObject _ => cases hj
  | .list xs =>
    rw [isLasting] at hj
    have h := scans_openList (scans_writeList xs hj (scans_closeList hr))
    simpa [write, tokens] using h
  | .object fs =>
    rw [isLasting, Bool.and_eq_true] at hj
    have h := scans_openObject (scans_writeFields fs hj.2 (scans_closeObject hr))
    simpa [write, tokens] using h

theorem scans_writeList (xs : List Json) (hj : isLastingList xs = true) {rest : List Char}
    {ts : List Token} (hr : Scans (']' :: rest) ts) :
    Scans (writeList xs ++ ']' :: rest) (tokensList xs ++ ts) := by
  match xs with
  | [] => exact hr
  | [x] =>
    rw [isLastingList, Bool.and_eq_true] at hj
    exact scans_write x hj.1 (endsValue_closeList rest) hr
  | x :: y :: ys =>
    rw [isLastingList, Bool.and_eq_true] at hj
    have h := scans_write x hj.1 (endsValue_comma _) (scans_comma (scans_writeList (y :: ys) hj.2 hr))
    simpa [writeList, tokensList] using h

theorem scans_writeFields (fs : List (String × Json)) (hj : isLastingFields fs = true)
    {rest : List Char} {ts : List Token} (hr : Scans ('}' :: rest) ts) :
    Scans (writeFields fs ++ '}' :: rest) (tokensFields fs ++ ts) := by
  match fs with
  | [] => exact hr
  | [(k, x)] =>
    rw [isLastingFields, Bool.and_eq_true] at hj
    have h := scans_quoted k (scans_colon (scans_write x hj.1 (endsValue_closeObject rest) hr))
    simpa [writeFields, tokensFields] using h
  | (k, x) :: (l, y) :: fs =>
    rw [isLastingFields, Bool.and_eq_true] at hj
    have h := scans_quoted k (scans_colon (scans_write x hj.1 (endsValue_comma _)
      (scans_comma (scans_writeFields ((l, y) :: fs) hj.2 hr))))
    simpa [writeFields, tokensFields] using h

end

theorem scan_write {j : Json} (hj : j.isLasting = true) : Token.scan (write j) = tokens j := by
  have h := @scans_write j hj [] [] (by simp [EndsValue]) scans_nil
  rw [List.append_nil, List.append_nil] at h
  exact scan_of_scans h

end NetDesc.Json
