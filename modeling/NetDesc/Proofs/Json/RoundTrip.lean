import NetDesc.Json.Reader
import NetDesc.Proofs.Json.Scanning

namespace NetDesc.Json

mutual

def depth : Json → Nat
  | .list xs => depthList xs + 1
  | .object fs => depthFields fs + 1
  | _ => 0

def depthList : List Json → Nat
  | [] => 0
  | x :: xs => max (depth x) (depthList xs)

def depthFields : List (String × Json) → Nat
  | [] => 0
  | (_, x) :: fs => max (depth x) (depthFields fs)

end

section Keys

theorem codes_injective {s t : String} (h : Text.codes s = Text.codes t) : s = t := by
  have hs := ofCodes?_codes s
  rw [h, ofCodes?_codes t] at hs
  exact (Option.some.inj hs).symm

def codeFields (fs : List (String × Json)) : List (List Nat × Json) :=
  fs.map fun f => (Text.codes f.1, f.2)

theorem putField_of_new {done : List (String × Json)} {k : String} {j : Json}
    (hk : k ∉ done.map Prod.fst) :
    putField (codeFields done) (Text.codes k) j = codeFields (done ++ [(k, j)]) := by
  have hn : (codeFields done).any (fun f => f.1 == Text.codes k) = false := by
    rw [List.any_eq_false]
    intro f hf he
    obtain ⟨g, hg, rfl⟩ := List.mem_map.mp hf
    exact hk (codes_injective (beq_iff_eq.mp he) ▸ List.mem_map_of_mem hg)
  rw [putField, if_neg (by rw [hn]; decide), codeFields, codeFields, List.map_append]
  rfl

theorem foldl_putField {done fs : List (String × Json)} (h : ((done ++ fs).map Prod.fst).Nodup) :
    (codeFields fs).foldl (fun fs f => putField fs f.1 f.2) (codeFields done) =
      codeFields (done ++ fs) := by
  -- For any members that are already there, since each one is put after them.
  induction fs generalizing done with
  | nil => rw [List.append_nil]; rfl
  | cons f fs ih =>
    have hk : f.1 ∉ done.map Prod.fst := by
      rw [List.map_append, List.map_cons] at h
      exact fun hm => (List.nodup_append.mp h).2.2 _ hm _ (List.mem_cons_self ..) rfl
    have hs : done ++ f :: fs = done ++ [f] ++ fs := by simp
    rw [hs] at h ⊢
    rw [← ih h]
    exact congrArg (fun start => (codeFields fs).foldl _ start) (putField_of_new hk)

theorem mapM_codeFields (fs : List (String × Json)) :
    (codeFields fs).mapM (fun f => (Text.ofCodes? f.1).map fun key => (key, f.2)) = some fs := by
  induction fs with
  | nil => rfl
  | cons f fs ih =>
    have hf : (Text.ofCodes? (Text.codes f.1)).map (fun key => (key, f.2)) = some f := by
      rw [ofCodes?_codes]
      rfl
    simp only [codeFields, List.map_cons, List.mapM_cons] at ih ⊢
    rw [hf, ih]
    rfl

theorem ofFields_codeFields {fs : List (String × Json)} (h : (fs.map Prod.fst).Nodup) :
    ofFields (codeFields fs) = .object fs := by
  have hf := @foldl_putField [] fs h
  rw [List.nil_append] at hf
  have hempty : codeFields [] = [] := rfl
  rw [hempty] at hf
  simp only [ofFields, hf, mapM_codeFields]

end Keys

namespace Reader.State

def ExpectsValue (e : Expecting) : Prop :=
  e = .value ∨ e = .firstItem

def ExpectsKey (e : Expecting) : Prop :=
  e = .key ∨ e = .firstKey

section Steps

variable {frames : List Frame} {e : Expecting} {j : Json} {items : List Json}
  {fields : List (List Nat × Json)} {ts : List Token}

theorem step_scalar (he : ExpectsValue e) : step ⟨frames, e⟩ (.scalar j) = complete frames j := by
  rcases he with rfl | rfl <;> rfl

theorem step_openList (he : ExpectsValue e) (hd : frames.length < depthLimit) :
    step ⟨frames, e⟩ .openList = .ok ⟨.list [] :: frames, .firstItem⟩ := by
  rcases he with rfl | rfl <;> exact if_pos hd

theorem step_openObject (he : ExpectsValue e) (hd : frames.length < depthLimit) :
    step ⟨frames, e⟩ .openObject = .ok ⟨.object [] none :: frames, .firstKey⟩ := by
  rcases he with rfl | rfl <;> exact if_pos hd

theorem step_key (he : ExpectsKey e) (k : String) :
    step ⟨.object fields none :: frames, e⟩ (.scalar (.text k)) =
      .ok ⟨.object fields (some (Text.codes k)) :: frames, .colon⟩ := by
  rcases he with rfl | rfl <;> rfl

end Steps

end Reader.State

open Reader State

-- The bound of the digits is far too large to be computed.
attribute [local irreducible] Decimal.tenTo

mutual

theorem foldlM_tokens (j : Json) (hj : j.isLasting = true) {frames : List Frame} {e : Expecting}
    (he : ExpectsValue e) (hd : frames.length + depth j ≤ depthLimit) (ts : List Token) :
    (tokens j ++ ts).foldlM step ⟨frames, e⟩ = (complete frames j).bind (ts.foldlM step ·) := by
  match j with
  | .null | .bool _ | .int _ | .float _ | .text _ =>
    rw [← step_scalar he]
    rfl
  | .brokenText _ => cases hj
  | .brokenObject _ => cases hj
  | .list xs =>
    rw [isLasting] at hj
    rw [depth] at hd
    have h := @foldlM_tokensList xs hj frames [] _ (.inr rfl) (by omega)
      (fun _ => rfl) ts
    have ht : tokens (.list xs) ++ ts = .openList :: (tokensList xs ++ .closeList :: ts) := by
      simp [tokens]
    rw [ht, List.foldlM_cons, step_openList he (by omega)]
    exact h
  | .object fs =>
    rw [isLasting, Bool.and_eq_true, decide_eq_true_eq] at hj
    rw [depth] at hd
    have h := @foldlM_tokensFields fs hj.2 frames [] _ (.inr rfl) (by omega)
      (fun _ => rfl) ts
    have ht : tokens (.object fs) ++ ts = .openObject :: (tokensFields fs ++ .closeObject :: ts) := by
      simp [tokens]
    rw [ht, List.foldlM_cons, step_openObject he (by omega)]
    rw [List.reverse_nil, List.nil_append, ofFields_codeFields hj.1] at h
    exact h

theorem foldlM_tokensList (xs : List Json) (hj : isLastingList xs = true) {frames : List Frame}
    {items : List Json} {e : Expecting} (he : ExpectsValue e)
    (hd : frames.length + (depthList xs + 1) ≤ depthLimit) (hn : xs = [] → e = .firstItem)
    (ts : List Token) :
    (tokensList xs ++ .closeList :: ts).foldlM step ⟨.list items :: frames, e⟩ =
      (complete frames (.list (items.reverse ++ xs))).bind (ts.foldlM step ·) := by
  match xs with
  | [] =>
    obtain rfl := hn rfl
    rw [List.append_nil]
    rfl
  | [x] =>
    rw [isLastingList, Bool.and_eq_true] at hj
    rw [depthList, depthList] at hd
    have h := @foldlM_tokens x hj.1 (.list items :: frames) e he
      (by rw [List.length_cons]; omega) (.closeList :: ts)
    rw [tokensList, h, ← List.reverse_cons]
    rfl
  | x :: y :: ys =>
    rw [isLastingList, Bool.and_eq_true] at hj
    rw [depthList] at hd
    have h := @foldlM_tokens x hj.1 (.list items :: frames) e he
      (by rw [List.length_cons]; omega) (.comma :: (tokensList (y :: ys) ++ .closeList :: ts))
    have hrest := @foldlM_tokensList (y :: ys) hj.2 frames (x :: items) .value (.inl rfl) (by omega)
      (fun hnil => by cases hnil) ts
    rw [List.reverse_cons, List.append_assoc, List.singleton_append] at hrest
    rw [tokensList, List.append_assoc, List.cons_append, h, ← hrest]
    · rfl
    · simp

theorem foldlM_tokensFields (fs : List (String × Json)) (hj : isLastingFields fs = true)
    {frames : List Frame} {fields : List (List Nat × Json)} {e : Expecting} (he : ExpectsKey e)
    (hd : frames.length + (depthFields fs + 1) ≤ depthLimit) (hn : fs = [] → e = .firstKey)
    (ts : List Token) :
    (tokensFields fs ++ .closeObject :: ts).foldlM step ⟨.object fields none :: frames, e⟩ =
      (complete frames (ofFields (fields.reverse ++ codeFields fs))).bind (ts.foldlM step ·) := by
  match fs with
  | [] =>
    obtain rfl := hn rfl
    rw [codeFields, List.map_nil, List.append_nil]
    rfl
  | [(k, x)] =>
    rw [isLastingFields, Bool.and_eq_true] at hj
    rw [depthFields, depthFields] at hd
    have h := @foldlM_tokens x hj.1 (.object fields (some (Text.codes k)) :: frames) .value (.inl rfl)
      (by rw [List.length_cons]; omega) (.closeObject :: ts)
    rw [tokensFields, List.cons_append, List.cons_append, List.foldlM_cons, step_key he]
    refine h.trans ?_
    rw [codeFields, List.map_singleton, ← List.reverse_cons]
    rfl
  | (k, x) :: (l, y) :: fs =>
    rw [isLastingFields, Bool.and_eq_true] at hj
    rw [depthFields] at hd
    have h := @foldlM_tokens x hj.1 (.object fields (some (Text.codes k)) :: frames) .value (.inl rfl)
      (by rw [List.length_cons]; omega)
      (.comma :: (tokensFields ((l, y) :: fs) ++ .closeObject :: ts))
    have hrest := @foldlM_tokensFields ((l, y) :: fs) hj.2 frames ((Text.codes k, x) :: fields) .key
      (.inl rfl) (by omega) (fun hnil => by cases hnil) ts
    rw [List.reverse_cons, List.append_assoc, List.singleton_append] at hrest
    have ht : tokensFields ((k, x) :: (l, y) :: fs) ++ .closeObject :: ts =
        .scalar (.text k) :: .colon ::
          (tokens x ++ .comma :: (tokensFields ((l, y) :: fs) ++ .closeObject :: ts)) := by
      simp [tokensFields]
    rw [ht, List.foldlM_cons, step_key he]
    refine h.trans ?_
    exact hrest

end

theorem read_render {j : Json} (hj : j.isLasting = true) (hd : depth j ≤ Reader.depthLimit) :
    read j.render = .ok j := by
  have h := @foldlM_tokens j hj [] .value (.inl rfl) (by simpa using hd) []
  rw [List.append_nil] at h
  rw [read, render, String.toList_ofList, scan_write hj, readTokens]
  exact congrArg (fun r => Except.bind r State.finish) h

end NetDesc.Json
