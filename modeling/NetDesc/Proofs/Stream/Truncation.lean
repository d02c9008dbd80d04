import NetDesc.Proofs.Stream.Mirror

namespace NetDesc

namespace Reader

variable {α β : Type} {r : Reader α} {f : α → Reader β}

def IsCut (outcome : Result α × Bytes) : Prop :=
  ∃ wanted got, got < wanted ∧ outcome.1 = .error (.undecodable (.truncated wanted got))

/-- On the first part of bytes that it accepts, the reader finds what it finds in all of them, or it
misses bytes. -/
def Steady (r : Reader α) : Prop :=
  ∀ first second x left, r.run (first ++ second) = (.ok x, left) →
    (∃ rest, r.run first = (.ok x, rest) ∧ left = rest ++ second) ∨ IsCut (r.run first)

theorem steady_result (result : Result α) : Steady (ExceptT.mk (pure result) : Reader α) := by
  intro first second x left h
  obtain ⟨hx, rfl⟩ := Prod.mk.inj h
  exact .inl ⟨first, Prod.ext hx rfl, rfl⟩

theorem steady_pure (x : α) : (pure x : Reader α).Steady :=
  steady_result (.ok x)

theorem steady_throw (e : Failure) : (throw e : Reader α).Steady :=
  steady_result (.error e)

theorem Steady.bind (h : r.Steady) (hf : ∀ x, (f x).Steady) : (r >>= f).Steady := by
  intro first second y left hr
  rw [run_bind] at hr
  split at hr
  · next x middle hx =>
    rcases h first second x middle hx with ⟨rest, hrest, rfl⟩ | ⟨wanted, got, hlt, hcut⟩
    · rw [run_bind, hrest]
      exact hf x rest second y left hr
    · right
      refine ⟨wanted, got, hlt, ?_⟩
      rw [run_bind]
      split
      · next hok =>
        rw [hok] at hcut
        cases hcut
      · next e rest he =>
        rw [he] at hcut
        cases hcut
        rfl
  · cases hr

theorem Steady.map (h : r.Steady) (g : α → β) : (r >>= fun x => pure (g x)).Steady :=
  h.bind fun x => steady_pure (g x)

theorem steady_take (n : Nat) : (take n).Steady := by
  intro first second x left h
  rw [run_take] at h
  split at h
  · cases h
  cases h
  by_cases hn : n ≤ first.length
  · left
    refine ⟨first.drop n, ?_, List.drop_append_of_le_length hn⟩
    have hlength : ¬ (first.take n).length < n := by
      rw [List.length_take]
      omega
    rw [run_take, if_neg hlength, List.take_append_of_le_length hn]
  · right
    rw [Nat.not_le] at hn
    refine ⟨n, first.length, hn, ?_⟩
    rw [run_take, List.take_of_length_le (Nat.le_of_lt hn), if_pos hn]

theorem steady_int : int.Steady :=
  (steady_take 4).map Bytes.toWord

theorem steady_double : double.Steady :=
  (steady_take 8).map Bytes.toDouble

theorem steady_bool : bool.Steady :=
  (steady_take 1).map (· != [0])

theorem steady_utf8 (n : Nat) : (utf8 n).Steady := by
  refine (steady_take n).bind fun bs => ?_
  split
  · exact steady_pure _
  · exact steady_throw _

theorem steady_text? : text?.Steady := by
  refine steady_int.bind fun n => ?_
  split
  · exact steady_pure none
  · exact (steady_utf8 n.toNat).map some

theorem steady_text : text.Steady :=
  steady_text?.map fun t => t.getD ""

theorem steady_count : count.Steady := by
  refine steady_int.bind fun n => ?_
  split
  · exact steady_throw _
  · exact steady_pure n.toNat

theorem Steady.times (h : r.Steady) (n : Nat) : (times r n).Steady := by
  induction n with
  | zero => exact steady_pure []
  | succ n ih => exact h.bind fun x => ih.map fun xs => x :: xs

theorem Steady.list (h : r.Steady) : (list r).Steady :=
  steady_count.bind fun n => h.times n

theorem steady_record (c : RecordClass) : (record c).Steady :=
  steady_text.bind fun payload => steady_result (recordOfText c payload)

theorem Steady.isCut (h : r.Steady) {bs first : Bytes} {x : α} (hr : r.run bs = (.ok x, []))
    (hp : first <+: bs) (hne : first ≠ bs) : IsCut (r.run first) := by
  obtain ⟨second, rfl⟩ := hp
  refine (h first second x [] hr).resolve_left ?_
  rintro ⟨rest, -, hrest⟩
  obtain ⟨-, rfl⟩ := List.append_eq_nil_iff.mp hrest.symm
  exact hne (List.append_nil first).symm

def Drains (r : Reader α) : Prop :=
  ∀ bs, IsCut (r.run bs) → (r.run bs).2 = []

theorem drains_result {result : Result α}
    (h : ∀ wanted got, result ≠ .error (.undecodable (.truncated wanted got))) :
    Drains (ExceptT.mk (pure result) : Reader α) := by
  rintro bs ⟨wanted, got, -, hcut⟩
  exact absurd hcut (h wanted got)

theorem drains_pure (x : α) : (pure x : Reader α).Drains :=
  drains_result nofun

theorem drains_throw {e : Failure} (h : ∀ wanted got, e ≠ .undecodable (.truncated wanted got)) :
    (throw e : Reader α).Drains :=
  drains_result fun wanted got he => h wanted got (Except.error.inj he)

theorem Drains.bind (h : r.Drains) (hf : ∀ x, (f x).Drains) : (r >>= f).Drains := by
  intro bs hcut
  rw [run_bind] at hcut ⊢
  split
  · next x rest hx =>
    rw [hx] at hcut
    exact hf x rest hcut
  · next e rest he =>
    rw [he] at hcut
    obtain ⟨wanted, got, hlt, hcut⟩ := hcut
    cases hcut
    have hr := h bs ⟨wanted, got, hlt, by rw [he]⟩
    rwa [he] at hr

theorem Drains.map (h : r.Drains) (g : α → β) : (r >>= fun x => pure (g x)).Drains :=
  h.bind fun x => drains_pure (g x)

theorem drains_take (n : Nat) : (take n).Drains := by
  intro bs hcut
  rw [run_take] at hcut ⊢
  split
  · next hlt =>
    rw [List.length_take] at hlt
    exact List.drop_of_length_le (by omega)
  · next hlt =>
    rw [if_neg hlt] at hcut
    obtain ⟨wanted, got, -, hcut⟩ := hcut
    cases hcut

theorem drains_int : int.Drains :=
  (drains_take 4).map Bytes.toWord

theorem drains_double : double.Drains :=
  (drains_take 8).map Bytes.toDouble

theorem drains_bool : bool.Drains :=
  (drains_take 1).map (· != [0])

theorem drains_utf8 (n : Nat) : (utf8 n).Drains := by
  refine (drains_take n).bind fun bs => ?_
  split
  · exact drains_pure _
  · exact drains_throw nofun

theorem drains_text? : text?.Drains := by
  refine drains_int.bind fun n => ?_
  split
  · exact drains_pure none
  · exact (drains_utf8 n.toNat).map some

theorem drains_text : text.Drains :=
  drains_text?.map fun t => t.getD ""

theorem drains_count : count.Drains := by
  refine drains_int.bind fun n => ?_
  split
  · exact drains_throw nofun
  · exact drains_pure n.toNat

theorem Drains.times (h : r.Drains) (n : Nat) : (times r n).Drains := by
  induction n with
  | zero => exact drains_pure []
  | succ n ih => exact h.bind fun x => ih.map fun xs => x :: xs

theorem Drains.list (h : r.Drains) : (list r).Drains :=
  drains_count.bind fun n => h.times n

end Reader

namespace Writer

variable {α β : Type} {w w' : Writer Unit} {r : Reader α} {f : α → Reader β} {x : α}

/-- Where the bytes of the writer are accepted, the reader takes these bytes and no others. -/
def Spans (w : Writer Unit) (r : Reader α) : Prop :=
  w.ending = .ok () → ∀ rest x left, r.run (w.bytes ++ rest) = (.ok x, left) → left = rest

theorem Mirrors.spans (h : Mirrors w r x) : Spans w r := by
  intro he rest y left hr
  rw [h he] at hr
  cases hr
  rfl

theorem Spans.bind (h : Spans w r) (hf : ∀ x, Spans w' (f x)) :
    Spans (w >>= fun _ => w') (r >>= f) := by
  intro he rest y left hr
  obtain ⟨hw, hw', hb⟩ := ending_bind he
  rw [hb, List.append_assoc, Reader.run_bind] at hr
  split at hr
  · next x middle hx =>
    obtain rfl := h hw _ x middle hx
    exact hf x hw' rest y left hr
  · cases hr

theorem Mirrors.spans_bind (h : Mirrors w r x) (hf : Spans w' (f x)) :
    Spans (w >>= fun _ => w') (r >>= f) := by
  intro he rest y left hr
  obtain ⟨hw, hw', hb⟩ := ending_bind he
  rw [hb, List.append_assoc, Reader.run_bind, h hw] at hr
  exact hf hw' rest y left hr

theorem Spans.result (h : Spans w r) (g : α → Result β) :
    Spans w (r >>= fun x => ExceptT.mk (pure (g x))) := by
  intro he rest y left hr
  rw [Reader.run_bind] at hr
  split at hr
  · next x middle hx =>
    obtain rfl := h he rest x middle hx
    exact (Prod.mk.inj hr).2.symm
  · cases hr

theorem Spans.map (h : Spans w r) (g : α → β) : Spans w (r >>= fun x => pure (g x)) :=
  h.result fun x => .ok (g x)

theorem spans_times {write : α → Writer Unit} {read : Reader β} {xs : List α}
    (h : ∀ x ∈ xs, Spans (write x) read) : Spans (xs.forM write) (Reader.times read xs.length) := by
  induction xs with
  | nil => exact (mirrors_pure []).spans
  | cons x xs ih =>
    have hx := h x (List.mem_cons_self ..)
    have hxs := ih fun y hy => h y (List.mem_cons_of_mem x hy)
    exact hx.bind fun y => hxs.map fun ys => y :: ys

theorem spans_list {write : α → Writer Unit} {read : Reader β} {xs : List α}
    (h : ∀ x ∈ xs, Spans (write x) read) : Spans (Writer.list write xs) (Reader.list read) :=
  (mirrors_count xs.length).spans_bind (spans_times h)

theorem spans_record (c : RecordClass) (r : Record) : Spans (Writer.record r) (Reader.record c) := by
  intro he
  obtain ⟨-, ht⟩ := record_of_ending he
  rw [ht] at he ⊢
  exact (mirrors_text _).spans.result (Reader.recordOfText c) he

theorem spans_records (c : RecordClass) (rs : List Record) :
    Spans (Writer.records rs) (Reader.records c) :=
  spans_list fun r _ => spans_record c r

end Writer

end NetDesc
