import NetDesc.Proofs.Record.Payload

namespace NetDesc

namespace Bytes

theorem toNat_ofNat {width n : Nat} (h : n < Nat.pow 256 width) : toNat (ofNat width n) = n := by
  induction width generalizing n with
  | zero => exact (Nat.lt_one_iff.mp h).symm
  | succ width ih =>
    have hlt : n / 256 < Nat.pow 256 width := (Nat.div_lt_iff_lt_mul (by decide)).mpr h
    rw [ofNat, toNat, ih hlt]
    simp
    omega

theorem length_ofNat (width n : Nat) : (ofNat width n).length = width := by
  induction width generalizing n with
  | zero => rfl
  | succ width ih => rw [ofNat, List.length_cons, ih]

theorem isWord_iff {n : Int} : isWord n = true ↔ -0x80000000 ≤ n ∧ n < 0x80000000 := by
  cases n with
  | ofNat n =>
    rw [isWord, decide_eq_true_iff, Int.ofNat_eq_natCast]
    omega
  | negSucc n =>
    rw [isWord, decide_eq_true_iff]
    omega

theorem isWord_natCast_iff {n : Nat} : isWord n = true ↔ n < 0x80000000 := by
  rw [isWord_iff]
  omega

theorem toWord_ofWord {n : Int} (h : isWord n = true) : toWord (ofWord n) = n := by
  have hn := isWord_iff.mp h
  have hpow : Nat.pow 256 4 = 0x100000000 := rfl
  have hlt : (n % 0x100000000).toNat < Nat.pow 256 4 := by omega
  have hw : (toNat (ofWord n) : Int) = n % 0x100000000 := by
    have hb := toNat_ofNat hlt
    rw [show ofWord n = ofNat 4 (n % 0x100000000).toNat from rfl, hb]
    omega
  rw [show toWord (ofWord n) = if (toNat (ofWord n) : Int) < 0x80000000 then (toNat (ofWord n) : Int)
    else toNat (ofWord n) - 0x100000000 from rfl, hw]
  split <;> omega

theorem length_ofWord (n : Int) : (ofWord n).length = 4 :=
  length_ofNat 4 _

theorem toDouble_ofDouble (x : Decimal.Double) : toDouble (ofDouble x) = x := by
  have hlt : x.bits.toNat < Nat.pow 256 8 := Nat.lt_of_lt_of_eq x.bits.toNat_lt (by decide)
  rw [toDouble, ofDouble, toNat_ofNat hlt, UInt64.ofNat_toNat]

theorem toText?_ofText (s : String) : toText? (ofText s) = some s := by
  have hb : (⟨(ofText s).toArray⟩ : ByteArray) = s.toByteArray := by simp [ofText]
  rw [toText?, hb, String.fromUTF8?, dif_pos s.isValidUTF8]
  rfl

end Bytes

/-- The bytes are read as the value, whatever follows them. -/
def Reader.Reads {α : Type} (r : Reader α) (bs : Bytes) (x : α) : Prop :=
  ∀ rest, r.run (bs ++ rest) = (.ok x, rest)

namespace Reader

variable {α β : Type} {r : Reader α} {f : α → Reader β} {a b : Bytes} {x : α} {y : β}

theorem run_bind (r : Reader α) (f : α → Reader β) (bs : Bytes) :
    run (r >>= f) bs =
      match run r bs with
      | (.ok x, rest) => run (f x) rest
      | (.error e, rest) => (.error e, rest) := by
  have hb : run (r >>= f) bs = ExceptT.bindCont f (run r bs).1 (run r bs).2 := rfl
  rw [hb]
  rcases run r bs with ⟨x | e, rest⟩ <;> rfl

theorem Reads.bind (h : r.Reads a x) (hf : (f x).Reads b y) : (r >>= f).Reads (a ++ b) y := by
  intro rest
  rw [List.append_assoc, run_bind, h]
  exact hf rest

theorem reads_pure (x : α) : (pure x : Reader α).Reads [] x := fun _ => rfl

theorem Reads.andThen (h : r.Reads a x) (hf : (f x).Reads [] y) : (r >>= f).Reads a y := by
  have hb := h.bind hf
  rwa [List.append_nil] at hb

theorem Reads.map (h : r.Reads a x) (g : α → β) : (r >>= fun x => pure (g x)).Reads a (g x) :=
  h.andThen (reads_pure (g x))

theorem reads_result {x : α} {result : Result α} (h : result = .ok x) :
    Reads (ExceptT.mk (pure result) : Reader α) [] x := by
  rw [h]
  exact reads_pure x

theorem run_take (n : Nat) (left : Bytes) : run (take n) left =
    if (left.take n).length < n then
      (.error (.undecodable (.truncated n (left.take n).length)), left.drop n)
    else (.ok (left.take n), left.drop n) := by
  have hb : run (take n) left = run (if (left.take n).length < n then
      throw (.undecodable (.truncated n (left.take n).length)) else pure (left.take n))
      (left.drop n) := rfl
  rw [hb]
  split <;> rfl

theorem reads_take (bs : Bytes) : (take bs.length).Reads bs bs := by
  intro rest
  rw [run_take, List.take_left, List.drop_left, if_neg (Nat.lt_irrefl _)]

theorem reads_take_of_length {n : Nat} (h : a.length = n) : (take n).Reads a a :=
  h ▸ reads_take a

theorem reads_int {n : Int} (h : Bytes.isWord n = true) : int.Reads (Bytes.ofWord n) n := by
  have hr := (reads_take_of_length (Bytes.length_ofWord n)).map Bytes.toWord
  rwa [Bytes.toWord_ofWord h] at hr

end Reader

namespace Writer

variable {α β : Type}

def Mirrors (w : Writer Unit) (r : Reader α) (x : α) : Prop :=
  w.ending = .ok () → r.Reads w.bytes x

variable {w w' : Writer Unit} {r : Reader α} {f : α → Reader β} {x : α} {y : β}

theorem ending_bind (h : (w >>= fun _ => w').ending = .ok ()) :
    w.ending = .ok () ∧ w'.ending = .ok () ∧
      (w >>= fun _ => w').bytes = w.bytes ++ w'.bytes := by
  obtain ⟨ending, bytes⟩ := w
  cases ending with
  | error e => cases h
  | ok u => exact ⟨rfl, h, rfl⟩

theorem ending_bind_iff :
    (w >>= fun _ => w').ending = .ok () ↔ w.ending = .ok () ∧ w'.ending = .ok () := by
  constructor
  · intro h
    exact ⟨(ending_bind h).1, (ending_bind h).2.1⟩
  · rintro ⟨hw, hw'⟩
    obtain ⟨ending, bytes⟩ := w
    cases hw
    exact hw'

theorem ending_int_iff {n : Int} : (int n).ending = .ok () ↔ Bytes.isWord n = true := by
  rw [int]
  split
  · next h => exact iff_of_true rfl h
  · next h =>
    refine iff_of_false (fun he => ?_) h
    cases he

theorem ending_length_iff {n : Nat} : (int n).ending = .ok () ↔ n < 0x80000000 :=
  ending_int_iff.trans Bytes.isWord_natCast_iff

theorem ending_forM_iff {write : α → Writer Unit} {xs : List α} :
    (xs.forM write).ending = .ok () ↔ ∀ x ∈ xs, (write x).ending = .ok () := by
  induction xs with
  | nil => exact iff_of_true rfl (List.forall_mem_nil _)
  | cons x xs ih =>
    rw [List.forall_mem_cons, ← ih]
    exact ending_bind_iff

theorem ending_list_iff {write : α → Writer Unit} {xs : List α} : (list write xs).ending = .ok () ↔
    xs.length < 0x80000000 ∧ ∀ x ∈ xs, (write x).ending = .ok () := by
  refine ending_bind_iff.trans ?_
  rw [ending_length_iff, ending_forM_iff]

theorem bind_assoc (w v : Writer Unit) (u : Writer Unit) :
    ((w >>= fun _ => v) >>= fun _ => u) = (w >>= fun _ => v >>= fun _ => u) := by
  obtain ⟨_ | _, a⟩ := w
  · rfl
  obtain ⟨_ | _, b⟩ := v
  · rfl
  exact congrArg (Writer.mk u.ending) (List.append_assoc a b u.bytes)

theorem forM_append (write : α → Writer Unit) (xs ys : List α) :
    (xs ++ ys).forM write = (xs.forM write >>= fun _ => ys.forM write) := by
  induction xs with
  | nil => rfl
  | cons x xs ih =>
    change (write x >>= fun _ => (xs ++ ys).forM write) =
      ((write x >>= fun _ => xs.forM write) >>= fun _ => ys.forM write)
    rw [ih, bind_assoc]

theorem Mirrors.bind (h : Mirrors w r x) (hf : Mirrors w' (f x) y) :
    Mirrors (w >>= fun _ => w') (r >>= f) y := by
  intro he
  obtain ⟨hw, hw', hb⟩ := ending_bind he
  rw [hb]
  exact (h hw).bind (hf hw')

theorem Mirrors.map (h : Mirrors w r x) (g : α → β) : Mirrors w (r >>= fun x => pure (g x)) (g x) :=
  fun he => (h he).map g

theorem mirrors_pure (x : α) : Mirrors (pure ()) (pure x) x := fun _ => Reader.reads_pure x

theorem Mirrors.andThen (h : Mirrors w r x) (hf : (f x).Reads [] y) : Mirrors w (r >>= f) y :=
  fun he => (h he).andThen hf

theorem mirrors_int (n : Int) : Mirrors (Writer.int n) Reader.int n := by
  intro he
  have hw : Bytes.isWord n = true := by
    rw [Writer.int] at he
    split at he
    · next h => exact h
    · cases he
  have hb : (Writer.int n).bytes = Bytes.ofWord n := by
    rw [Writer.int, if_pos hw]
    rfl
  rw [hb]
  exact Reader.reads_int hw

theorem mirrors_double (x : Decimal.Double) : Mirrors (Writer.double x) Reader.double x := by
  intro _
  have hr := (Reader.reads_take_of_length (Bytes.length_ofNat 8 x.bits.toNat)).map Bytes.toDouble
  rw [show Bytes.toDouble (Bytes.ofNat 8 x.bits.toNat) = x from Bytes.toDouble_ofDouble x] at hr
  exact hr

theorem mirrors_bool (b : Bool) : Mirrors (Writer.bool b) Reader.bool b := by
  intro _
  have hr := (Reader.reads_take_of_length
    (show [if b then (1 : UInt8) else 0].length = 1 from rfl)).map (fun bs => bs != [0])
  have hb : ([if b then (1 : UInt8) else 0] != [0]) = b := by cases b <;> rfl
  rw [hb] at hr
  exact hr

theorem mirrors_utf8 (s : String) :
    Mirrors (emit (Bytes.ofText s)) (Reader.utf8 (Bytes.ofText s).length) s := by
  intro _
  refine (Reader.reads_take (Bytes.ofText s)).andThen ?_
  rw [Bytes.toText?_ofText]
  exact Reader.reads_pure s

theorem mirrors_text? (s : Option String) : Mirrors (Writer.text? s) Reader.text? s := by
  cases s with
  | none => exact (mirrors_int (-1)).andThen (Reader.reads_pure none)
  | some s =>
    have hlt : ¬ (((Bytes.ofText s).length : Int) < 0) := by omega
    refine (mirrors_int (Bytes.ofText s).length).bind ?_
    rw [if_neg hlt]
    exact (mirrors_utf8 s).map some

theorem mirrors_text (s : String) : Mirrors (Writer.text s) Reader.text s :=
  (mirrors_text? (some s)).map fun t => t.getD ""

theorem mirrors_count (n : Nat) : Mirrors (Writer.int n) Reader.count n := by
  refine (mirrors_int n).andThen ?_
  have hlt : ¬ ((n : Int) < 0) := by omega
  rw [if_neg hlt]
  exact Reader.reads_pure n

theorem mirrors_times {write : α → Writer Unit} {read : Reader β} {g : α → β} {xs : List α}
    (h : ∀ x ∈ xs, Mirrors (write x) read (g x)) :
    Mirrors (xs.forM write) (Reader.times read xs.length) (xs.map g) := by
  induction xs with
  | nil => exact mirrors_pure []
  | cons x xs ih =>
    have hx := h x (List.mem_cons_self ..)
    have hxs := ih fun y hy => h y (List.mem_cons_of_mem x hy)
    exact hx.bind (hxs.map fun ys => g x :: ys)

theorem mirrors_list {write : α → Writer Unit} {read : Reader β} {g : α → β} {xs : List α}
    (h : ∀ x ∈ xs, Mirrors (write x) read (g x)) :
    Mirrors (Writer.list write xs) (Reader.list read) (xs.map g) := by
  exact (mirrors_count xs.length).bind (mirrors_times h)

theorem mirrors_texts (xs : List String) : Mirrors (Writer.texts xs) Reader.texts xs := by
  have h := mirrors_list (g := id) fun x (_ : x ∈ xs) => mirrors_text x
  rwa [List.map_id] at h

theorem mirrors_doubles (xs : List Decimal.Double) :
    Mirrors (Writer.doubles xs) Reader.doubles xs := by
  have h := mirrors_list (g := id) fun x (_ : x ∈ xs) => mirrors_double x
  rwa [List.map_id] at h

theorem mirrors_bools (xs : List Bool) : Mirrors (Writer.bools xs) Reader.bools xs := by
  have h := mirrors_list (g := id) fun x (_ : x ∈ xs) => mirrors_bool x
  rwa [List.map_id] at h

theorem record_of_ending {r : Record} (he : (Writer.record r).ending = .ok ()) :
    (Json.object r.toJson).isWritable = true ∧
      Writer.record r = Writer.text (Json.object r.toJson).render := by
  by_cases hw : (Json.object r.toJson).isWritable = true
  · exact ⟨hw, if_pos hw⟩
  · rw [show Writer.record r = ofResult (.error (.badLiteral .unwritten)) from if_neg hw] at he
    cases he

theorem mirrors_record {c : RecordClass} {r : Record} (h : r.fits Json.isNumeric c = true) :
    Mirrors (Writer.record r) (Reader.record c) (r.reread .json) := by
  intro he
  obtain ⟨hw, ht⟩ := record_of_ending he
  rw [ht] at he ⊢
  exact (mirrors_text _).andThen (Reader.reads_result (Reader.recordOfText_render h hw)) he

theorem mirrors_records {c : RecordClass} {rs : List Record}
    (h : ∀ r ∈ rs, r.fits Json.isNumeric c = true) :
    Mirrors (Writer.records rs) (Reader.records c) (rs.map (Record.reread .json)) :=
  mirrors_list fun r hr => mirrors_record (h r hr)

end Writer

end NetDesc
