import Mathlib.Data.Nat.Find
import NetDesc.Proofs.Stream.Truncation

namespace NetDesc

namespace Writer

variable {w w' : Writer Unit}

theorem bytes_bind (h : w.ending = .ok ()) : (w >>= fun _ => w').bytes = w.bytes ++ w'.bytes := by
  obtain ⟨ending, bytes⟩ := w
  cases h
  rfl

theorem ending_text_iff {s : String} :
    (text s).ending = .ok () ↔ (Bytes.ofText s).length < 0x80000000 := by
  have hemit : (emit (Bytes.ofText s)).ending = .ok () := rfl
  refine ending_bind_iff.trans ?_
  rw [ending_length_iff, and_iff_left hemit]

end Writer

inductive Primitive where
  | int (n : Int)
  | double (x : Decimal.Double)
  | bool (b : Bool)
  | text (s : Option String)
  | texts (xs : List String)
  | doubles (xs : List Decimal.Double)
  | bools (xs : List Bool)
deriving DecidableEq, Repr

namespace Primitive

inductive Kind where
  | int
  | double
  | bool
  | text
  | texts
  | doubles
  | bools
deriving DecidableEq, Repr

def kind : Primitive → Kind
  | .int _ => .int
  | .double _ => .double
  | .bool _ => .bool
  | .text _ => .text
  | .texts _ => .texts
  | .doubles _ => .doubles
  | .bools _ => .bools

def write : Primitive → Writer Unit
  | .int n => Writer.int n
  | .double x => Writer.double x
  | .bool b => Writer.bool b
  | .text s => Writer.text? s
  | .texts xs => Writer.texts xs
  | .doubles xs => Writer.doubles xs
  | .bools xs => Writer.bools xs

/-- The limits of a stream: numbers of 32 bits with a sign, and lengths that are such numbers. A text
is as long as its bytes are many. -/
def Fits : Primitive → Prop
  | .int n => -0x80000000 ≤ n ∧ n < 0x80000000
  | .double _ => True
  | .bool _ => True
  | .text s => ∀ t ∈ s, (Bytes.ofText t).length < 0x80000000
  | .texts xs => xs.length < 0x80000000 ∧ ∀ t ∈ xs, (Bytes.ofText t).length < 0x80000000
  | .doubles xs => xs.length < 0x80000000
  | .bools xs => xs.length < 0x80000000

instance : DecidablePred Fits
  | .int _ => inferInstanceAs (Decidable (_ ∧ _))
  | .double _ => inferInstanceAs (Decidable True)
  | .bool _ => inferInstanceAs (Decidable True)
  | .text s => inferInstanceAs (Decidable (∀ t ∈ s, (Bytes.ofText t).length < 0x80000000))
  | .texts _ => inferInstanceAs (Decidable (_ ∧ _))
  | .doubles xs => inferInstanceAs (Decidable (xs.length < 0x80000000))
  | .bools xs => inferInstanceAs (Decidable (xs.length < 0x80000000))

theorem ending_write_iff {v : Primitive} : v.write.ending = .ok () ↔ v.Fits := by
  cases v with
  | int n => exact Writer.ending_int_iff.trans Bytes.isWord_iff
  | double x => exact iff_of_true rfl trivial
  | bool b => exact iff_of_true rfl trivial
  | text s =>
    cases s with
    | none => exact iff_of_true rfl nofun
    | some s =>
      simp only [Fits, Option.mem_some_iff, forall_eq']
      exact Writer.ending_text_iff
  | texts xs =>
    refine Writer.ending_list_iff.trans (and_congr_right fun _ => ?_)
    exact forall₂_congr fun t _ => Writer.ending_text_iff
  | doubles xs =>
    refine Writer.ending_list_iff.trans ?_
    exact and_iff_left fun x _ => rfl
  | bools xs =>
    refine Writer.ending_list_iff.trans ?_
    exact and_iff_left fun b _ => rfl

namespace Kind

def read : Kind → Reader Primitive
  | .int => return .int (← Reader.int)
  | .double => return .double (← Reader.double)
  | .bool => return .bool (← Reader.bool)
  | .text => return .text (← Reader.text?)
  | .texts => return .texts (← Reader.texts)
  | .doubles => return .doubles (← Reader.doubles)
  | .bools => return .bools (← Reader.bools)

/-- The outcomes of reads one after another, each with the bytes that it leaves. A read begins where
the one before it has stopped, whether or not that one has failed. -/
def readEach : List Kind → Bytes → List (Result Primitive × Bytes)
  | [], _ => []
  | k :: ks, bs => k.read.run bs :: readEach ks (k.read.run bs).2

theorem steady_read (k : Kind) : k.read.Steady := by
  cases k with
  | int => exact Reader.steady_int.map Primitive.int
  | double => exact Reader.steady_double.map Primitive.double
  | bool => exact Reader.steady_bool.map Primitive.bool
  | text => exact Reader.steady_text?.map Primitive.text
  | texts => exact Reader.steady_text.list.map Primitive.texts
  | doubles => exact Reader.steady_double.list.map Primitive.doubles
  | bools => exact Reader.steady_bool.list.map Primitive.bools

theorem drains_read (k : Kind) : k.read.Drains := by
  cases k with
  | int => exact Reader.drains_int.map Primitive.int
  | double => exact Reader.drains_double.map Primitive.double
  | bool => exact Reader.drains_bool.map Primitive.bool
  | text => exact Reader.drains_text?.map Primitive.text
  | texts => exact Reader.drains_text.list.map Primitive.texts
  | doubles => exact Reader.drains_double.list.map Primitive.doubles
  | bools => exact Reader.drains_bool.list.map Primitive.bools

theorem isCut_nil (k : Kind) : Reader.IsCut (k.read.run []) := by
  cases k
  case double => exact ⟨8, 0, by decide, rfl⟩
  case bool => exact ⟨1, 0, by decide, rfl⟩
  all_goals exact ⟨4, 0, by decide, rfl⟩

end Kind

theorem mirrors_write (v : Primitive) : Writer.Mirrors v.write v.kind.read v := by
  cases v with
  | int n => exact (Writer.mirrors_int n).map Primitive.int
  | double x => exact (Writer.mirrors_double x).map Primitive.double
  | bool b => exact (Writer.mirrors_bool b).map Primitive.bool
  | text s => exact (Writer.mirrors_text? s).map Primitive.text
  | texts xs => exact (Writer.mirrors_texts xs).map Primitive.texts
  | doubles xs => exact (Writer.mirrors_doubles xs).map Primitive.doubles
  | bools xs => exact (Writer.mirrors_bools xs).map Primitive.bools

variable {v : Primitive} {vs : List Primitive} {bs first : Bytes} {i : Nat}

theorem run_append (h : v.Fits) (left : Bytes) :
    v.kind.read.run (v.write.bytes ++ left) = (.ok v, left) :=
  mirrors_write v (ending_write_iff.mpr h) left

theorem isCut_run (h : v.Fits) (hp : bs <+: v.write.bytes) (hne : bs ≠ v.write.bytes) :
    Reader.IsCut (v.kind.read.run bs) := by
  have hwhole := run_append h []
  rw [List.append_nil] at hwhole
  exact v.kind.steady_read.isCut hwhole hp hne

theorem ending_forM_write_iff : (vs.forM write).ending = .ok () ↔ ∀ v ∈ vs, v.Fits :=
  Writer.ending_forM_iff.trans (forall₂_congr fun _ _ => ending_write_iff)

def bytes (vs : List Primitive) : Bytes :=
  (vs.forM write).bytes

theorem bytes_nil : bytes [] = [] := rfl

theorem bytes_cons (h : v.Fits) (vs : List Primitive) :
    bytes (v :: vs) = v.write.bytes ++ bytes vs :=
  Writer.bytes_bind (ending_write_iff.mpr h)

theorem bytes_append (h : ∀ v ∈ vs, v.Fits) (ws : List Primitive) :
    bytes (vs ++ ws) = bytes vs ++ bytes ws := by
  rw [bytes, Writer.forM_append, Writer.bytes_bind (ending_forM_write_iff.mpr h), bytes, bytes]

theorem isPrefix_bytes_take (h : ∀ v ∈ vs, v.Fits) {m n : Nat} (hmn : m ≤ n) :
    bytes (vs.take m) <+: bytes (vs.take n) := by
  obtain ⟨ws, hws⟩ : vs.take m <+: vs.take n := List.take_prefix_take_left hmn
  rw [← hws, bytes_append fun v hv => h v (List.mem_of_mem_take hv)]
  exact List.prefix_append _ _

/-- The read at `i` returns the value at `i`, and by then those bytes are taken that were there when it
had been written. -/
def IsFound (vs : List Primitive) (bs : Bytes) (i : Nat) : Prop :=
  ∃ v left, vs[i]? = some v ∧ (Kind.readEach (vs.map kind) bs)[i]? = some (.ok v, left) ∧
    bytes (vs.take (i + 1)) ++ left = bs

def IsMissed (vs : List Primitive) (bs : Bytes) (i : Nat) : Prop :=
  ∃ outcome, (Kind.readEach (vs.map kind) bs)[i]? = some outcome ∧ Reader.IsCut outcome

theorem isFound_zero (h : v.Fits) (vs : List Primitive) (left : Bytes) :
    IsFound (v :: vs) (v.write.bytes ++ left) 0 := by
  refine ⟨v, left, rfl, ?_, ?_⟩
  · rw [List.map_cons, Kind.readEach, List.getElem?_cons_zero, run_append h]
  · rw [List.take_succ_cons, bytes_cons h, List.take_zero, bytes_nil, List.append_nil]

theorem IsFound.succ {left : Bytes} (hf : IsFound vs left i) (h : v.Fits) :
    IsFound (v :: vs) (v.write.bytes ++ left) (i + 1) := by
  obtain ⟨w, rest, hw, hread, hb⟩ := hf
  refine ⟨w, rest, hw, ?_, ?_⟩
  · rw [List.map_cons, Kind.readEach, List.getElem?_cons_succ, run_append h, hread]
  · rw [List.take_succ_cons, bytes_cons h, List.append_assoc, hb]

theorem IsFound.isPrefix (hf : IsFound vs bs i) : bytes (vs.take (i + 1)) <+: bs := by
  obtain ⟨v, left, -, -, hb⟩ := hf
  exact ⟨left, hb⟩

theorem isMissed_zero (h : Reader.IsCut (v.kind.read.run bs)) (vs : List Primitive) :
    IsMissed (v :: vs) bs 0 :=
  ⟨_, rfl, h⟩

theorem IsMissed.succ {left : Bytes} (hm : IsMissed vs left i) (h : (v.kind.read.run bs).2 = left) :
    IsMissed (v :: vs) bs (i + 1) := by
  rwa [← h] at hm

theorem isMissed_nil (hi : i < vs.length) : IsMissed vs [] i := by
  induction vs generalizing i with
  | nil => exact absurd hi (Nat.not_lt_zero i)
  | cons v vs ih =>
    have hcut := v.kind.isCut_nil
    cases i with
    | zero => exact isMissed_zero hcut vs
    | succ i => exact (ih (Nat.lt_of_succ_lt_succ hi)).succ (v.kind.drains_read [] hcut)

theorem found_or_missed (h : ∀ v ∈ vs, v.Fits) {rest : Bytes} (hp : bs <+: bytes vs ++ rest)
    (hi : i < vs.length) :
    IsFound vs bs i ∨ ¬ bytes (vs.take (i + 1)) <+: bs ∧ IsMissed vs bs i := by
  induction vs generalizing bs i with
  | nil => exact absurd hi (Nat.not_lt_zero i)
  | cons v vs ih =>
    obtain ⟨hv, hvs⟩ := List.forall_mem_cons.mp h
    rw [bytes_cons hv, List.append_assoc] at hp
    rw [List.take_succ_cons, bytes_cons hv]
    by_cases hw : v.write.bytes <+: bs
    · obtain ⟨left, rfl⟩ := hw
      rw [List.prefix_append_right_inj] at hp ⊢
      cases i with
      | zero => exact .inl (isFound_zero hv vs left)
      | succ i =>
        rcases ih hvs hp (Nat.lt_of_succ_lt_succ hi) with hfound | ⟨hb, hmissed⟩
        · exact .inl (hfound.succ hv)
        · exact .inr ⟨hb, hmissed.succ (by rw [run_append hv])⟩
    · right
      refine ⟨fun hb => hw ((List.prefix_append _ _).trans hb), ?_⟩
      have hpart : bs <+: v.write.bytes :=
        (List.prefix_or_prefix_of_prefix hp (List.prefix_append _ _)).resolve_right hw
      have hcut := isCut_run hv hpart fun he => hw (he ▸ List.prefix_refl _)
      -- The failed read has taken what was left, so that nothing is there for those after it.
      cases i with
      | zero => exact isMissed_zero hcut vs
      | succ i =>
        exact (isMissed_nil (Nat.lt_of_succ_lt_succ hi)).succ (v.kind.drains_read bs hcut)

theorem isFound_append (h : ∀ v ∈ vs, v.Fits) (rest : Bytes) (hi : i < vs.length) :
    IsFound vs (bytes vs ++ rest) i := by
  refine (found_or_missed h (List.prefix_refl _) hi).resolve_right fun hmissed => ?_
  have hb := isPrefix_bytes_take h (Nat.succ_le_of_lt hi)
  rw [List.take_length] at hb
  exact hmissed.1 (hb.trans (List.prefix_append _ _))

theorem exists_first_missed (h : ∀ v ∈ vs, v.Fits) (hp : first <+: bytes vs) (hne : first ≠ bytes vs) :
    ∃ i < vs.length, (∀ j < i, IsFound vs first j) ∧
      ∀ j, i ≤ j → j < vs.length → IsMissed vs first j := by
  have hfirst : first <+: bytes vs ++ [] := by rwa [List.append_nil]
  have hpos : 0 < vs.length := by
    rw [List.length_pos_iff]
    rintro rfl
    exact hne (List.prefix_nil.mp hp)
  have hlast : ¬ bytes (vs.take (vs.length - 1 + 1)) <+: first := by
    rw [Nat.sub_add_cancel hpos, List.take_length]
    intro hb
    exact hne (hp.eq_of_length_le hb.length_le)
  -- The place is that of the first value whose bytes are not all there.
  have hex : ∃ i, ¬ bytes (vs.take (i + 1)) <+: first := ⟨_, hlast⟩
  have hlt : Nat.find hex < vs.length := by
    have hle := Nat.find_min' hex hlast
    omega
  refine ⟨Nat.find hex, hlt, fun j hj => ?_, fun j hij hj => ?_⟩
  · have hb := not_not.mp (Nat.find_min hex hj)
    exact (found_or_missed h hfirst (Nat.lt_trans hj hlt)).resolve_right fun hmissed => hmissed.1 hb
  · rcases found_or_missed h hfirst hj with hfound | ⟨-, hmissed⟩
    · have hb := (isPrefix_bytes_take h (Nat.succ_le_succ hij)).trans hfound.isPrefix
      exact absurd hb (Nat.find_spec hex)
    · exact hmissed

/-- Whatever fits into a stream is written, and read in the same order it is found again: each value is
the same, and each read ends where the writing of its value has ended, whatever comes after the last.
Where the stream breaks off, all values before some place are found so, and from there on every read
misses bytes. -/
theorem readEach_forM_write (h : ∀ v ∈ vs, v.Fits) :
    (vs.forM write).ending = .ok () ∧
      (∀ rest, ∀ i < vs.length, IsFound vs (bytes vs ++ rest) i) ∧
      ∀ first, first <+: bytes vs → first ≠ bytes vs →
        ∃ i < vs.length, (∀ j < i, IsFound vs first j) ∧
          ∀ j, i ≤ j → j < vs.length → IsMissed vs first j := by
  refine ⟨ending_forM_write_iff.mpr h, ?_, ?_⟩
  · intro rest i hi
    exact isFound_append h rest hi
  · intro first hp hne
    exact exists_first_missed h hp hne

def mixed : List Primitive :=
  [.text none, .text (some ""), .text (some "héllo"), .int (-0x80000000), .double ⟨0x8000000000000000⟩,
    .texts ["é", ""], .bool true, .doubles [⟨0x3ff0000000000000⟩], .bools [false, true]]

theorem readEach_forM_write_mixed :
    (∀ v ∈ mixed, v.Fits) ∧ (mixed.forM write).ending = .ok () ∧
      (∀ rest, ∀ i < mixed.length, IsFound mixed (bytes mixed ++ rest) i) ∧
      (bytes mixed).take 14 ≠ bytes mixed ∧
      ∃ i < mixed.length, (∀ j < i, IsFound mixed ((bytes mixed).take 14) j) ∧
        ∀ j, i ≤ j → j < mixed.length → IsMissed mixed ((bytes mixed).take 14) j := by
  have hfits : ∀ v ∈ mixed, v.Fits := by decide +kernel
  have hne : (bytes mixed).take 14 ≠ bytes mixed := by decide +kernel
  obtain ⟨hw, hfound, hmissed⟩ := readEach_forM_write hfits
  exact ⟨hfits, hw, hfound, hne, hmissed _ (List.take_prefix 14 _) hne⟩

end Primitive

end NetDesc
