import Mathlib.Data.List.Forall2
import NetDesc.Proofs.Decimal.Literal
import NetDesc.Proofs.Record.Faults

namespace NetDesc

open Decimal

def FieldSpec.takenTexts (f : FieldSpec) (n : Node) : List String :=
  match f.occurrence with
  | .repeated => n.findValues f.name
  | _ => (n.findValues f.name).take 1

def Value.int? : Value → Option Int
  | .plain (.int m) => some m
  | _ => none

def Value.ints? : Value → Option (List Int)
  | .list vs => vs.mapM int?
  | v => v.int?.map fun m => [m]

namespace Record

open Value

variable {c : RecordClass} {f : FieldSpec} {b : Bound} {n : Node}

theorem exists_of_valueOfText {text : String} {v : Value} (h : valueOfText (.int b) text = .ok v) :
    ∃ m, v = .plain (.int m) ∧ intOfText text = .ok m := by
  obtain ⟨m, hm, h⟩ := bind_eq_ok.mp h
  obtain ⟨k, hk, h⟩ := bind_eq_ok.mp h
  obtain rfl := (Bound.checkInt_eq_ok hk).1
  cases h
  exact ⟨m, rfl, hm⟩

theorem exists_of_itemsOfTexts {texts : List String} {i : Nat} {vs : List Value}
    (h : itemsOfTexts (.int b) i texts = .ok vs) :
    ∃ ms, vs.mapM Value.int? = some ms ∧ List.Forall₂ (fun text m => intOfText text = .ok m) texts ms := by
  induction texts generalizing i vs with
  | nil =>
    cases h
    exact ⟨[], rfl, .nil⟩
  | cons t ts ih =>
    rw [itemsOfTexts] at h
    cases hv : oneFault (valueOfText (.int b) t) with
    | error e =>
      rw [hv] at h
      cases hrest : itemsOfTexts (.int b) (i + 1) ts <;> rw [hrest] at h <;> cases h
    | ok v =>
      rw [hv] at h
      cases hrest : itemsOfTexts (.int b) (i + 1) ts with
      | error e =>
        rw [hrest] at h
        cases h
      | ok rest =>
        rw [hrest] at h
        cases h
        obtain ⟨m, rfl, hm⟩ := exists_of_valueOfText (oneFault_eq_ok.mp hv)
        obtain ⟨ms, hms, hall⟩ := ih hrest
        exact ⟨m :: ms, by rw [List.mapM_cons, hms]; rfl, .cons hm hall⟩

theorem ints_of_ofNode {r : Record} (hr : ofNode c n = .ok r) (hf : f ∈ c.fields)
    (hs : f.shape = .int b) (ht : f.takenTexts n ≠ []) :
    ∃ ms, (r.get? f.name).bind Value.ints? = some ms ∧
      List.Forall₂ (fun text m => intOfText text = .ok m) (f.takenTexts n) ms := by
  have hshape : ∀ inner, f.shape ≠ .record inner := by
    intro inner
    rw [hs]
    exact Shape.noConfusion
  obtain ⟨v, hget, hv⟩ := get?_of_ofNode hr hf hshape
  rw [hget, Option.bind_some]
  unfold FieldSpec.takenTexts at ht ⊢
  cases hvalues : n.findValues f.name with
  | nil =>
    rw [hvalues] at ht
    cases ho : f.occurrence <;> rw [ho] at ht <;> exact absurd rfl ht
  | cons t ts =>
    rw [hvalues] at hv
    by_cases ho : f.occurrence = .repeated
    · rw [Holds, checkTexts_of_repeated ho, List.lookup_cons_self, hs] at hv
      rcases hv with ⟨hv, -⟩ | hv
      · cases hv
      · obtain ⟨vs, hvs, rfl⟩ := map_eq_ok.mp (Option.some.inj hv)
        rw [ho]
        exact exists_of_itemsOfTexts hvs
    · rw [Holds, checkTexts_of_single ho, List.lookup_cons_self, hs] at hv
      rcases hv with ⟨hv, -⟩ | hv
      · cases hv
      · obtain ⟨m, rfl, hm⟩ := exists_of_valueOfText (oneFault_eq_ok.mp (Option.some.inj hv))
        refine ⟨[m], rfl, ?_⟩
        split
        · next ho' => exact absurd ho' ho
        · exact .cons hm .nil

/-- The whole number of a literal is kept if the literal is in plain digits, and otherwise it is rounded
to a double, which changes it if there is a bit after the first 53 and the double is finite. -/
theorem ints_of_literals {r : Record} (hr : ofNode c n = .ok r) (hf : f ∈ c.fields)
    (hs : f.shape = .int b) (ht : f.takenTexts n ≠ []) :
    ∃ ms, (r.get? f.name).bind Value.ints? = some ms ∧
      List.Forall₂ (fun text m => ∀ (l : SignedSpelling) (z : Int), l.Regular → text = l.text →
        l.Denotes z →
          m = (if l.isPlain then z else Double.rounded z) ∧
          (m = z ↔ l.isPlain = true ∨ (Double.ofInt z).isFinite = false ∨
            twoTo (z.natAbs.log2 - 52) ∣ z.natAbs)) (f.takenTexts n) ms := by
  obtain ⟨ms, hget, hall⟩ := ints_of_ofNode hr hf hs ht
  refine ⟨ms, hget, hall.imp ?_⟩
  rintro text m hm l z hl rfl hz
  have hvalue := SignedSpelling.eq_of_intOfText hl hz hm
  refine ⟨hvalue, ?_⟩
  rw [hvalue, ← Double.rounded_eq_iff]
  split
  · next hplain => exact iff_of_true rfl (.inl hplain)
  · next hplain => exact (or_iff_right hplain).symm

def largeShape : Node :=
  .block "shape" [.leaf "dim" "9007199254740993" .numeric,
    .leaf "dim" "9007199254740993.0" .numeric, .leaf "dim" "+900719925474099.4e1" .numeric]

theorem ints_of_literals_largeShape :
    ∃ r, ofNode .blobShape largeShape = .ok r ∧
      (r.get? "dim").bind Value.ints? =
        some [9007199254740993, 9007199254740992, 9007199254740994] := by
  obtain ⟨r, hr⟩ : ∃ r, ofNode .blobShape largeShape = .ok r := by
    have hdecodes : Decodes .blobShape largeShape := by decide +kernel
    exact hdecodes
  have hfield : FieldSpec.repeated "dim" (.int .any) ∈ RecordClass.blobShape.fields :=
    List.mem_cons_self ..
  have htexts : (FieldSpec.repeated "dim" (.int .any)).takenTexts largeShape =
      ["9007199254740993", "9007199254740993.0", "+900719925474099.4e1"] := rfl
  obtain ⟨ms, hms, hall⟩ := ints_of_literals hr hfield rfl (by rw [htexts]; exact List.cons_ne_nil _ _)
  rw [htexts] at hall
  rcases hall with _ | ⟨ha, _ | ⟨hb, _ | ⟨hc, _ | _⟩⟩⟩
  have hodd : Double.rounded 9007199254740993 = 9007199254740992 := by decide +kernel
  have heven : Double.rounded 9007199254740994 = 9007199254740994 := by decide +kernel
  have hplain := (ha ⟨none, "9007199254740993".toList, none, none⟩ 9007199254740993
    (by decide) rfl ⟨9007199254740993, rfl, rfl⟩).1
  have hpoint := (hb ⟨none, "9007199254740993".toList, some ['0'], none⟩ 9007199254740993
    (by decide) rfl ⟨9007199254740993, rfl, rfl⟩).1
  have hpower := (hc ⟨some false, "900719925474099".toList, some ['4'], some (none, ['1'])⟩
    9007199254740994 (by decide) rfl
    ⟨9007199254740994, rfl, rfl⟩).1
  rw [hplain.trans (if_pos rfl), hpoint.trans ((if_neg (by decide)).trans hodd),
    hpower.trans ((if_neg (by decide)).trans heven)] at hms
  exact ⟨r, hr, hms⟩

theorem exists_literal_changed :
    ∃ (l : SignedSpelling) (z m : Int) (n : Node) (r : Record), l.Regular ∧ l.Denotes z ∧
      n.findValues "crop_size" = [l.text] ∧ ofNode .transformation n = .ok r ∧
      (r.get? "crop_size").bind Value.int? = some m ∧ m ≠ z := by
  have hread : ((ofNode .transformation (.block "transform_param"
      [.leaf "crop_size" "9007199254740993.0" .numeric])).toOption.bind fun r =>
        (r.get? "crop_size").bind Value.int?) = some 9007199254740992 := by
    decide +kernel
  obtain ⟨r, hr, hm⟩ := Option.bind_eq_some_iff.mp hread
  refine ⟨⟨none, "9007199254740993".toList, some ['0'], none⟩, 9007199254740993, 9007199254740992, _,
    r, by decide, ⟨9007199254740993, rfl, rfl⟩, rfl, toOption_eq_some.mp hr, hm, by decide⟩

end Record

end NetDesc
