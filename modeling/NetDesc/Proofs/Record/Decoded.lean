import NetDesc.Proofs.Decimal.Length
import NetDesc.Proofs.Record.Tree

namespace NetDesc

open Decimal

theorem Node.sizeOf_child {n m : Node} (hm : m ∈ n.children) : sizeOf m < sizeOf n := by
  obtain ⟨name, value, valueType, children⟩ := n
  have hlt := List.sizeOf_lt_of_mem hm
  rw [Node.mk.sizeOf_spec]
  change sizeOf m < sizeOf children at hlt
  omega

theorem Node.inductionOn {P : Node → Prop} (n : Node)
    (ind : ∀ n : Node, (∀ m ∈ n.children, P m) → P n) : P n :=
  ind n fun m hm =>
    have := sizeOf_child hm
    inductionOn m ind
termination_by sizeOf n

namespace Bound

theorem checkInt_eq_ok {b : Bound} {m n : Int} (h : b.checkInt m = .ok n) :
    m = n ∧ (b.checkInt n).isOk = true := by
  have hm : (b.checkInt m).isOk = true := by rw [h]; rfl
  rw [checkInt_of_isOk hm] at h
  cases h
  exact ⟨rfl, hm⟩

theorem checkFloat_eq_ok {b : Bound} {x y : Double} (h : b.checkFloat x = .ok y) :
    x = y ∧ (b.checkFloat y).isOk = true := by
  have hx : (b.checkFloat x).isOk = true := by rw [h]; rfl
  rw [checkFloat_of_isOk hx] at h
  cases h
  exact ⟨rfl, hx⟩

end Bound

theorem Value.fitsField_of_fits {test : Json → Bool} {f : FieldSpec} {v : Value}
    (ho : f.occurrence ≠ .repeated) (h : fits test f.shape v = true) : fitsField test f v = true := by
  obtain ⟨name, s, occurrence⟩ := f
  cases occurrence with
  | once d => exact h
  | optional => exact Bool.or_eq_true_iff.mpr (.inr h)
  | repeated => exact absurd rfl ho

namespace Record

open Value

theorem isTooLong_of_intOfText {text : String} {n : Int} (h : intOfText text = .ok n) :
    isTooLong n.natAbs = false := by
  have hplain {n : Int} (h : Check.intText text = .ok n) : isTooLong n.natAbs = false := by
    unfold Check.intText at h
    split at h
    · next m hm =>
      cases h
      exact isTooLong_of_readFieldInt hm
    · cases h
    · cases h
  unfold intOfText at h
  split at h
  · next x _ =>
    split at h
    · next hc =>
      cases h
      rw [Bool.and_eq_true, Double.isWhole, Bool.and_eq_true] at hc
      exact Double.isTooLong_whole hc.1.1
    · exact hplain h
  · exact hplain h

theorem fits_of_valueOfText {s : Shape} {text : String} {v : Value}
    (h : valueOfText s text = .ok v) : Value.fits Json.isSpelled s v = true := by
  cases s with
  | int b =>
    obtain ⟨m, hm, h⟩ := bind_eq_ok.mp h
    obtain ⟨n, hn, h⟩ := bind_eq_ok.mp h
    cases h
    obtain ⟨rfl, hb⟩ := Bound.checkInt_eq_ok hn
    refine Bool.and_eq_true_iff.mpr ⟨hb, ?_⟩
    rw [Json.isSpelled, isTooLong_of_intOfText hm]
    rfl
  | float b =>
    obtain ⟨y, hy, rfl⟩ := map_eq_ok.mp h
    obtain ⟨x, -, hx⟩ := bind_eq_ok.mp hy
    obtain ⟨rfl, hb⟩ := Bound.checkFloat_eq_ok hx
    exact Bool.and_eq_true_iff.mpr ⟨hb, rfl⟩
  | bool =>
    obtain ⟨b, -, rfl⟩ := map_eq_ok.mp h
    rfl
  | text =>
    cases h
    rfl
  | choice c =>
    obtain ⟨w, hw, rfl⟩ := map_eq_ok.mp h
    change Check.member c (.text text) = .ok w at hw
    unfold Check.member at hw
    dsimp only at hw
    split at hw
    · next hm =>
      cases hw
      exact hm
    · cases hw
  | record c => cases h

theorem fitsList_of_itemsOfTexts {s : Shape} {texts : List String} {i : Nat} {vs : List Value}
    (h : itemsOfTexts s i texts = .ok vs) : fitsList Json.isSpelled s vs = true := by
  induction texts generalizing i vs with
  | nil =>
    cases h
    rfl
  | cons t ts ih =>
    rw [itemsOfTexts] at h
    cases hv : valueOfText s t with
    | error e =>
      rw [hv] at h
      cases hrest : itemsOfTexts s (i + 1) ts <;> rw [hrest] at h <;> cases h
    | ok v =>
      rw [hv] at h
      cases hrest : itemsOfTexts s (i + 1) ts with
      | error e =>
        rw [hrest] at h
        cases h
      | ok rest =>
        rw [hrest] at h
        cases h
        rw [fitsList, fits_of_valueOfText hv, ih hrest]
        rfl

def ReadsFor (f : FieldSpec) (read : List (String × Checked Value)) : Prop :=
  ∀ p ∈ read, p.1 = f.name ∧ ∀ v, p.2 = .ok v → fitsField Json.isSpelled f v = true

theorem readsFor_checkTexts (f : FieldSpec) (texts : List String) :
    ReadsFor f (checkTexts f texts) := by
  cases texts with
  | nil =>
    rw [checkTexts_nil]
    exact List.forall_mem_nil _
  | cons t ts =>
    by_cases ho : f.occurrence = .repeated
    · rw [checkTexts_of_repeated ho, ReadsFor, List.forall_mem_singleton]
      refine ⟨rfl, fun v hv => ?_⟩
      obtain ⟨vs, hvs, rfl⟩ := map_eq_ok.mp hv
      rw [fitsField, ho]
      exact fitsList_of_itemsOfTexts hvs
    · rw [checkTexts_of_single ho, ReadsFor, List.forall_mem_singleton]
      refine ⟨rfl, fun v hv => ?_⟩
      cases ht : valueOfText f.shape t with
      | error e =>
        rw [ht] at hv
        cases hv
      | ok w =>
        rw [ht] at hv
        cases hv
        exact fitsField_of_fits ho (fits_of_valueOfText ht)

theorem fitsList_of_records {test : Json → Bool} {c : RecordClass} {rs : List Record}
    (h : ∀ r ∈ rs, r.fits test c = true) : fitsList test (.record c) (rs.map value) = true := by
  induction rs with
  | nil => rfl
  | cons r rs ih =>
    rw [List.forall_mem_cons] at h
    rw [List.map_cons, fitsList, ih h.2, Bool.and_true]
    exact h.1

theorem readsFor_takeRecords {f : FieldSpec} {inner : RecordClass} (hs : f.shape = .record inner)
    {rs : List Record} (h : ∀ r ∈ rs, r.fits Json.isSpelled inner = true) :
    ReadsFor f (takeRecords f rs) := by
  cases rs with
  | nil =>
    rw [takeRecords_nil]
    exact List.forall_mem_nil _
  | cons r rs =>
    by_cases ho : f.occurrence = .repeated
    · rw [takeRecords_of_repeated ho, ReadsFor, List.forall_mem_singleton]
      refine ⟨rfl, fun v hv => ?_⟩
      cases hv
      rw [fitsField, ho, hs]
      exact fitsList_of_records h
    · rw [takeRecords_of_single ho, ReadsFor, List.forall_mem_singleton]
      refine ⟨rfl, fun v hv => ?_⟩
      cases hv
      apply fitsField_of_fits ho
      rw [hs]
      exact h r (List.mem_cons_self ..)

theorem fitsEntries_of_collect {read : List (String × Checked Value)} {fs : List FieldSpec}
    {es : List (Bool × Value)}
    (hread : ∀ f ∈ fs, ∀ v, (f.name, .ok v) ∈ read → fitsField Json.isSpelled f v = true)
    (hstandard : ∀ f ∈ fs, fitsField Json.isSpelled f f.standard = true)
    (h : collect read fs = .ok es) : fitsEntries Json.isSpelled fs es = true := by
  induction fs generalizing es with
  | nil =>
    cases h
    rfl
  | cons f fs ih =>
    rw [List.forall_mem_cons] at hread hstandard
    rw [collect] at h
    split at h
    · next e rest he hrest =>
      cases h
      have hfirst : fitsField Json.isSpelled f e.2 = true := by
        split at he
        · next v hl =>
          cases he
          obtain ⟨before, after, rfl, -⟩ := List.lookup_eq_some_iff.mp hl
          exact hread.1 v (by simp)
        · cases he
        · cases he
          exact hstandard.1
      rw [fitsEntries_cons, hfirst, ih hread.2 hstandard.2 hrest]
      rfl
    · cases h
    · cases h
    · cases h

theorem ofNode_eq_ok {c : RecordClass} {n : Node} {r : Record} (h : ofNode c n = .ok r) :
    ∃ read es, c.fields.mapM (readChildren (knownChildren c n.children)) = .ok read ∧
      collect read.flatten c.fields = .ok es ∧ r = ⟨c, es⟩ := by
  obtain ⟨name, value, valueType, children⟩ := n
  rw [ofNode, ofChildren] at h
  obtain ⟨read, hread, h⟩ := bind_eq_ok.mp h
  refine ⟨read, ?_⟩
  unfold assemble at h
  dsimp only at h
  cases hc : collect read.flatten c.fields with
  | error gs =>
    rw [hc] at h
    cases h
  | ok es =>
    rw [hc] at h
    dsimp only at h
    split at h
    · cases h
      exact ⟨es, hread, rfl, rfl⟩
    · cases h

theorem readsFor_readChildren {c : RecordClass} {f : FieldSpec} (hf : f ∈ c.fields)
    {nodes : List Node} {read : List (String × Checked Value)}
    (hnodes : ∀ n ∈ nodes, ∀ inner r, ofNode inner n = .ok r → r.fits Json.isSpelled inner = true)
    (h : readChildren (knownChildren c nodes) f = .ok read) : ReadsFor f read := by
  by_cases hs : ∃ inner, f.shape = .record inner
  · obtain ⟨inner, hs⟩ := hs
    rw [readChildren_of_record _ hs, childRecords_knownChildren (c.field?_name hf) hs] at h
    obtain ⟨rs, hrs, rfl⟩ := map_eq_ok.mp h
    apply readsFor_takeRecords hs
    intro r hr
    obtain ⟨n, hn, hr⟩ := (of_mapM hrs).2 r hr
    exact hnodes n (List.mem_filter.mp hn).1 inner r hr
  · rw [readChildren_of_text _ fun i hi => hs ⟨i, hi⟩] at h
    cases h
    exact readsFor_checkTexts f _

theorem fits_ofNode (n : Node) : ∀ (c : RecordClass) (r : Record), ofNode c n = .ok r →
    r.fits Json.isSpelled c = true := by
  induction n using Node.inductionOn with
  | ind n ih =>
    intro c r h
    obtain ⟨read, es, hread, hc, rfl⟩ := ofNode_eq_ok h
    have hfields : ∀ f ∈ c.fields, ∀ v, (f.name, .ok v) ∈ read.flatten →
        fitsField Json.isSpelled f v = true := by
      intro f hf v hv
      obtain ⟨chunk, hchunk, hv⟩ := List.mem_flatten.mp hv
      obtain ⟨g, hg, hchunk⟩ := (of_mapM hread).2 chunk hchunk
      obtain ⟨hname, hfits⟩ := readsFor_readChildren hg ih hchunk _ hv
      -- Only the field itself has its name.
      have hfg := c.field?_name hf
      change f.name = g.name at hname
      rw [hname, c.field?_name hg] at hfg
      cases hfg
      exact hfits v rfl
    have hstandard : ∀ f ∈ c.fields, fitsField Json.isSpelled f f.standard = true := fun f hf =>
      fitsField_mono (fun _ => Json.isSpelled_of_isWritten) (c.fits_standard f hf)
    exact fits_iff.mpr ⟨rfl, fitsEntries_of_collect hfields hstandard hc⟩

end Record

end NetDesc
