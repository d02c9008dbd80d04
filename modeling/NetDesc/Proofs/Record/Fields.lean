import NetDesc.Proofs.Decimal.Sign
import NetDesc.Proofs.Record.Decoded
import NetDesc.Proofs.Tree.Edit

namespace NetDesc

open Decimal

namespace FieldSpec

def isRecord (f : FieldSpec) : Bool :=
  match f.shape with
  | .record _ => true
  | _ => false

theorem isRecord_iff {f : FieldSpec} : f.isRecord = true ↔ ∃ inner, f.shape = .record inner := by
  unfold isRecord
  split
  · next inner hs => exact iff_of_true rfl ⟨inner, hs⟩
  · next hs =>
    refine iff_of_false Bool.false_ne_true ?_
    rintro ⟨inner, h⟩
    exact hs inner h

theorem ne_record {f : FieldSpec} (h : f.isRecord = false) (inner : RecordClass) :
    f.shape ≠ .record inner := fun hs => by
  rw [isRecord_iff.mpr ⟨inner, hs⟩] at h
  cases h

def isRepeated (f : FieldSpec) : Bool :=
  match f.occurrence with
  | .repeated => true
  | _ => false

theorem isRepeated_iff {f : FieldSpec} : f.isRepeated = true ↔ f.occurrence = .repeated := by
  unfold isRepeated
  cases f.occurrence <;> simp

end FieldSpec

namespace Record

open Value

def Decodes (c : RecordClass) (n : Node) : Prop :=
  ∃ r, ofNode c n = .ok r

instance (c : RecordClass) (n : Node) : Decidable (Decodes c n) :=
  decidable_of_iff ((ofNode c n).toOption.isSome = true) (by
    simp only [Option.isSome_iff_exists, toOption_eq_some, Decodes])

def AllRight (read : List (String × Checked Value)) : Prop :=
  ∀ p ∈ read, ∃ v, p.2 = .ok v

def Takes (f : FieldSpec) (nodes : List Node) : Prop :=
  match f.shape with
  | .record inner => ∀ n ∈ nodes, Decodes inner n
  | _ => AllRight (checkTexts f (nodes.filterMap (·.value)))

section Taking

variable {c : RecordClass} {f : FieldSpec} {nodes : List Node} {n : Node}

theorem takes_record {inner : RecordClass} (hs : f.shape = .record inner) :
    Takes f nodes ↔ ∀ n ∈ nodes, Decodes inner n := by
  unfold Takes
  rw [hs]

theorem takes_texts (hs : f.isRecord = false) :
    Takes f nodes ↔ AllRight (checkTexts f (nodes.filterMap (·.value))) := by
  unfold Takes
  split
  · next inner hi => exact absurd hi (FieldSpec.ne_record hs inner)
  · rfl

theorem name_of_readChildren {read : List (String × Checked Value)} (hf : f ∈ c.fields)
    (h : readChildren (knownChildren c nodes) f = .ok read) : ∀ p ∈ read, p.1 = f.name := by
  have hfits : ∀ n ∈ nodes, ∀ inner r, ofNode inner n = .ok r → r.fits Json.isSpelled inner = true :=
    fun n _ => fits_ofNode n
  exact fun p hp => (readsFor_readChildren hf hfits h p hp).1

theorem length_checkTexts (f : FieldSpec) (texts : List String) :
    (checkTexts f texts).length ≤ 1 := by
  cases texts with
  | nil =>
    rw [checkTexts_nil]
    exact Nat.zero_le 1
  | cons t ts =>
    by_cases ho : f.occurrence = .repeated
    · rw [checkTexts_of_repeated ho]
      exact Nat.le_refl 1
    · rw [checkTexts_of_single ho]
      exact Nat.le_refl 1

theorem length_takeRecords (f : FieldSpec) (rs : List Record) : (takeRecords f rs).length ≤ 1 := by
  cases rs with
  | nil =>
    rw [takeRecords_nil]
    exact Nat.zero_le 1
  | cons r rs =>
    by_cases ho : f.occurrence = .repeated
    · rw [takeRecords_of_repeated ho]
      exact Nat.le_refl 1
    · rw [takeRecords_of_single ho]
      exact Nat.le_refl 1

theorem length_readChildren {children : List (String × Child)} {read : List (String × Checked Value)}
    (h : readChildren children f = .ok read) : read.length ≤ 1 := by
  unfold readChildren at h
  split at h
  · obtain ⟨rs, -, rfl⟩ := map_eq_ok.mp h
    exact length_takeRecords f rs
  · cases h
    exact length_checkTexts f _

theorem allRight_takeRecords (f : FieldSpec) (rs : List Record) : AllRight (takeRecords f rs) := by
  cases rs with
  | nil =>
    rw [takeRecords_nil]
    exact List.forall_mem_nil _
  | cons r rs =>
    by_cases ho : f.occurrence = .repeated
    · rw [takeRecords_of_repeated ho]
      exact List.forall_mem_singleton.mpr ⟨_, rfl⟩
    · rw [takeRecords_of_single ho]
      exact List.forall_mem_singleton.mpr ⟨_, rfl⟩

theorem takes_iff (hf : f ∈ c.fields) :
    Takes f (n.findChildren f.name) ↔
      ∃ read, readChildren (knownChildren c n.children) f = .ok read ∧ AllRight read := by
  cases hs : f.isRecord with
  | true =>
    obtain ⟨inner, hs⟩ := FieldSpec.isRecord_iff.mp hs
    rw [takes_record hs, readChildren_of_record _ hs,
      childRecords_knownChildren (c.field?_name hf) hs]
    unfold Decodes
    rw [← mapM_isOk_iff]
    constructor
    · rintro ⟨rs, hrs⟩
      exact ⟨takeRecords f rs, map_eq_ok.mpr ⟨rs, hrs, rfl⟩, allRight_takeRecords f rs⟩
    · rintro ⟨read, hread, -⟩
      obtain ⟨rs, hrs, -⟩ := map_eq_ok.mp hread
      exact ⟨rs, hrs⟩
  | false =>
    have hne := FieldSpec.ne_record hs
    rw [takes_texts hs, readChildren_of_text _ hne, childTexts_knownChildren (c.field?_name hf) hne]
    constructor
    · intro h
      exact ⟨_, rfl, h⟩
    · rintro ⟨read, hread, h⟩
      cases hread
      exact h

end Taking

section Collecting

variable {c : RecordClass} {read : List (String × Checked Value)} {fs : List FieldSpec}

theorem lookup_flatMap {reading : FieldSpec → List (String × Checked Value)}
    (hn : (fs.map FieldSpec.name).Nodup) (hnames : ∀ g ∈ fs, ∀ p ∈ reading g, p.1 = g.name)
    {f : FieldSpec} (hf : f ∈ fs) :
    (fs.flatMap reading).lookup f.name = (reading f).lookup f.name := by
  induction fs with
  | nil => cases hf
  | cons g fs ih =>
    obtain ⟨hg, hn⟩ := List.nodup_cons.mp hn
    rw [List.forall_mem_cons] at hnames
    rw [List.flatMap_cons, List.lookup_append]
    rcases List.mem_cons.mp hf with rfl | hf
    · have hnone : (fs.flatMap reading).lookup f.name = none := by
        rw [List.lookup_eq_none_iff]
        intro p hp
        obtain ⟨h, hh, hp⟩ := List.mem_flatMap.mp hp
        rw [hnames.2 h hh p hp, bne_iff_ne]
        intro he
        exact hg (he ▸ List.mem_map_of_mem hh)
      rw [hnone, Option.or_none]
    · have hnone : (reading g).lookup f.name = none := by
        rw [List.lookup_eq_none_iff]
        intro p hp
        rw [hnames.1 p hp, bne_iff_ne]
        intro he
        exact hg (he ▸ List.mem_map_of_mem hf)
      rw [hnone, Option.none_or, ih hn hnames.2 hf]

theorem collect_of_allRight (h : AllRight read) : ∃ es, collect read fs = .ok es := by
  induction fs with
  | nil => exact ⟨[], rfl⟩
  | cons f fs ih =>
    obtain ⟨es, hes⟩ := ih
    rw [collect, hes]
    cases hl : read.lookup f.name with
    | none => exact ⟨_, rfl⟩
    | some checked =>
      obtain ⟨before, after, rfl, -⟩ := List.lookup_eq_some_iff.mp hl
      obtain ⟨v, hv⟩ := h (f.name, checked) (by simp)
      cases hv
      exact ⟨_, rfl⟩

theorem lookup_of_collect {es : List (Bool × Value)} (h : collect read fs = .ok es) {f : FieldSpec}
    (hf : f ∈ fs) {checked : Checked Value} (hl : read.lookup f.name = some checked) :
    ∃ v, checked = .ok v := by
  induction fs generalizing es with
  | nil => cases hf
  | cons g fs ih =>
    rw [collect] at h
    split at h
    · next e rest he hrest =>
      rcases List.mem_cons.mp hf with rfl | hf
      · rw [hl] at he
        cases checked with
        | ok v => exact ⟨v, rfl⟩
        | error gs => cases he
      · exact ih hrest hf
    · cases h
    · cases h
    · cases h

end Collecting

section Decoding

variable {c : RecordClass} {n : Node} {f : FieldSpec}

theorem eq_singleton_of_mem {α : Type} {xs : List α} (h : xs.length ≤ 1) {x : α} (hx : x ∈ xs) :
    xs = [x] := by
  match xs with
  | [y] => rw [List.mem_singleton.mp hx]

theorem lookup_readChildren {nodes : List Node} {chunks : List (List (String × Checked Value))}
    {read : List (String × Checked Value)} (hf : f ∈ c.fields)
    (h : c.fields.mapM (readChildren (knownChildren c nodes)) = .ok chunks)
    (hr : readChildren (knownChildren c nodes) f = .ok read) :
    chunks.flatten.lookup f.name = read.lookup f.name := by
  have hnames : ∀ g ∈ c.fields,
      ∀ p ∈ (readChildren (knownChildren c nodes) g).toOption.getD [], p.1 = g.name := by
    intro g hg p hp
    cases hread : readChildren (knownChildren c nodes) g with
    | ok other =>
      rw [hread] at hp
      exact name_of_readChildren hg hread p hp
    | error e =>
      rw [hread] at hp
      cases hp
  rw [flatten_of_mapM h, lookup_flatMap c.nodup_fields hnames hf, hr]
  rfl

theorem takes_of_decodes (h : Decodes c n) (hf : f ∈ c.fields) :
    Takes f (n.findChildren f.name) := by
  obtain ⟨r, hr⟩ := h
  obtain ⟨chunks, es, hread, hc, -⟩ := ofNode_eq_ok hr
  obtain ⟨read, hchunk⟩ := mapM_isOk_iff.mp ⟨chunks, hread⟩ f hf
  refine (takes_iff hf).mpr ⟨read, hchunk, ?_⟩
  intro p hp
  have hlookup : chunks.flatten.lookup f.name = some p.2 := by
    obtain rfl : read = [p] := eq_singleton_of_mem (length_readChildren hchunk) hp
    rw [lookup_readChildren hf hread hchunk, ← name_of_readChildren hf hchunk p hp,
      List.lookup_cons_self]
  exact lookup_of_collect hc hf hlookup

theorem decodes_iff : Decodes c n ↔ ∀ f ∈ c.fields, Takes f (n.findChildren f.name) := by
  refine ⟨fun h f hf => takes_of_decodes h hf, fun h => ?_⟩
  obtain ⟨chunks, hread⟩ := mapM_isOk_iff.mpr fun f hf =>
    let ⟨read, hread, _⟩ := (takes_iff hf).mp (h f hf)
    ⟨read, hread⟩
  have hchunks : ∀ read ∈ chunks, AllRight read ∧ ∀ p ∈ read, p.1 ∈ c.fields.map FieldSpec.name := by
    intro read hr
    obtain ⟨f, hf, hchunk⟩ := (of_mapM hread).2 read hr
    obtain ⟨read', hchunk', hright⟩ := (takes_iff hf).mp (h f hf)
    rw [hchunk] at hchunk'
    cases hchunk'
    refine ⟨hright, fun p hp => ?_⟩
    rw [name_of_readChildren hf hchunk p hp]
    exact List.mem_map_of_mem hf
  have hright : AllRight chunks.flatten := by
    intro p hp
    obtain ⟨read, hr, hp⟩ := List.mem_flatten.mp hp
    exact (hchunks read hr).1 p hp
  have hknown : unknownFields c (chunks.flatten.map Prod.fst) = [] := by
    apply unknownFields_of_subset
    intro x hx
    obtain ⟨p, hp, rfl⟩ := List.mem_map.mp hx
    obtain ⟨read, hr, hp⟩ := List.mem_flatten.mp hp
    exact (hchunks read hr).2 p hp
  obtain ⟨es, hes⟩ : ∃ es, collect chunks.flatten c.fields = .ok es := collect_of_allRight hright
  obtain ⟨name, value, valueType, children⟩ := n
  refine ⟨⟨c, es⟩, ?_⟩
  rw [ofNode, ofChildren, hread, ok_bind, assemble, hes, hknown]
  rfl

end Decoding

section Setting

variable {c : RecordClass} {n : Node} {name value : String} {t : Option ValueType} {s : Shape}

theorem valueOfText_int {b : Bound} {m : Int} (hl : isTooLong m.natAbs = false)
    (hb : (b.checkInt m).isOk = true) : ∃ v, valueOfText (.int b) (toString m) = .ok v := by
  refine ⟨.plain (.int m), ?_⟩
  simp only [valueOfText, intOfText_toString hl, ok_bind, Bound.checkInt_of_isOk hb]
  rfl

theorem valueOfText_nat {b : Bound} {n : Nat} (hl : isTooLong n = false)
    (hb : (b.checkInt n).isOk = true) : ∃ v, valueOfText (.int b) (toString n) = .ok v := by
  have hs : toString n = toString (n : Int) := rfl
  rw [hs]
  exact valueOfText_int hl hb

theorem nonneg_of_valueOfText {text : String} {m : Int} {v : Value} (hr : readInt? text = some m)
    (h : valueOfText (.int .nonNegative) text = .ok v) : 0 ≤ m := by
  obtain ⟨k, hk, h⟩ := bind_eq_ok.mp h
  obtain ⟨j, hj, -⟩ := bind_eq_ok.mp h
  refine Int.not_lt.mp fun hm => ?_
  have hneg : k < 0 := neg_of_intOfText hr hm hk
  rw [Bound.checkInt, if_neg (Int.not_le.mpr hneg)] at hj
  cases hj

theorem valueOfText_word {ch : Choice} (w : ch.Word) :
    ∃ v, valueOfText (.choice ch) w.text = .ok v := by
  refine ⟨.choice w.text, ?_⟩
  have hw : ch.members.contains w.text = true := List.contains_iff_mem.mpr w.isMember
  simp only [valueOfText, Shape.check, Check.member, hw]
  rfl

def FieldSpec.isSingle (s : Shape) (f : FieldSpec) : Bool :=
  !f.isRecord && !f.isRepeated && decide (f.shape = s)

theorem itemsOfTexts_isOk {texts : List String} (h : ∀ text ∈ texts, ∃ v, valueOfText s text = .ok v)
    (i : Nat) : ∃ vs, itemsOfTexts s i texts = .ok vs := by
  induction texts generalizing i with
  | nil => exact ⟨[], rfl⟩
  | cons text texts ih =>
    rw [List.forall_mem_cons] at h
    obtain ⟨v, hv⟩ := h.1
    obtain ⟨vs, hvs⟩ := ih h.2 (i + 1)
    exact ⟨v :: vs, by rw [itemsOfTexts, hv, hvs]; rfl⟩

theorem allRight_checkTexts {f : FieldSpec} {texts : List String}
    (h : ∀ text ∈ texts, ∃ v, valueOfText f.shape text = .ok v) : AllRight (checkTexts f texts) := by
  cases texts with
  | nil =>
    rw [checkTexts_nil]
    exact List.forall_mem_nil _
  | cons text texts =>
    by_cases ho : f.occurrence = .repeated
    · obtain ⟨vs, hvs⟩ := itemsOfTexts_isOk h 0
      rw [checkTexts_of_repeated ho, hvs]
      exact List.forall_mem_singleton.mpr ⟨_, rfl⟩
    · obtain ⟨v, hv⟩ := h text (List.mem_cons_self ..)
      rw [checkTexts_of_single ho, hv]
      exact List.forall_mem_singleton.mpr ⟨_, rfl⟩

theorem takes_single_iff {f : FieldSpec} (hs : FieldSpec.isSingle s f = true) {nodes : List Node}
    {rest : List String} (hn : nodes.filterMap (·.value) = value :: rest) :
    Takes f nodes ↔ ∃ v, valueOfText s value = .ok v := by
  rw [FieldSpec.isSingle, Bool.and_eq_true, Bool.and_eq_true, Bool.not_eq_true', Bool.not_eq_true',
    decide_eq_true_eq] at hs
  obtain ⟨⟨hrecord, hrepeated⟩, rfl⟩ := hs
  have ho : f.occurrence ≠ .repeated := fun ho => by
    rw [FieldSpec.isRepeated_iff.mpr ho] at hrepeated
    cases hrepeated
  rw [takes_texts hrecord, hn, checkTexts_of_single ho, AllRight, List.forall_mem_singleton]
  cases valueOfText f.shape value with
  | ok v => exact iff_of_true ⟨v, rfl⟩ ⟨v, rfl⟩
  | error e => exact iff_of_false (by rintro ⟨_, h⟩; cases h) (by rintro ⟨_, h⟩; cases h)

theorem valueOfText_of_decodes (h : Decodes c n)
    (hs : (c.field? name).any (FieldSpec.isSingle s) = true) {rest : List String}
    (hv : n.findValues name = value :: rest) : ∃ v, valueOfText s value = .ok v := by
  obtain ⟨f, hf, hs⟩ := (Option.any_eq_true ..).mp hs
  have hbeq := List.find?_some hf
  have hname : f.name = name := LawfulBEq.eq_of_beq hbeq
  have htakes := takes_of_decodes h (List.mem_of_find?_eq_some hf)
  rw [hname] at htakes
  exact (takes_single_iff hs hv).mp htakes

theorem decodes_setValue (h : Decodes c n) (hs : (c.field? name).all (FieldSpec.isSingle s) = true)
    (hv : ∃ v, valueOfText s value = .ok v) : Decodes c (n.setValue name value t) := by
  rw [decodes_iff]
  intro f hf
  by_cases hname : name = f.name
  · subst hname
    rw [c.field?_name hf] at hs
    obtain ⟨rest, hrest, -⟩ := Node.findValues_setValue n f.name value t
    exact (takes_single_iff hs hrest).mpr hv
  · rw [Node.findChildren_setValue hname]
    exact takes_of_decodes h hf

def Suits (c : RecordClass) (m : Node) : Prop :=
  ∀ f, c.field? m.name = some f →
    f.isRecord = false ∧ ∀ text, m.value = some text → ∃ v, valueOfText f.shape text = .ok v

theorem suits_leaf {text : String} {t : ValueType}
    (hs : (c.field? name).all (FieldSpec.isSingle s) = true)
    (hv : ∃ v, valueOfText s text = .ok v) : Suits c (.leaf name text t) := by
  intro f hf
  change c.field? name = some f at hf
  rw [hf, Option.all_some, FieldSpec.isSingle, Bool.and_eq_true, Bool.and_eq_true,
    Bool.not_eq_true', decide_eq_true_eq] at hs
  obtain ⟨⟨hrecord, -⟩, rfl⟩ := hs
  refine ⟨hrecord, fun x hx => ?_⟩
  cases hx
  exact hv

theorem decodes_of_suits (h : ∀ m ∈ n.children, Suits c m) : Decodes c n := by
  rw [decodes_iff]
  intro f hf
  have hsuits : ∀ m ∈ n.findChildren f.name,
      f.isRecord = false ∧ ∀ text, m.value = some text → ∃ v, valueOfText f.shape text = .ok v := by
    intro m hm
    obtain ⟨hm, hname⟩ := List.mem_filter.mp hm
    have hfound := c.field?_name hf
    rw [← LawfulBEq.eq_of_beq hname] at hfound
    exact h m hm f hfound
  cases hs : f.isRecord with
  | true =>
    obtain ⟨inner, hs'⟩ := FieldSpec.isRecord_iff.mp hs
    rw [takes_record hs']
    intro m hm
    rw [(hsuits m hm).1] at hs
    cases hs
  | false =>
    rw [takes_texts hs]
    apply allRight_checkTexts
    intro text ht
    obtain ⟨m, hm, ht⟩ := List.mem_filterMap.mp ht
    exact (hsuits m hm).2 text ht

end Setting

end Record

end NetDesc
