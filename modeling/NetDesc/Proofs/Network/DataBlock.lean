import NetDesc.Network.Lookup
import NetDesc.Proofs.Decimal.WholeNumber
import NetDesc.Proofs.Layer.Settled
import NetDesc.Proofs.Network.Sources
import NetDesc.Proofs.Record.Faults

/-!
The block of a data layer has two readers: the record of the layer, and rewrites, which look for the
batch size and the side in the block itself. Rewrites take fewer spellings, but what they take is
what the record has.
-/

namespace NetDesc.Network

open Decimal Node Text

def IsFlag (text : String) : Prop :=
  isWord "true" text = true ∨ isWord "false" text = true

/-- The first batch size is in plain digits, or its number stays the same one as a double. -/
def KeepsSize (block : Node) : Prop :=
  ∀ text v, (block.findValues "batch_size").head? = some text → readInt? text = some v →
    isPlainInt text = true ∨ Double.Keeps v

def sizeBlock? (l : Node) : Option Node :=
  (l.findChild "batch_data_param").or (l.findChild "data_param")

section Flags

variable {text : String} {b : Bool} {block : Node}

theorem boolText_of_readBool? (h : readBool? text = some b) : Check.boolText text = .ok b := by
  have hword {w : String} (hw : isWord w text = true) :
      String.ofList (text.toList.map Char.toLower) = w := by
    rw [LawfulBEq.eq_of_beq hw, String.ofList_toList]
  unfold readBool? at h
  split at h
  · next hw =>
    cases h
    rw [Check.boolText, hword hw]
    rfl
  split at h
  · next hw =>
    cases h
    rw [Check.boolText, hword hw]
    rfl
  · cases h

theorem readBool?_iff : (∃ b, readBool? text = some b) ↔ IsFlag text := by
  unfold readBool? IsFlag
  split
  · next ht => exact iff_of_true ⟨true, rfl⟩ (.inl ht)
  · next ht =>
    split
    · next hf => exact iff_of_true ⟨false, rfl⟩ (.inr hf)
    · next hf => exact iff_of_false nofun (not_or.mpr ⟨ht, hf⟩)

theorem isPrimary_eq_ok {p : Bool} (h : isPrimary block = .ok p) :
    ∃ flags : List Bool, (block.findValues "primary_data").map readBool? = flags.map some ∧
      p = flags.head?.getD true := by
  obtain ⟨flags, hflags, h⟩ := bind_eq_ok.mp h
  cases h
  exact ⟨flags, readScalars_eq_ok.mp hflags, rfl⟩

theorem isPrimary_isOk_iff :
    (∃ p, isPrimary block = .ok p) ↔ ∀ text ∈ block.findValues "primary_data", IsFlag text := by
  simp only [← readBool?_iff]
  constructor
  · rintro ⟨p, h⟩
    obtain ⟨flags, hflags, -⟩ := bind_eq_ok.mp h
    exact readScalars_isOk_iff.mp ⟨flags, hflags⟩
  · intro h
    obtain ⟨flags, hflags⟩ : ∃ flags, block.findBools "primary_data" = .ok flags :=
      readScalars_isOk_iff.mpr h
    exact ⟨flags.head?.getD true, by rw [isPrimary, hflags]; rfl⟩

end Flags

section Records

variable {block : Node} {d : Record}

theorem isPlain_data : ∀ f ∈ RecordClass.data.fields, Record.IsPlain f := by
  intro f hf
  simp only [RecordClass.fields, List.mem_cons, List.not_mem_nil, or_false] at hf
  rcases hf with rfl | rfl | rfl | rfl | rfl | rfl | rfl | rfl
  case inr.inr.inl => exact ⟨rfl, fun ch _ ho => by cases ho⟩
  all_goals exact ⟨rfl, fun ch hch => by cases hch⟩

theorem sizeField :
    RecordClass.data.field? "batch_size" = some (.int "batch_size" .nonNegative 1) := rfl

theorem flagField : RecordClass.data.field? "primary_data" = some (.bool "primary_data" true) := rfl

theorem findInts_of_spells {sizes : List Int}
    (h : List.Forall₂ Spells (block.findValues "batch_size") sizes) :
    block.findInts "batch_size" = .ok sizes := by
  refine readScalars_eq_ok.mpr ?_
  generalize block.findValues "batch_size" = texts at h
  induction h with
  | nil => rfl
  | cons htext _ ih => rw [List.map_cons, List.map_cons, readInt?_of_spells htext, ih]

theorem get?_batchSize (hd : Record.ofNode .data block = .ok d) {v : Int} {vs : List Int}
    (h : block.findInts "batch_size" = .ok (v :: vs)) (hk : KeepsSize block) :
    d.get? "batch_size" = some (.plain (.int v)) := by
  obtain ⟨text, texts, hvalues, hv⟩ := readScalars_cons h
  have hkeeps := hk text v (by rw [hvalues]; rfl) hv
  obtain ⟨value, hvalue, hget⟩ := Record.get?_of_cons isPlain_data hd sizeField nofun hvalues
  obtain ⟨m, hm, hvalue⟩ := bind_eq_ok.mp hvalue
  obtain ⟨k, hbound, hvalue⟩ := bind_eq_ok.mp hvalue
  cases hvalue
  obtain rfl := intOfText_of_readInt? hv hkeeps hm
  rw [hget, (Bound.checkInt_eq_ok hbound).1]

theorem get?_primary (hd : Record.ofNode .data block = .ok d) {p : Bool}
    (h : isPrimary block = .ok p) : d.get? "primary_data" = some (.plain (.bool p)) := by
  obtain ⟨flags, hflags, rfl⟩ := isPrimary_eq_ok h
  cases ht : block.findValues "primary_data" with
  | nil =>
    rw [ht] at hflags
    rw [List.map_eq_nil_iff.mp hflags.symm, Record.get?_of_nil isPlain_data hd flagField nofun ht]
    rfl
  | cons t ts =>
    rw [ht] at hflags
    obtain ⟨b, rest, rfl, hb, -⟩ := List.map_eq_cons_iff.mp hflags.symm
    obtain ⟨value, hvalue, hget⟩ := Record.get?_of_cons isPlain_data hd flagField nofun ht
    obtain ⟨b', hb', rfl⟩ := map_eq_ok.mp hvalue
    cases hb'.symm.trans (boolText_of_readBool? hb.symm)
    exact hget

end Records

structure ReadsAlike (kind : LayerKind) (n block : Node) (d : Record) : Prop where
  sizes : ∀ sizes, List.Forall₂ Spells (block.findValues "batch_size") sizes →
    block.findInts "batch_size" = .ok sizes
  size : ∀ v vs, block.findInts "batch_size" = .ok (v :: vs) → KeepsSize block →
    d.get? "batch_size" = some (.plain (.int v))
  flags : (∃ p, isPrimary block = .ok p) ↔ ∀ text ∈ block.findValues "primary_data", IsFlag text
  flag : ∀ p, isPrimary block = .ok p → d.get? "primary_data" = some (.plain (.bool p))
  feeds : (∃ sizes, List.Forall₂ Spells (block.findValues "batch_size") sizes) →
    (∀ text ∈ block.findValues "primary_data", IsFlag text) →
    ((∃ feed, feed? kind n = .ok feed) ↔ ∃ p, includePhase n = .ok p)
  feed : ∀ f, feed? kind n = .ok (some f) → d.get? "primary_data" = some (.plain (.bool f.primary)) ∧
    ∀ v, f.batch = some v → KeepsSize block → d.get? "batch_size" = some (.plain (.int v))
  found : ∀ p root v vs, findBlock? p sizeBlock? (layers root) = .ok (some block) →
    block.findInts "batch_size" = .ok (v :: vs) → KeepsSize block →
    ∃ w, batchSize p root = .ok w ∧ d.get? "batch_size" = some (.plain (.int w))

section Layers

variable {kind : LayerKind} {n block : Node} {d : Record}

theorem feed?_isOk_iff (hb : n.findChild (sourceBlockName kind) = some block) {sizes : List Int}
    (hs : block.findInts "batch_size" = .ok sizes) {primary : Bool}
    (hp : isPrimary block = .ok primary) :
    (∃ feed, feed? kind n = .ok feed) ↔ ∃ p, includePhase n = .ok p := by
  rw [feed?, hb]
  dsimp only
  cases includePhase n with
  | error e =>
    constructor
    · rintro ⟨feed, h⟩
      cases h
    · rintro ⟨p, h⟩
      cases h
  | ok p =>
    refine iff_of_true ?_ ⟨p, rfl⟩
    rw [ok_bind]
    split
    · exact ⟨none, rfl⟩
    · rw [hp, hs]
      cases primary <;> exact ⟨_, rfl⟩

theorem readsAlike (hb : n.findChild (sourceBlockName kind) = some block)
    (hd : Record.ofNode .data block = .ok d) : ReadsAlike kind n block d where
  sizes _ h := findInts_of_spells h
  size _ _ h hk := get?_batchSize hd h hk
  flags := isPrimary_isOk_iff
  flag _ h := get?_primary hd h
  feeds := by
    rintro ⟨sizes, hsizes⟩ hflags
    obtain ⟨primary, hp⟩ := isPrimary_isOk_iff.mpr hflags
    exact feed?_isOk_iff hb (findInts_of_spells hsizes) hp
  feed := by
    rintro ⟨slot, primary, batch⟩ hf
    obtain ⟨block', phase, sizes, hb', -, -, -, hp, hsizes, rfl⟩ := feed?_eq_some_iff.mp hf
    cases hb.symm.trans hb'
    refine ⟨get?_primary hd hp, fun v hv hk => ?_⟩
    cases primary with
    | false =>
      cases hsizes
      cases hv
    | true =>
      obtain ⟨rest, rfl⟩ := List.head?_eq_some_iff.mp hv
      exact get?_batchSize hd hsizes hk
  found := by
    intro p root v vs hblock h hk
    refine ⟨v, ?_, get?_batchSize hd h hk⟩
    change (findBlock? p sizeBlock? (layers root) >>= _) = _
    rw [hblock, ok_bind]
    dsimp only
    rw [h]
    rfl

structure IsReadFrom (l : Layer) (n block : Node) : Prop where
  layer : Layer.ofNode n = .ok l
  kind : l.kind = .data ∨ l.kind = .tripletData
  block : n.findChildren "data_param" = [block]

theorem IsReadFrom.record {l : Layer} (h : IsReadFrom l n block) :
    ∃ d, Record.ofNode .data block = .ok d ∧ l.param? .data = some d := by
  have hlegal : Slot.data ∈ l.kind.legalSlots := by
    rcases h.kind with hk | hk <;> rw [hk] <;> decide +kernel
  exact Layer.param?_of_ofNode h.layer hlegal h.block

/-- Batch sizes that are whole numbers, and flags that are `true` or `false` in any case, are for rewrites
what they are in the record. Only a size beyond `2 ^ 53` that is not in plain digits may be another one
in the record. -/
theorem readsAlike_of_isReadFrom :
    (∀ v : Int, v.natAbs ≤ twoTo 53 → Double.Keeps v) ∧
      ∀ (l : Layer) (n block : Node), IsReadFrom l n block →
        ∃ d, l.param? .data = some d ∧ ReadsAlike l.kind n block d := by
  refine ⟨fun v hv => Double.keeps_of_le hv, fun l n block h => ?_⟩
  obtain ⟨d, hd, hparam⟩ := h.record
  have hname : sourceBlockName l.kind = "data_param" := by
    rcases h.kind with hk | hk <;> rw [hk] <;> rfl
  refine ⟨d, hparam, readsAlike ?_ hd⟩
  rw [hname, findChild_eq_head?, h.block]
  rfl

end Layers

section Spellings

def writtenBlock (size flag : String) : Node :=
  .block "data_param" [.leaf "batch_size" size .unknown, .leaf "primary_data" flag .unknown]

def trainingLayer (block : Node) : Node :=
  .block "layer"
    [.leaf "type" "Data" .string, .block "include" [.leaf "phase" "TRAIN" .unknown], block]

theorem exists_isReadFrom (size flag : String)
    (h : (Layer.ofNode (trainingLayer (writtenBlock size flag))).toOption.any
      (fun l => l.kind == .data) = true) :
    ∃ l, IsReadFrom l (trainingLayer (writtenBlock size flag)) (writtenBlock size flag) := by
  obtain ⟨l, hl, hk⟩ := exists_ok h
  exact ⟨l, hl, .inl (LawfulBEq.eq_of_beq hk), rfl⟩

theorem spells_sixteen : Spells " +1_6" 16 := by
  have hrun : DigitRun ['1', '_', '6'] [1, 6] := .joined (by decide) (.last (by decide))
  exact ⟨[' '], ['+', '1', '_', '6'], [], rfl, List.forall_mem_singleton.mpr rfl,
    List.forall_mem_nil _, .plus hrun (by decide)⟩

theorem readsAlike_sixteen : ∃ l d,
    IsReadFrom l (trainingLayer (writtenBlock " +1_6" "False")) (writtenBlock " +1_6" "False") ∧
      l.param? .data = some d ∧ (writtenBlock " +1_6" "False").findInts "batch_size" = .ok [16] ∧
      isPrimary (writtenBlock " +1_6" "False") = .ok false ∧
      d.get? "batch_size" = some (.plain (.int 16)) ∧
      d.get? "primary_data" = some (.plain (.bool false)) := by
  obtain ⟨l, hl⟩ := exists_isReadFrom " +1_6" "False" (by decide +kernel)
  obtain ⟨d, hd, halike⟩ := readsAlike_of_isReadFrom.2 l _ _ hl
  have hsizes := halike.sizes [16] (.cons spells_sixteen .nil)
  have hkeeps : KeepsSize (writtenBlock " +1_6" "False") := by
    intro text v ht hv
    cases ht
    cases hv.symm.trans (readInt?_of_spells spells_sixteen)
    exact .inr (readsAlike_of_isReadFrom.1 16 (by decide +kernel))
  exact ⟨l, d, hl, hd, hsizes, rfl, halike.size 16 [] hsizes hkeeps, halike.flag false rfl⟩

theorem get?_written {size flag : String} {l : Layer}
    (h : IsReadFrom l (trainingLayer (writtenBlock size flag)) (writtenBlock size flag)) :
    ∃ d, l.param? .data = some d ∧
      (∀ v, Record.valueOfText (.int .nonNegative) size = .ok v → d.get? "batch_size" = some v) ∧
      ∀ v, Record.valueOfText .bool flag = .ok v → d.get? "primary_data" = some v := by
  obtain ⟨d, hd, hparam⟩ := h.record
  obtain ⟨m, hm, hsize⟩ := Record.get?_of_cons isPlain_data hd sizeField nofun rfl
  obtain ⟨b, hb, hflag⟩ := Record.get?_of_cons isPlain_data hd flagField nofun rfl
  refine ⟨d, hparam, fun v hv => ?_, fun v hv => ?_⟩
  · cases hm.symm.trans hv
    exact hsize
  · cases hb.symm.trans hv
    exact hflag

theorem exists_read_apart :
    (∃ l d, IsReadFrom l (trainingLayer (writtenBlock "8" "yes")) (writtenBlock "8" "yes") ∧
      l.param? .data = some d ∧ d.get? "primary_data" = some (.plain (.bool true)) ∧
      ¬ ∃ p, isPrimary (writtenBlock "8" "yes") = .ok p) ∧
    (∃ l d, IsReadFrom l (trainingLayer (writtenBlock "1e2" "true")) (writtenBlock "1e2" "true") ∧
      l.param? .data = some d ∧ d.get? "batch_size" = some (.plain (.int 100)) ∧
      ¬ ∃ sizes, (writtenBlock "1e2" "true").findInts "batch_size" = .ok sizes) ∧
    ∃ l d, IsReadFrom l (trainingLayer (writtenBlock "9007199254740_993" "true"))
        (writtenBlock "9007199254740_993" "true") ∧
      l.param? .data = some d ∧ d.get? "batch_size" = some (.plain (.int 9007199254740992)) ∧
      (writtenBlock "9007199254740_993" "true").findInts "batch_size" = .ok [9007199254740993] := by
  refine ⟨?_, ?_, ?_⟩
  · obtain ⟨l, hl⟩ := exists_isReadFrom "8" "yes" (by decide +kernel)
    obtain ⟨d, hd, -, hflag⟩ := get?_written hl
    exact ⟨l, d, hl, hd, hflag _ rfl, nofun⟩
  · obtain ⟨l, hl⟩ := exists_isReadFrom "1e2" "true" (by decide +kernel)
    obtain ⟨d, hd, hsize, -⟩ := get?_written hl
    have hint : Record.intOfText "1e2" = .ok 100 := by decide +kernel
    refine ⟨l, d, hl, hd, hsize _ ?_, nofun⟩
    rw [Record.valueOfText, hint]
    rfl
  · obtain ⟨l, hl⟩ := exists_isReadFrom "9007199254740_993" "true" (by decide +kernel)
    obtain ⟨d, hd, hsize, -⟩ := get?_written hl
    have hint : Record.intOfText "9007199254740_993" = .ok 9007199254740992 := by decide +kernel
    refine ⟨l, d, hl, hd, hsize _ ?_, rfl⟩
    rw [Record.valueOfText, hint]
    rfl

end Spellings

end NetDesc.Network
