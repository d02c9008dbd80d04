import NetDesc.Proofs.Layer.Whole
import NetDesc.Proofs.Network.Apart
import NetDesc.Proofs.Network.Running

namespace NetDesc.Network

open Node Layer Record

def writtenFields : List (RecordClass × String × Shape) :=
  [(.data, "source", .text), (.data, "batch_size", .int .nonNegative),
    (.data, "backend", .choice .backend), (.data, "enable_random_selection", .bool),
    (.batchData, "source", .text), (.transformation, "crop_size", .int .nonNegative),
    (.innerProduct, "num_output", .int .nonNegative), (.accuracy, "top_k", .int .positive),
    (.loss, "normalization", .choice .normalization)]

theorem isSingle_writtenFields : ∀ w ∈ writtenFields,
    (w.1.field? w.2.1).any (FieldSpec.isSingle w.2.2) = true := by
  decide +kernel

section Written

variable {c : RecordClass} {name text : String} {s : Shape} {t : Option ValueType} {n : Node}

theorem isSingle_of_written (hw : (c, name, s) ∈ writtenFields) :
    (c.field? name).all (FieldSpec.isSingle s) = true := by
  obtain ⟨f, hf, hs⟩ := (Option.any_eq_true ..).mp (isSingle_writtenFields _ hw)
  rw [hf]
  exact hs

theorem suits_written {t : ValueType} (hw : (c, name, s) ∈ writtenFields)
    (hv : ∃ v, valueOfText s text = .ok v) : Suits c (leaf name text t) :=
  suits_leaf (isSingle_of_written hw) hv

theorem decodes_written (hw : (c, name, s) ∈ writtenFields) (hd : Decodes c n)
    (hv : ∃ v, valueOfText s text = .ok v) : Decodes c (n.setValue name text t) :=
  decodes_setValue hd (isSingle_of_written hw) hv

end Written

section Made

variable {key name source bottom : String} {p : Phase} {native : Bool} {settings : Settings}
  {kind : LayerKind} {n r l : Node}

theorem isSound_include (p : Phase) :
    IsSound kind (block "include" [leaf "phase" p.name .unknown]) := by
  apply isSound_common (p := ("include", .stateRule)) (by simp [commonClasses]) rfl
  cases p <;> decide +kernel

def sourceBlock (source : String) (settings : Settings) : Node :=
  block "data_param"
    [leaf "source" source .string, leaf "batch_size" (toString settings.dataBatchSize) .numeric,
      leaf "backend" settings.dataBackend.text .unknown,
      leaf "enable_random_selection" "true" .bool]

theorem decodes_sourceBlock (h : Decimal.isTooLong settings.dataBatchSize = false) :
    Decodes .data (sourceBlock source settings) := by
  apply decodes_of_suits
  simp only [sourceBlock, block, List.forall_mem_cons]
  refine ⟨?_, ?_, ?_, ?_, List.forall_mem_nil _⟩
  · exact suits_written (s := .text) (by simp [writtenFields]) ⟨_, rfl⟩
  · apply suits_written (s := .int .nonNegative) (by simp [writtenFields])
    exact valueOfText_nat h (Bound.isOk_nonNegative (Int.natCast_nonneg _))
  · exact suits_written (s := .choice .backend) (by simp [writtenFields]) (valueOfText_word _)
  · exact suits_written (s := .bool) (by simp [writtenFields]) ⟨_, rfl⟩

theorem readsAs_dataLayer (h : Decimal.isTooLong settings.dataBatchSize = false) :
    ReadsAs .data (dataLayer key name p native source settings) := by
  have hchildren : (dataLayer key name p native source settings).children =
      leaf "name" name .string :: (dataFields p native settings).dropLast ++
        [sourceBlock source settings] := by
    simp [dataLayer, nameData, dataFields, modifyChild, modifyFirst, Node.insert, insertAt, block,
      leaf, sourceBlock]
  constructor
  · exact LayerKind.ofNode_of_findValue (findValue_type_dataLayer ..)
  · have hphase : (dataLayer key name p native source settings).findChild "phase" = none := by
      rw [findChild_eq_none_iff, hchildren]
      simp [dataFields, sourceBlock, block, leaf]
    rw [findValue, hphase]
    intro text ht
    cases ht
  · rw [hchildren]
    simp only [dataFields, List.dropLast_cons_cons, List.dropLast_singleton, List.cons_append,
      List.nil_append, List.forall_mem_cons]
    refine ⟨isSound_of_plain (by simp [leaf]), isSound_of_plain (by simp [leaf]),
      isSound_of_plain (by simp [leaf]), isSound_of_plain (by simp [leaf]), isSound_include p, ?_, ?_,
      List.forall_mem_nil _⟩
    · apply isSound_slot (s := .transformation) rfl (by decide +kernel)
      cases native <;> decide +kernel
    · exact isSound_slot (s := .data) rfl (by decide +kernel) (decodes_sourceBlock h)

theorem readsAs_accuracyLayer (h : Decimal.isTooLong settings.accuracyTopK = false) :
    ReadsAs .accuracy (accuracyLayer key bottom settings) := by
  have hparam : Decodes .accuracy
      (block "accuracy_param" [leaf "top_k" (toString settings.accuracyTopK) .numeric]) := by
    apply decodes_of_suits
    simp only [block, List.forall_mem_singleton]
    apply suits_written (s := .int .positive) (by simp [writtenFields])
    exact valueOfText_nat h (Bound.isOk_positive (Int.natCast_pos.mpr settings.accuracyTopK_pos))
  have hchildren : (accuracyLayer key bottom settings).children =
      (accuracyFields settings).take 2 ++ leaf "bottom" bottom .string ::
        (accuracyFields settings).drop 2 := rfl
  constructor
  · exact ofNode_accuracyLayer ..
  · have hphase : (accuracyLayer key bottom settings).findChild "phase" = none := by
      rw [findChild_eq_none_iff, hchildren]
      simp [accuracyFields, block, leaf]
    rw [findValue, hphase]
    intro text ht
    cases ht
  · rw [hchildren]
    simp only [accuracyFields, List.take_succ_cons, List.take_zero, List.drop_succ_cons,
      List.drop_zero, List.cons_append, List.nil_append, List.forall_mem_cons]
    exact ⟨isSound_of_plain (by simp [leaf]), isSound_of_plain (by simp [leaf]),
      isSound_of_plain (by simp [leaf]), isSound_of_plain (by simp [leaf]),
      isSound_of_plain (by simp [leaf]), isSound_include .test,
      isSound_slot (s := .accuracy) rfl (by decide +kernel) hparam, List.forall_mem_nil _⟩

theorem isSound_lossFields : ∀ c ∈ lossFields settings, IsSound .softmaxWithLoss c := by
  simp only [lossFields, List.forall_mem_cons]
  refine ⟨isSound_of_plain (by simp [leaf]), isSound_lossWeight rfl ?_, isSound_include .train,
    isSound_slot (s := .loss) rfl (by decide) ?_, List.forall_mem_nil _⟩
  · intro text ht
    cases ht
    exact Option.isSome_iff_exists.mp (by decide +kernel)
  · apply decodes_of_suits
    simp only [block, List.forall_mem_singleton]
    exact suits_written (s := .choice .normalization) (by simp [writtenFields, Slot.recordClass])
      (valueOfText_word _)

theorem readsAs_toLoss (h : ReadsAs .softmax l) : ReadsAs .softmaxWithLoss (toLoss settings l) := by
  have hslots : ∀ s ∈ LayerKind.softmax.legalSlots, s ∈ LayerKind.softmaxWithLoss.legalSlots := by
    decide
  constructor
  · exact LayerKind.ofNode_of_findValue (findValue_toLoss ..)
  · have hphase : (toLoss settings l).findChildren "phase" = l.findChildren "phase" := by
      rw [findChildren_toLoss settings l (by decide)]
      simp [lossFields, block, leaf]
    rw [findValue, findChild_eq_head?, hphase, ← findChild_eq_head?]
    exact h.phase
  · intro c hc
    rw [children_toLoss] at hc
    rcases List.mem_append.mp hc with hc | hc
    · rcases mem_setValue hc with hc | hc
      · exact (h.children c hc).mono fun s _ hs => hslots s hs
      · exact isSound_of_plain (by simp [hc])
    · exact isSound_lossFields c hc

theorem readsAs_of_traits {t : Traits} (h : DecodesWhole l) (ht : traits l = .ok t) :
    ReadsAs t.kind l := by
  obtain ⟨kind, hread⟩ := decodesWhole_iff.mp h
  obtain rfl : kind = t.kind := Except.ok.inj (hread.ofKind.symm.trans (ofNode_of_traits ht))
  exact hread

theorem decodesWhole_forTraining (hn : ∀ l ∈ layers n, DecodesWhole l)
    (h : forTraining settings name native n = .ok r) :
    ∀ l ∈ r.findChildren (layerKey n), DecodesWhole l := by
  obtain ⟨scanned, hm, ht, hwritten, hr⟩ := layers_forTraining h
  simp only [isUnwritten, Bool.or_eq_false_iff, Bool.and_eq_false_iff, Bool.not_eq_false',
    Bool.and_eq_true] at hwritten
  obtain ⟨hbatch, htop⟩ := hwritten
  have hold : ∀ s ∈ staying scanned, ReadsAs s.1.kind s.2 := by
    intro s hs
    have hmem := (List.mem_filter.mp hs).1
    exact readsAs_of_traits (hn s.2 (hm ▸ List.mem_map_of_mem hmem)) (ht s hmem)
  -- Samples are made up for a phase only where the size of the batches can be written.
  have hdata {p : Phase} (hp : p = .train ∨ p = .test)
      (hf : ((staying scanned).map Prod.fst).any (Traits.feeds p) = false) :
      Decimal.isTooLong settings.dataBatchSize = false := by
    refine hbatch.resolve_right fun hfeeds => ?_
    rcases hp with rfl | rfl
    · rw [hfeeds.1] at hf
      cases hf
    · rw [hfeeds.2] at hf
      cases hf
  intro l hl
  rw [hr] at hl
  rcases List.mem_append.mp hl with hl | hl
  · rcases mem_withData.mp hl with hl | ⟨hf, rfl⟩ | ⟨hf, rfl⟩
    · obtain ⟨s, hs, rfl | ⟨hsoft, rfl⟩⟩ := mem_withLoss hl
      · exact (hold s hs).whole
      · have hread := hold s hs
        rw [of_decide_eq_true hsoft] at hread
        exact (readsAs_toLoss hread).whole
    · exact (readsAs_dataLayer (hdata (.inr rfl) hf)).whole
    · exact (readsAs_dataLayer (hdata (.inl rfl) hf)).whole
  · have hsome := Option.mem_toList.mp hl
    obtain ⟨b, rfl⟩ := accuracyFor?_eq_some hsome
    refine (readsAs_accuracyLayer (htop.resolve_right fun hnone => ?_)).whole
    rw [hsome] at hnone
    cases hnone

end Made

section Stripped

variable {l l' n r : Node} {kind : LayerKind}

theorem readsAs_trimmed (h : ReadsAs kind l) (ht : Trimmed l l') : ReadsAs kind l' := by
  apply h.of_children (ht.findValue (by decide)) (ht.findValue (by decide))
  intro c hc
  by_cases hb : c.name = "bottom"
  · exact .inr (isSound_of_plain (by simp [hb]))
  · have hfound : c ∈ l'.findChildren c.name := List.mem_filter.mpr ⟨hc, beq_self_eq_true _⟩
    rw [ht.children c.name hb] at hfound
    exact .inl (List.mem_filter.mp hfound).1

theorem readsAs_toSoftmax (h : ReadsAs .softmaxWithLoss l) : ReadsAs .softmax (toSoftmax l) := by
  have hslots : ∀ s ∈ LayerKind.softmaxWithLoss.legalSlots, s.name ≠ "loss_param" →
      s ∈ LayerKind.softmax.legalSlots := by
    decide
  have hsame (x : String) (hb : x ≠ "bottom") (hw : x ≠ "loss_weight") (hp : x ≠ "loss_param") :
      (toSoftmax l).findValue x =
        (l.setValue "type" LayerKind.softmax.name (some .string)).findValue x := by
    rw [findValue, findChild_eq_head?, findChildren_toSoftmax l hb hw hp, ← findChild_eq_head?]
    rfl
  constructor
  · apply LayerKind.ofNode_of_findValue
    rw [hsame "type" (by decide) (by decide) (by decide)]
    exact findValue_setValue ..
  · rw [hsame "phase" (by decide) (by decide) (by decide), findValue,
      findChild_setValue_of_ne (by decide)]
    exact h.phase
  · intro c hc
    rw [children_toSoftmax] at hc
    obtain ⟨hc, hname⟩ := List.mem_filter.mp hc
    rcases mem_setValue (mem_removeValue hc) with hc | hc
    · refine (h.children c hc).mono fun s hs hlegal => hslots s hlegal ?_
      rw [Slot.name_of_ofName? hs]
      simpa using ((Bool.and_eq_true ..).mp hname).2
    · exact isSound_of_plain (by simp [hc])

theorem decodesWhole_forRunning {settings : Settings} {input : String} {shape : InputShape}
    {transform : Option Node} (hn : ∀ l ∈ layers n, DecodesWhole l)
    (h : forRunning settings input shape n = .ok (r, transform)) :
    ∀ l ∈ r.findChildren (layerKey n), DecodesWhole l := by
  intro l hl
  obtain ⟨s, hs, t, l', ht, -, htrimmed, hcases⟩ := origin h hl
  have hread := readsAs_trimmed (readsAs_of_traits (hn s hs) ht) htrimmed
  rcases hcases with ⟨-, rfl⟩ | ⟨hloss, -, rfl⟩
  · exact hread.whole
  · rw [hloss] at hread
    exact (readsAs_toSoftmax hread).whole

end Stripped

section Rebound

variable {b : Binding} {n l : Node} {kind : LayerKind} {r : Rebound} {rs : List Rebound}

def sourceSlot (kind : LayerKind) : Slot :=
  if kind = .batchData then .batchData else .data

theorem name_sourceSlot (kind : LayerKind) : (sourceSlot kind).name = sourceBlockName kind := by
  unfold sourceSlot sourceBlockName
  split <;> rfl

theorem readsAs_place (h : ReadsAs kind l) (source : Option Source) :
    ReadsAs kind (place kind source l) := by
  have htext : ((sourceSlot kind).recordClass, "source", Shape.text) ∈ writtenFields := by
    unfold sourceSlot
    split <;> simp [writtenFields, Slot.recordClass]
  cases source with
  | none => exact h
  | some s =>
    rw [Network.place, ← name_sourceSlot]
    apply h.modifyChild fun c => name_setValue
    intro c _ hc
    exact decodes_written htext hc ⟨_, rfl⟩

theorem readsAs_recrop {height : Nat} {l' : Node} (h : ReadsAs kind l)
    (hc : recrop height l = .ok l') : ReadsAs kind l' := by
  rcases recrop_eq_ok hc with rfl | ⟨hshort, rfl⟩
  · exact h
  · refine h.modifyChild (s := .transformation) (fun c => name_setValue) ?_
    intro c _ hd
    apply decodes_written (s := .int .nonNegative) (by simp [writtenFields, Slot.recordClass]) hd
    exact valueOfText_nat hshort (Bound.isOk_nonNegative (Int.natCast_nonneg _))

def IsSize (kind : LayerKind) (size : Int) : Prop :=
  Decimal.isTooLong size.natAbs = false ∧ (kind ≠ .batchData → 0 ≤ size)

structure IsRead (r : Rebound) : Prop where
  reads : ReadsAs r.kind r.layer
  sizes : ∀ slot size, r.batch? slot = some size → IsSize r.kind size

theorem batch_of_feed? {f : Feed} {size : Int} (h : feed? kind l = .ok (some f))
    (hb : f.batch = some size) :
    ∃ block text rest, l.findChild (sourceBlockName kind) = some block ∧
      block.findValues "batch_size" = text :: rest ∧ Decimal.readInt? text = some size := by
  obtain ⟨slot, primary, batch⟩ := f
  obtain rfl : batch = some size := hb
  obtain ⟨-, block, phase, sizes, hblock, -, -, -, -, hsizes⟩ := feed?_batch_iff.mp h
  obtain ⟨text, rest, hvalues, htext⟩ := readScalars_cons hsizes
  exact ⟨block, text, rest, hblock, hvalues, htext⟩

theorem isSize_of_feed? (hl : ReadsAs kind l) {f : Feed} {size : Int}
    (h : feed? kind l = .ok (some f)) (hb : f.batch = some size) : IsSize kind size := by
  obtain ⟨block, text, rest, hblock, hvalues, htext⟩ := batch_of_feed? h hb
  refine ⟨Decimal.isTooLong_of_readInt? htext, fun hkind => ?_⟩
  have hname : block.name = Slot.data.name := by
    have hslot : sourceBlockName kind = Slot.data.name := if_neg hkind
    rw [← hslot]
    exact Node.name_of_findChild hblock
  obtain ⟨-, hdecodes⟩ := (hl.children block (List.mem_of_find?_eq_some hblock)).slot .data
    (hname ▸ Slot.ofName?_name .data)
  obtain ⟨v, hv⟩ :=
    valueOfText_of_decodes hdecodes (isSingle_writtenFields (.data, "batch_size", .int .nonNegative)
      (by simp [writtenFields])) hvalues
  exact nonneg_of_valueOfText htext hv

theorem isRead_rebindLayer (hl : DecodesWhole l) (h : rebindLayer b l = .ok r) : IsRead r := by
  obtain ⟨kind, hread⟩ := decodesWhole_iff.mp hl
  obtain ⟨k, hk, h⟩ := bind_eq_ok.mp h
  obtain rfl : kind = k := Except.ok.inj (hread.ofKind.symm.trans hk)
  split at h
  · rw [rebindData_eq] at h
    obtain ⟨feed, hfeed, h⟩ := bind_eq_ok.mp h
    obtain ⟨cropped, hc, h⟩ := bind_eq_ok.mp h
    cases h
    refine ⟨readsAs_recrop (readsAs_place hread _) hc, fun slot size hb => ?_⟩
    obtain ⟨f, rfl, hf⟩ := Option.bind_eq_some_iff.mp hb
    split at hf
    · exact isSize_of_feed? hread hfeed hf
    · cases hf
  · cases h
    exact ⟨hread, fun slot size hb => nomatch hb⟩

theorem IsRead.setBatch (h : IsRead r) {size : Int} (hs : IsSize r.kind size) :
    IsRead (r.setBatch size) := by
  have hblock : ReadsAs r.kind (r.layer.modifyChild (sourceSlot r.kind).name fun block =>
      block.setValue "batch_size" (toString size) (some .numeric)) := by
    apply h.reads.modifyChild fun c => name_setValue
    intro c _ hc
    by_cases hk : r.kind = .batchData
    · -- Such a block has no field for the size, and what has no field is passed over.
      rw [sourceSlot, if_pos hk] at hc ⊢
      exact decodes_setValue (s := .text) hc (by decide +kernel) ⟨_, rfl⟩
    · rw [sourceSlot, if_neg hk] at hc ⊢
      apply decodes_written (s := .int .nonNegative) (by simp [writtenFields, Slot.recordClass]) hc
      have hnonneg := hs.2 hk
      exact valueOfText_int hs.1 (Bound.isOk_nonNegative hnonneg)
  rw [name_sourceSlot] at hblock
  exact ⟨hblock, h.sizes⟩

theorem isRead_raiseBatch (h : ∀ r ∈ rs, IsRead r) : ∀ r ∈ raiseBatch rs, IsRead r := by
  intro r hr
  unfold raiseBatch at hr
  dsimp only at hr
  split at hr
  · next train test htrain htest =>
    split at hr
    · next hlt =>
      rcases mem_modifyLast hr with hr | ⟨s, hs, rfl⟩
      · exact h r hr
      · have hmem : s ∈ rs := List.mem_reverse.mp (List.mem_of_find?_eq_some hs)
        obtain ⟨t, ht, hbatch⟩ := List.exists_of_findSome?_eq_some htest
        rw [findSome?_of_find? hs] at htrain
        have hsize := (h s hmem).sizes _ _ htrain
        have hlength := ((h t (List.mem_reverse.mp ht)).sizes _ _ hbatch).1
        refine (h s hmem).setBatch ⟨hlength, fun hk => ?_⟩
        -- The size for tests is above the one that it takes the place of.
        exact Int.le_of_lt (Int.lt_of_le_of_lt (hsize.2 hk) hlt)
    · exact h r hr
  · exact h r hr

theorem readsAs_withOutput {s : Rebound × Bool} {count? : Option Nat} (h : IsRead s.1)
    (hc : isResized s = true → count?.any Decimal.isTooLong = false) :
    ReadsAs s.1.kind (withOutput count? s).layer := by
  cases count? with
  | none => exact h.reads
  | some count =>
    rw [withOutput]
    split
    · next hs =>
      refine h.reads.modifyChild (s := .innerProduct) (fun c => rfl) ?_
      intro c hfound hd
      have houtput : (c.findChild "num_output").isSome = true := by
        rw [isResized, Rebound.hasOutput, Bool.and_eq_true, Bool.and_eq_true] at hs
        have hsome := hs.2.2
        rwa [show s.1.layer.findChild "inner_product_param" = some c from hfound] at hsome
      have hset : (c.modifyChild "num_output" fun d => d.withValue (toString count) .numeric) =
          c.setValue "num_output" (toString count) (some .numeric) := by
        rw [setValue, if_pos houtput]
        rfl
      rw [hset]
      apply decodes_written (s := .int .nonNegative) (by simp [writtenFields, Slot.recordClass]) hd
      have hshort := hc hs
      rw [Option.any_some] at hshort
      exact valueOfText_nat hshort (Bound.isOk_nonNegative (Int.natCast_nonneg _))
    · exact h.reads

theorem decodesWhole_rebind {resize resized : Bool} {m : Node} (hn : ∀ l ∈ layers n, DecodesWhole l)
    (h : rebind b resize n = .ok (m, resized)) :
    ∀ l ∈ m.findChildren (layerKey n), DecodesWhole l := by
  rw [rebind_eq] at h
  obtain ⟨rs, hrs, h⟩ := bind_eq_ok.mp h
  have hread : ∀ r ∈ raiseBatch rs, IsRead r := by
    apply isRead_raiseBatch
    intro r hr
    obtain ⟨l, hl, hstep⟩ := (of_mapM hrs).2 r hr
    exact isRead_rebindLayer (hn l hl) hstep
  unfold finish at h
  split at h
  · cases h
  next hshort =>
  cases h
  intro l hl
  obtain ⟨s, hs, he⟩ := List.mem_map.mp (mem_findChildren_withLayers hl)
  cases he
  have hfirst : s.1 ∈ raiseBatch rs := by
    rw [← map_beforeLoss (raiseBatch rs)]
    exact List.mem_map_of_mem hs
  refine (readsAs_withOutput (hread s.1 hfirst) fun hresized => ?_).whole
  rw [Bool.and_eq_true, not_and] at hshort
  rw [Bool.eq_false_iff]
  exact fun hlong => hshort hlong (List.any_eq_true.mpr ⟨s, hs, hresized⟩)

end Rebound

/-- Where every layer can be read without loss, so can every layer that a rewrite leaves or makes up
under the same key, whatever it is given. -/
theorem rewrites_decodeWhole {n : Node} (hn : ∀ l ∈ layers n, DecodesWhole l) :
    (∀ settings name native r, forTraining settings name native n = .ok r →
      ∀ l ∈ r.findChildren (layerKey n), DecodesWhole l) ∧
    (∀ settings input shape r, forRunning settings input shape n = .ok r →
      ∀ l ∈ r.1.findChildren (layerKey n), DecodesWhole l) ∧
    (∀ b resize r, rebind b resize n = .ok r →
      ∀ l ∈ r.1.findChildren (layerKey n), DecodesWhole l) := by
  refine ⟨?_, ?_, ?_⟩
  · intro settings name native r h
    exact decodesWhole_forTraining hn h
  · intro settings input shape r h
    exact decodesWhole_forRunning hn h
  · intro b resize r h
    exact decodesWhole_rebind hn h

def trainedClassifier : Node :=
  root [
    block "layer" [leaf "type" "Data" .string, block "include" [leaf "phase" "TRAIN" .unknown],
      block "transform_param" [leaf "crop_size" "8" .numeric],
      block "data_param" [leaf "source" "a" .string, leaf "batch_size" "2" .numeric]],
    block "layer" [leaf "type" "InnerProduct" .string,
      block "inner_product_param" [leaf "num_output" "2" .numeric]],
    block "layer" [leaf "type" "SoftmaxWithLoss" .string, leaf "bottom" "ip" .string,
      leaf "bottom" "label" .string, block "loss_param" [leaf "normalization" "VALID" .unknown]]]

theorem rewrites_decodeWhole_trainedClassifier :
    (∃ r, forTraining .standard "net" false trainedClassifier = .ok r ∧
      (r.findChildren "layer").length = 5 ∧ ∀ l ∈ r.findChildren "layer", DecodesWhole l) ∧
    (∃ r, forRunning .standard "data" smallInput trainedClassifier = .ok r ∧
      (r.1.findChildren "layer").length = 2 ∧ ∀ l ∈ r.1.findChildren "layer", DecodesWhole l) ∧
    ∃ r, rebind (tenLabels none) true trainedClassifier = .ok r ∧ r.2 = true ∧
      ∀ l ∈ r.1.findChildren "layer", DecodesWhole l := by
  have hwhole : ∀ l ∈ layers trainedClassifier, DecodesWhole l := by decide +kernel
  have hkey : layerKey trainedClassifier = "layer" := by decide +kernel
  have hrewrites := rewrites_decodeWhole hwhole
  rw [hkey] at hrewrites
  refine ⟨?_, ?_, ?_⟩
  · obtain ⟨r, hr, hfive⟩ : ∃ r, forTraining .standard "net" false trainedClassifier = .ok r ∧
        (r.findChildren "layer").length = 5 := by
      decide +kernel
    exact ⟨r, hr, hfive, hrewrites.1 _ _ _ _ hr⟩
  · obtain ⟨r, hr, htwo⟩ : ∃ r, forRunning .standard "data" smallInput trainedClassifier = .ok r ∧
        (r.1.findChildren "layer").length = 2 := by
      decide +kernel
    exact ⟨r, hr, htwo, hrewrites.2.1 _ _ _ _ hr⟩
  · obtain ⟨r, hr, hresized⟩ : ∃ r, rebind (tenLabels none) true trainedClassifier = .ok r ∧
        r.2 = true := by
      decide +kernel
    exact ⟨r, hr, hresized, hrewrites.2.2 _ _ _ hr⟩

end NetDesc.Network
