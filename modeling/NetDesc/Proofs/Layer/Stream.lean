import NetDesc.Layer.Stream
import NetDesc.Proofs.Layer.Tree
import NetDesc.Proofs.Stream.Mirror

namespace NetDesc

namespace Layer

open Writer

theorem mirrors_tag {α : Type} {table : List α} {x : α} {tag : Nat} (what : String)
    (h : table[tag]? = some x) : Mirrors (Writer.int tag) (readTag table what) x := by
  refine (mirrors_int tag).andThen ?_
  have hneg : ¬ ((tag : Int) < 0) := by omega
  rw [if_neg hneg, Int.toNat_natCast, h]
  exact Reader.reads_pure x

theorem getElem?_idxOf {α : Type} [BEq α] [LawfulBEq α] {table : List α} {x : α} (h : x ∈ table) :
    table[table.idxOf x]? = some x := by
  rw [List.getElem?_eq_getElem (List.idxOf_lt_length_of_mem h), List.getElem_idxOf]

theorem mirrors_kind (k : LayerKind) (what : String) :
    Mirrors (Writer.int k.tag) (readTag LayerKind.every what) k :=
  mirrors_tag what (getElem?_idxOf k.mem_every)

theorem mirrors_slot (s : Slot) (what : String) :
    Mirrors (Writer.int s.tag) (readTag Slot.every what) s :=
  mirrors_tag what (getElem?_idxOf s.mem_every)

theorem mirrors_phaseTag (p : Phase) (what : String) :
    Mirrors (Writer.int p.tag) (readTag Phase.every what) p :=
  mirrors_tag what (by cases p <;> rfl)

theorem mirrors_phase (p : Option Phase) :
    Mirrors (Writer.text? (p.map Phase.name)) readPhase p := by
  refine (mirrors_text? _).andThen ?_
  cases p with
  | none => exact Reader.reads_pure none
  | some p => exact Reader.reads_result (by rw [parsePhase_name]; rfl)

theorem mirrors_limit (limit : Phase × Int) : Mirrors (writeLimit limit) readLimit limit :=
  (mirrors_phaseTag limit.1 _).bind ((mirrors_int limit.2).map fun n => (limit.1, n))

theorem mirrors_param {kind : LayerKind} {p : Slot × Record} (hs : p.1 ∈ kind.legalSlots)
    (hr : p.2.fits Json.isNumeric p.1.recordClass = true) :
    Mirrors (writeParam p) (readParam kind) (p.1, p.2.reread .json) := by
  have hc : ¬ (!kind.legalSlots.contains p.1) = true := by simpa using hs
  refine (mirrors_slot p.1 _).bind ?_
  rw [if_neg hc]
  exact (mirrors_record hr).map fun r => (p.1, r)

theorem mirrors_limits (limits : List (Phase × Int)) :
    Mirrors (Writer.list writeLimit limits) (Reader.list readLimit) limits := by
  have h := mirrors_list (g := id) fun x (_ : x ∈ limits) => mirrors_limit x
  rwa [List.map_id] at h

theorem mirrors_params {kind : LayerKind} {params : List (Slot × Record)}
    (h : ∀ p ∈ params, p.1 ∈ kind.legalSlots ∧ p.2.fits Json.isNumeric p.1.recordClass = true) :
    Mirrors (Writer.list writeParam params) (Reader.list (readParam kind))
      (rereadParams .json params) :=
  mirrors_list fun p hp => mirrors_param (h p hp).1 (h p hp).2

theorem mirrors_write {l : Layer} (h : l.Fits Json.isNumeric) :
    Mirrors l.write read (l.reread .json) := by
  refine (mirrors_kind l.kind _).bind ?_
  refine (mirrors_text l.name).bind ?_
  refine (mirrors_texts l.bottom).bind ?_
  refine (mirrors_texts l.top).bind ?_
  refine (mirrors_phase l.phase).bind ?_
  refine (mirrors_doubles l.lossWeight).bind ?_
  refine (mirrors_records h.parameters).bind ?_
  refine (mirrors_records h.blobs).bind ?_
  refine (mirrors_bools l.propagateDown).bind ?_
  refine (mirrors_records h.includeRules).bind ?_
  refine (mirrors_records h.excludeRules).bind ?_
  refine (mirrors_limits l.maxBottomCount).bind ?_
  refine (mirrors_params h.params).andThen ?_
  have harranged : IsArranged (rereadParams .json l.params) := by
    rw [IsArranged, keys_rereadParams]
    exact h.arranged
  rw [foldl_putLimit_nil h.limits, foldl_putParam_eq isArranged_nil harranged (List.nil_subset _)]
  have hl : l.reread .json = { l.reread .json with solverCount := 1, solverRank := 0 } := by
    rw [reread, h.solverCount, h.solverRank]
  rw [hl]
  simp only [reread, Rereading.json_number, List.map_id]
  exact Reader.reads_pure _

theorem ofBytes_toBytes {l : Layer} {bs : Bytes} (h : l.Fits Json.isNumeric)
    (hw : l.toBytes = .ok bs) : ofBytes bs = .ok (l.reread .json) := by
  obtain ⟨u, he, rfl⟩ := map_eq_ok.mp hw
  have hread := mirrors_write h he []
  rw [List.append_nil] at hread
  exact congrArg Prod.fst hread

theorem record_reread (r : Record) : Writer.record (r.reread .json) = Writer.record r := by
  rw [Writer.record, Writer.record, Record.toJson_reread]

theorem list_map {α : Type} {write : α → Writer Unit} {g : α → α} (h : ∀ x, write (g x) = write x)
    (xs : List α) : Writer.list write (xs.map g) = Writer.list write xs := by
  rw [Writer.list, Writer.list, List.length_map]
  congr 1
  funext _
  induction xs with
  | nil => rfl
  | cons x xs ih =>
    change (write (g x) >>= fun _ => (xs.map g).forM write) = (write x >>= fun _ => xs.forM write)
    rw [h, ih]

theorem write_reread (l : Layer) : (l.reread .json).write = l.write := by
  have hrecords (rs : List Record) : Writer.records (rs.map (Record.reread .json)) =
      Writer.records rs := list_map record_reread rs
  have hparams : Writer.list writeParam (rereadParams .json l.params) =
      Writer.list writeParam l.params :=
    list_map (fun p => by rw [writeParam, writeParam, record_reread]) l.params
  simp only [write, reread, hrecords, hparams, Rereading.json_number, List.map_id]

theorem toBytes_reread (l : Layer) : (l.reread .json).toBytes = l.toBytes := by
  rw [toBytes, toBytes, write_reread]

theorem isWritable_of_ending {r : Record} (h : (Writer.record r).ending = .ok ()) :
    r.isWritable = true :=
  (record_of_ending h).1

theorem isWritable_of_records {rs : List Record} (h : (Writer.records rs).ending = .ok ()) :
    rs.all Record.isWritable = true :=
  List.all_eq_true.mpr fun r hr => isWritable_of_ending ((ending_list_iff.mp h).2 r hr)

theorem isWritable_of_limits {limits : List (Phase × Int)}
    (h : (Writer.list writeLimit limits).ending = .ok ()) :
    (limits.all fun p => !Decimal.isTooLong p.2.natAbs) = true := by
  rw [List.all_eq_true]
  intro p hp
  obtain ⟨-, hcount⟩ := ending_bind_iff.mp ((ending_list_iff.mp h).2 p hp)
  have hword := Bytes.isWord_iff.mp (ending_int_iff.mp hcount)
  have hten : Decimal.tenTo 10 = 10000000000 := rfl
  rw [Decimal.isTooLong_of_lt (k := 10) (by decide) (by omega)]
  rfl

theorem isWritable_of_params {params : List (Slot × Record)}
    (h : (Writer.list writeParam params).ending = .ok ()) :
    (params.map Prod.snd).all Record.isWritable = true := by
  rw [List.all_map, List.all_eq_true]
  intro p hp
  exact isWritable_of_ending (ending_bind_iff.mp ((ending_list_iff.mp h).2 p hp)).2

/-- What fits a stream has a text: a count there has 32 bits. -/
theorem encode_of_ending {l : Layer} (h : l.write.ending = .ok ()) (name : String) :
    l.encode name = .ok (l.toNode name) := by
  obtain ⟨-, h⟩ := ending_bind_iff.mp h
  obtain ⟨-, h⟩ := ending_bind_iff.mp h
  obtain ⟨-, h⟩ := ending_bind_iff.mp h
  obtain ⟨-, h⟩ := ending_bind_iff.mp h
  obtain ⟨-, h⟩ := ending_bind_iff.mp h
  obtain ⟨-, h⟩ := ending_bind_iff.mp h
  obtain ⟨hparameters, h⟩ := ending_bind_iff.mp h
  obtain ⟨hblobs, h⟩ := ending_bind_iff.mp h
  obtain ⟨-, h⟩ := ending_bind_iff.mp h
  obtain ⟨hinclude, h⟩ := ending_bind_iff.mp h
  obtain ⟨hexclude, h⟩ := ending_bind_iff.mp h
  obtain ⟨hlimits, hparams⟩ := ending_bind_iff.mp h
  rw [encode, isWritable, isWritable_of_limits hlimits, records, List.all_append, List.all_append,
    List.all_append, List.all_append, isWritable_of_records hparameters,
    isWritable_of_records hblobs, isWritable_of_records hinclude, isWritable_of_records hexclude,
    isWritable_of_params hparams]
  rfl

/-- Layers that were written one after another are read one after another: each reading ends where
the bytes of the next layer begin, whatever comes after the last of them. What is read equals the
layer and has the same bytes and the same block. -/
theorem times_read_forM_write {ls : List Layer} (hf : ∀ l ∈ ls, l.Fits Json.isNumeric)
    (hw : (ls.forM write).ending = .ok ()) :
    ∃ rs : List Layer,
      (∀ k ≤ ls.length, ∀ rest,
        Reader.run (Reader.times read k) ((ls.forM write).bytes ++ rest) =
          (.ok (rs.take k), ((ls.drop k).forM write).bytes ++ rest)) ∧
      List.Forall₂ (fun l r => l.same r = true ∧ r.toBytes = l.toBytes ∧
        ∀ name, ∃ n, l.encode name = .ok n ∧ r.encode name = .ok n) ls rs := by
  refine ⟨ls.map (reread .json), fun k hk rest => ?_, ?_⟩
  · have hsplit := forM_append write (ls.take k) (ls.drop k)
    rw [List.take_append_drop] at hsplit
    rw [hsplit] at hw
    obtain ⟨htake, -, hb⟩ := ending_bind hw
    have hread := mirrors_times (fun l hl => mirrors_write (hf l (List.mem_of_mem_take hl))) htake
    rw [List.length_take, Nat.min_eq_left hk] at hread
    rw [hsplit, hb, List.append_assoc, hread, List.map_take]
  · rw [List.forall₂_map_right_iff, List.forall₂_same]
    refine fun l hl => ⟨?_, toBytes_reread l, fun name => ⟨_, encode_of_ending ?_ name, ?_⟩⟩
    · exact same_reread Rereading.keeps_json (hf l hl) (sameLimits_self (hf l hl).limits)
    · exact ending_forM_iff.mp hw l hl
    · have hsame := toNode_reread Rereading.keepsText_json (hf l hl) name
      rw [← hsame]
      apply encode_of_ending
      rw [write_reread]
      exact ending_forM_iff.mp hw l hl

def noiseData : Layer :=
  { create .dummyData "" with
    params := [(.dummyData, ((Record.standard .dummyData).put "data_filler"
      (.list [fillerOf "uniform" 1.0, fillerOf "xavier" 0.25])).put "shape"
        (.list [shapeOf [1, 8], shapeOf []]))] }

theorem fits_noiseData : noiseData.Fits Json.isNumeric :=
  { fits_create .dummyData "" with
    arranged := by
      change [Slot.dummyData].Sublist Slot.every
      decide
    params := by decide +kernel }

theorem times_read_forM_write_nested :
    ∃ rs : List Layer,
      (∀ k ≤ 3, ∀ rest,
        Reader.run (Reader.times read k)
            (([gaussianConvolution, noiseData, create .knn "near"].forM write).bytes ++ rest) =
          (.ok (rs.take k),
            (([gaussianConvolution, noiseData, create .knn "near"].drop k).forM write).bytes ++
              rest)) ∧
      List.Forall₂ (fun l r => l.same r = true ∧ r.toBytes = l.toBytes ∧
        ∀ name, ∃ n, l.encode name = .ok n ∧ r.encode name = .ok n)
        [gaussianConvolution, noiseData, create .knn "near"] rs := by
  have hf : ∀ l ∈ [gaussianConvolution, noiseData, create .knn "near"], l.Fits Json.isNumeric := by
    rw [List.forall_mem_cons, List.forall_mem_cons, List.forall_mem_singleton]
    exact ⟨fits_gaussianConvolution.mono fun _ => Json.isNumeric_of_isWritten, fits_noiseData,
      fits_create .knn "near"⟩
  have hw : ([gaussianConvolution, noiseData, create .knn "near"].forM write).ending = .ok () := by
    decide +kernel
  exact times_read_forM_write hf hw

end Layer

end NetDesc
