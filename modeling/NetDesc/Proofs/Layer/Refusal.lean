import NetDesc.Layer.Tree
import NetDesc.Proofs.Layer.Stream
import NetDesc.Proofs.Record.Refusal

namespace NetDesc

namespace Reader

variable {α β : Type} {r : Reader α} {f : α → Reader β} {bs rest : Bytes}

/-- The last bytes taken are a length and as many bytes that are no text. -/
def EndsBroken (bs rest : Bytes) : Prop :=
  ∃ before length text, bs = before ++ (length ++ text) ++ rest ∧ length.length = 4 ∧
    Bytes.toWord length = text.length ∧ Bytes.toText? text = none

/-- What is accepted stands before the rest, and a failure is one of decoding or that of a broken
text. -/
structure Refuses (r : Reader α) : Prop where
  accepted : ∀ bs x rest, r.run bs = (.ok x, rest) → rest <:+ bs
  refused : ∀ bs e rest, r.run bs = (.error e, rest) →
    e.isDecoding = true ∨ (e = .notUtf8 ∧ EndsBroken bs rest)

theorem EndsBroken.of_suffix {left : Bytes} (h : EndsBroken left rest) (hs : left <:+ bs) :
    EndsBroken bs rest := by
  obtain ⟨before, length, text, rfl, hl, hw, ht⟩ := h
  obtain ⟨first, rfl⟩ := hs
  exact ⟨first ++ before, length, text, by simp, hl, hw, ht⟩

theorem refuses_result (result : Result α) (h : ∀ e, result = .error e → e.isDecoding = true) :
    Refuses (ExceptT.mk (pure result) : Reader α) where
  accepted := by
    intro bs x rest hr
    obtain ⟨-, rfl⟩ := Prod.mk.inj hr
    exact List.suffix_refl bs
  refused := by
    intro bs e rest hr
    exact .inl (h e (Prod.mk.inj hr).1)

theorem refuses_pure (x : α) : (pure x : Reader α).Refuses :=
  refuses_result (.ok x) nofun

theorem refuses_throw {e : Failure} (h : e.isDecoding = true) : (throw e : Reader α).Refuses := by
  refine refuses_result (.error e) ?_
  rintro _ ⟨⟩
  exact h

theorem Refuses.bind (h : r.Refuses) (hf : ∀ x, (f x).Refuses) : (r >>= f).Refuses where
  accepted := by
    intro bs y rest hr
    rw [run_bind] at hr
    split at hr
    · next x left hx =>
      exact ((hf x).accepted left y rest hr).trans (h.accepted bs x left hx)
    · cases hr
  refused := by
    intro bs e rest hr
    rw [run_bind] at hr
    split at hr
    · next x left hx =>
      -- The second reader has only seen what the first left.
      have hs := h.accepted bs x left hx
      exact ((hf x).refused left e rest hr).imp_right fun he => ⟨he.1, he.2.of_suffix hs⟩
    · next he =>
      cases hr
      exact h.refused bs e rest he

theorem Refuses.map (h : r.Refuses) (g : α → β) : (r >>= fun x => pure (g x)).Refuses :=
  h.bind fun x => refuses_pure (g x)

theorem refuses_take (n : Nat) : (take n).Refuses where
  accepted := by
    intro bs x rest hr
    rw [run_take] at hr
    split at hr
    · cases hr
    · cases hr
      exact List.drop_suffix n bs
  refused := by
    intro bs e rest hr
    rw [run_take] at hr
    split at hr
    · cases hr
      exact .inl rfl
    · cases hr

theorem refuses_int : int.Refuses :=
  (refuses_take 4).map Bytes.toWord

theorem refuses_double : double.Refuses :=
  (refuses_take 8).map Bytes.toDouble

theorem refuses_bool : bool.Refuses :=
  (refuses_take 1).map (· != [0])

theorem eq_of_run_take {n : Nat} {taken : Bytes} (h : (take n).run bs = (.ok taken, rest)) :
    bs = taken ++ rest ∧ taken.length = n := by
  rw [run_take] at h
  split at h
  · cases h
  · next hlength =>
    cases h
    have hle : (bs.take n).length ≤ n := List.length_take_le n bs
    exact ⟨(List.take_append_drop n bs).symm, by omega⟩

theorem eq_of_run_int {n : Int} (h : int.run bs = (.ok n, rest)) :
    ∃ length, bs = length ++ rest ∧ length.length = 4 ∧ Bytes.toWord length = n := by
  rw [int, run_bind] at h
  split at h
  · next length left htake =>
    obtain ⟨rfl, hlength⟩ := eq_of_run_take htake
    obtain ⟨hn, rfl⟩ := Prod.mk.inj h
    exact ⟨length, rfl, hlength, Except.ok.inj hn⟩
  · cases h

theorem run_text? (bs : Bytes) : text?.run bs =
    match int.run bs with
    | (.error e, left) => (.error e, left)
    | (.ok n, left) =>
      if n < 0 then (.ok none, left)
      else
        match (take n.toNat).run left with
        | (.error e, rest) => (.error e, rest)
        | (.ok taken, rest) => ((Bytes.toText? taken).elim (.error .notUtf8) fun s => .ok (some s), rest) := by
  rw [text?, run_bind]
  rcases int.run bs with ⟨e | n, left⟩
  · rfl
  · dsimp only
    split
    · rfl
    · rw [run_bind, utf8, run_bind]
      rcases (take n.toNat).run left with ⟨e | taken, rest⟩
      · rfl
      · dsimp only
        cases Bytes.toText? taken <;> rfl

theorem refuses_text? : text?.Refuses where
  accepted := by
    intro bs x rest hr
    rw [run_text?] at hr
    split at hr
    · cases hr
    · next n left hint =>
      obtain ⟨length, rfl, -, -⟩ := eq_of_run_int hint
      split at hr
      · cases hr
        exact List.suffix_append ..
      · split at hr
        · cases hr
        · next taken rest htake =>
          obtain ⟨rfl, -⟩ := eq_of_run_take htake
          obtain ⟨-, rfl⟩ := Prod.mk.inj hr
          exact ⟨length ++ taken, List.append_assoc ..⟩
  refused := by
    intro bs e rest hr
    rw [run_text?] at hr
    split at hr
    · next hint =>
      cases hr
      exact refuses_int.refused bs e rest hint
    · next n left hint =>
      obtain ⟨length, rfl, hlength, hword⟩ := eq_of_run_int hint
      split at hr
      · cases hr
      · split at hr
        · next htake =>
          cases hr
          have hs : left <:+ length ++ left := List.suffix_append length left
          exact ((refuses_take _).refused left e rest htake).imp_right fun he =>
            ⟨he.1, he.2.of_suffix hs⟩
        · next hn taken rest htake =>
          obtain ⟨rfl, htaken⟩ := eq_of_run_take htake
          obtain ⟨he, rfl⟩ := Prod.mk.inj hr
          cases ht : Bytes.toText? taken with
          | some s =>
            rw [ht] at he
            cases he
          | none =>
            rw [ht] at he
            cases he
            exact .inr ⟨rfl, [], length, taken, by simp, hlength, by omega, ht⟩

theorem refuses_text : text.Refuses :=
  refuses_text?.map fun t => t.getD ""

theorem refuses_count : count.Refuses := by
  refine refuses_int.bind fun n => ?_
  split
  · exact refuses_throw rfl
  · exact refuses_pure n.toNat

theorem Refuses.times (h : r.Refuses) (n : Nat) : (times r n).Refuses := by
  induction n with
  | zero => exact refuses_pure []
  | succ n ih => exact h.bind fun x => ih.map fun xs => x :: xs

theorem Refuses.list (h : r.Refuses) : (list r).Refuses :=
  refuses_count.bind fun n => h.times n

theorem refuses_record (c : RecordClass) : (record c).Refuses :=
  refuses_text.bind fun payload =>
    refuses_result (recordOfText c payload) fun _ => isDecoding_recordOfText

def FailsOn (r : Reader α) (bs : Bytes) (e : Failure) : Prop :=
  ∀ rest, (r.run (bs ++ rest)).1 = .error e

theorem FailsOn.bind {e : Failure} (h : r.FailsOn bs e) : (r >>= f).FailsOn bs e := by
  intro rest
  have hr := h rest
  rw [run_bind]
  split
  · next hx =>
    rw [hx] at hr
    cases hr
  · next he =>
    rw [he] at hr
    cases hr
    rfl

theorem Reads.failsOn_bind {x : α} {first : Bytes} {e : Failure} (h : r.Reads first x)
    (hf : (f x).FailsOn bs e) : (r >>= f).FailsOn (first ++ bs) e := by
  intro rest
  rw [List.append_assoc, run_bind, h]
  exact hf rest

end Reader

theorem isDecoding_parsePhase {text : String} {e : Failure} (h : parsePhase text = .error e) :
    e.isDecoding = true := by
  unfold parsePhase at h
  split at h <;> cases h
  rfl

theorem isDecoding_mapM_parsePhase {text? : Option String} {e : Failure}
    (h : text?.mapM parsePhase = .error e) : e.isDecoding = true := by
  cases text? with
  | none => cases h
  | some text =>
    rw [Option.mapM_some] at h
    exact isDecoding_parsePhase (map_eq_error.mp h)

theorem LayerKind.isDecoding_parse {text : String} {e : Failure}
    (h : LayerKind.parse text = .error e) : e.isDecoding = true := by
  unfold LayerKind.parse at h
  split at h <;> cases h
  rfl

theorem LayerKind.isDecoding_ofNode {n : Node} {e : Failure} (h : LayerKind.ofNode n = .error e) :
    e.isDecoding = true := by
  unfold LayerKind.ofNode at h
  split at h
  · exact isDecoding_parse h
  · cases h
    rfl

theorem Node.isDecoding_readScalars {α : Type} {what name : String} {read : String → Option α}
    {n : Node} {e : Failure} (h : n.readScalars what read name = .error e) : e.isDecoding = true := by
  obtain ⟨text, -, h⟩ := exists_of_mapM_error h
  split at h <;> cases h
  rfl

namespace Layer

open Reader

section Bytes

theorem refuses_readTag {α : Type} (table : List α) (what : String) :
    (readTag table what).Refuses := by
  refine refuses_int.bind fun tag => ?_
  split
  · exact refuses_pure _
  · exact refuses_throw rfl

theorem refuses_readPhase : readPhase.Refuses := by
  refine refuses_text?.bind fun text => ?_
  cases text with
  | none => exact refuses_pure none
  | some text => exact refuses_result _ fun e he => isDecoding_parsePhase (map_eq_error.mp he)

theorem refuses_readLimit : readLimit.Refuses :=
  (refuses_readTag _ _).bind fun p => refuses_int.map fun n => (p, n)

theorem refuses_readParam (kind : LayerKind) : (readParam kind).Refuses := by
  refine (refuses_readTag _ _).bind fun s => ?_
  split
  · exact (refuses_throw rfl).bind fun _ => (refuses_record _).map fun r => (s, r)
  · exact (refuses_record _).map fun r => (s, r)

theorem refuses_read : read.Refuses := by
  refine (refuses_readTag _ _).bind fun kind => ?_
  refine refuses_text.bind fun name => ?_
  refine refuses_text.list.bind fun bottom => ?_
  refine refuses_text.list.bind fun top => ?_
  refine refuses_readPhase.bind fun phase => ?_
  refine refuses_double.list.bind fun lossWeight => ?_
  refine (refuses_record _).list.bind fun parameters => ?_
  refine (refuses_record _).list.bind fun blobs => ?_
  refine refuses_bool.list.bind fun propagateDown => ?_
  refine (refuses_record _).list.bind fun includeRules => ?_
  refine (refuses_record _).list.bind fun excludeRules => ?_
  refine refuses_readLimit.list.bind fun limits => ?_
  exact (refuses_readParam kind).list.bind fun params => refuses_pure _

theorem isWord_tag (kind : LayerKind) : Bytes.isWord (kind.tag : Int) = true := by
  cases kind <;> decide

theorem reads_kind (kind : LayerKind) (what : String) :
    (readTag LayerKind.every what).Reads (Bytes.ofWord kind.tag) kind := by
  refine (reads_int (isWord_tag kind)).andThen ?_
  have hneg : ¬ ((kind.tag : Int) < 0) := by omega
  have hentry : LayerKind.every[kind.tag]? = some kind := getElem?_idxOf kind.mem_every
  rw [if_neg hneg, Int.toNat_natCast, hentry]
  exact reads_pure kind

theorem failsOn_text? {text : Bytes} (hl : text.length < 0x80000000)
    (ht : Bytes.toText? text = none) :
    text?.FailsOn (Bytes.ofWord text.length ++ text) .notUtf8 := by
  intro left
  have hword : Bytes.isWord (text.length : Int) = true := by
    rw [← Int.ofNat_eq_natCast, Bytes.isWord]
    exact decide_eq_true hl
  have hneg : ¬ ((text.length : Int) < 0) := by omega
  rw [run_text?, List.append_assoc, reads_int hword]
  dsimp only
  rw [if_neg hneg, Int.toNat_natCast, reads_take]
  dsimp only
  rw [ht]
  rfl

theorem ofBytes_brokenName (kind : LayerKind) {text : Bytes} (hl : text.length < 0x80000000)
    (ht : Bytes.toText? text = none) (rest : Bytes) :
    ofBytes (Bytes.ofWord kind.tag ++ (Bytes.ofWord text.length ++ (text ++ rest))) =
      .error .notUtf8 := by
  have hread : Layer.read.FailsOn (Bytes.ofWord kind.tag ++ (Bytes.ofWord text.length ++ text))
      .notUtf8 :=
    (reads_kind kind _).failsOn_bind (failsOn_text? hl ht).bind.bind
  rw [ofBytes, ← List.append_assoc (Bytes.ofWord text.length), ← List.append_assoc]
  exact hread rest

end Bytes

section Trees

variable {n : Node} {e : Failure}

theorem isDecoding_readLimits {nodes : List Node} {limits : List (Phase × Int)}
    (h : readLimits limits nodes = .error e) : e.isDecoding = true := by
  induction nodes generalizing limits with
  | nil => cases h
  | cons n nodes ih =>
    rw [readLimits] at h
    rcases bind_eq_error.mp h with h | ⟨counts, -, h⟩
    · exact n.isDecoding_readScalars h
    · split at h
      · rcases bind_eq_error.mp h with h | ⟨p, -, h⟩
        · exact isDecoding_parsePhase h
        · exact ih h
      · exact ih h

theorem isDecoding_readSlots {kind : LayerKind} {nodes : List Node} {params : List (Slot × Record)}
    (h : (readSlots kind params nodes).2 = .error e) : e.isDecoding = true := by
  induction nodes generalizing params with
  | nil => cases h
  | cons n nodes ih =>
    rw [readSlots] at h
    split at h
    · exact ih h
    · split at h
      · exact ih h
      · split at h
        · exact ih h
        · next he =>
          cases h
          exact Record.isDecoding_ofNode n _ _ he

theorem isDecoding_mapM_ofNode {c : RecordClass} {nodes : List Node}
    (h : nodes.mapM (Record.ofNode c) = .error e) : e.isDecoding = true := by
  obtain ⟨n, -, h⟩ := exists_of_mapM_error h
  exact Record.isDecoding_ofNode n c e h

theorem isDecoding_readFields (h : readFields n = .error e) : e.isDecoding = true := by
  rcases bind_eq_error.mp h with h | ⟨kind, -, h⟩
  · exact LayerKind.isDecoding_ofNode h
  rcases bind_eq_error.mp h with h | ⟨phase, -, h⟩
  · exact isDecoding_mapM_parsePhase h
  rcases bind_eq_error.mp h with h | ⟨lossWeight, -, h⟩
  · exact n.isDecoding_readScalars h
  rcases bind_eq_error.mp h with h | ⟨parameters, -, h⟩
  · exact isDecoding_mapM_ofNode h
  rcases bind_eq_error.mp h with h | ⟨blobs, -, h⟩
  · exact isDecoding_mapM_ofNode h
  rcases bind_eq_error.mp h with h | ⟨propagateDown, -, h⟩
  · exact n.isDecoding_readScalars h
  rcases bind_eq_error.mp h with h | ⟨includeRules, -, h⟩
  · exact isDecoding_mapM_ofNode h
  rcases bind_eq_error.mp h with h | ⟨excludeRules, -, h⟩
  · exact isDecoding_mapM_ofNode h
  rcases bind_eq_error.mp h with h | ⟨limits, -, h⟩
  · exact isDecoding_readLimits h
  · cases h

theorem isDecoding_ofNode (h : ofNode n = .error e) : e.isDecoding = true := by
  unfold ofNode decode at h
  split at h
  · next he =>
    cases h
    exact isDecoding_readFields he
  · exact isDecoding_readSlots (map_eq_error.mp h)

end Trees

/-- No tree fails outside decoding. Bytes do only where the last ones read are a text that is no UTF-8,
and they do if it is the name, whatever follows it. -/
theorem isDecoding_or_brokenText (n : Node) (bs : Bytes) :
    (∀ e, ofNode n = .error e → e.isDecoding = true) ∧
      (∀ e, ofBytes bs = .error e →
        e.isDecoding = true ∨ (e = .notUtf8 ∧ EndsBroken bs (read.run bs).2)) ∧
      ∀ (kind : LayerKind) (text rest : Bytes),
        bs = Bytes.ofWord kind.tag ++ (Bytes.ofWord text.length ++ (text ++ rest)) →
        text.length < 0x80000000 → Bytes.toText? text = none → ofBytes bs = .error .notUtf8 := by
  refine ⟨fun e => isDecoding_ofNode, fun e he => ?_, ?_⟩
  · exact refuses_read.refused bs e (read.run bs).2 (Prod.ext he rfl)
  · rintro kind text rest rfl hl ht
    exact ofBytes_brokenName kind hl ht rest

def wideFilter : Node :=
  .block "layer" [.leaf "name" "conv" .string, .leaf "type" "Convolution" .string,
    .leaf "loss_weight" "0.5" .numeric, .block "include" [.leaf "phase" "TRAIN" .unknown],
    .block "convolution_param" [.leaf "num_output" "20" .numeric,
      .block "weight_filler" [.leaf "type" "gaussian" .string, .leaf "std" "wide" .string]]]

def fastFilter : Bytes :=
  (do
    Writer.int LayerKind.convolution.tag
    Writer.text "conv"
    Writer.texts ["data", "mask"]
    Writer.texts ["conv"]
    Writer.text? (some "TRAIN")
    Writer.doubles [0.5]
    Writer.int 2
    Writer.text "\x7b\"name\":\"w\"\x7d"
    Writer.text "\x7b\"lr_mult\":\"fast\"\x7d" : Writer Unit).bytes

theorem isDecoding_or_brokenText_nested :
    (ofNode wideFilter = .error (.undecodable (.invalidField "weight_filler" "std" .numberText)) ∧
      Failure.isDecoding (.undecodable (.invalidField "weight_filler" "std" .numberText)) = true) ∧
    (ofBytes fastFilter = .error (.undecodable (.invalidField "ParamSpec" "lr_mult" .numberText)) ∧
      Failure.isDecoding (.undecodable (.invalidField "ParamSpec" "lr_mult" .numberText)) = true) ∧
    ofBytes [0, 0, 0, 0, 1, 0, 0, 0, 255] = .error .notUtf8 := by
  obtain ⟨hnode, hbytes, -⟩ := isDecoding_or_brokenText wideFilter fastFilter
  obtain ⟨-, -, hname⟩ := isDecoding_or_brokenText wideFilter [0, 0, 0, 0, 1, 0, 0, 0, 255]
  obtain ⟨_, hn, rfl⟩ : ∃ e, ofNode wideFilter = .error e ∧
      e = .undecodable (.invalidField "weight_filler" "std" .numberText) := by
    decide +kernel
  obtain ⟨_, hb, rfl⟩ : ∃ e, ofBytes fastFilter = .error e ∧
      e = .undecodable (.invalidField "ParamSpec" "lr_mult" .numberText) := by
    decide +kernel
  refine ⟨⟨hn, hnode _ hn⟩, ⟨hb, ?_⟩, hname .absVal [255] [] rfl (by decide) (by decide)⟩
  exact (hbytes _ hb).resolve_right fun h => nomatch h.1

theorem exists_ofBytes_outside : ∃ bs e, ofBytes bs = .error e ∧ e.isDecoding = false := by
  have hbroken : Bytes.toText? [255] = none := by decide
  exact ⟨[0, 0, 0, 0] ++ ([1, 0, 0, 0] ++ ([255] ++ [])), .notUtf8,
    ofBytes_brokenName .absVal (by decide) hbroken [], rfl⟩

end Layer

end NetDesc
