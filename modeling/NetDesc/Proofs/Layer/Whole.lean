import NetDesc.Proofs.Layer.Normal
import NetDesc.Proofs.Record.Fields

namespace NetDesc.Layer

open Decimal

def DecodesWhole (n : Node) : Prop :=
  ∃ l, decode n = ([], .ok l)

instance (n : Node) : Decidable (DecodesWhole n) :=
  decidable_of_iff ((decode n).1.isEmpty = true ∧ (decode n).2.toOption.isSome = true) (by
    simp only [List.isEmpty_iff, Option.isSome_iff_exists, toOption_eq_some, DecodesWhole,
      Prod.ext_iff, exists_and_left])

def IsLimit (n : Node) : Prop :=
  ∃ counts, n.findInts "count" = .ok counts ∧
    (counts = [] ∨ ∀ text, n.findValue "phase" = some text → ∃ p, parsePhase text = .ok p)

def commonClasses : List (String × RecordClass) :=
  [("param", .paramSpec), ("blobs", .blob), ("include", .stateRule), ("exclude", .stateRule)]

structure IsSound (kind : LayerKind) (c : Node) : Prop where
  lossWeight : c.name = "loss_weight" → ∀ text, c.value = some text → ∃ x, readDouble? text = some x
  propagateDown : c.name = "propagate_down" → ∀ text, c.value = some text →
    ∃ b, Node.readBool? text = some b
  common : ∀ p ∈ commonClasses, c.name = p.1 → Record.Decodes p.2 c
  limit : c.name = "max_bottom_count" → IsLimit c
  slot : ∀ s, Slot.ofName? c.name = some s → s ∈ kind.legalSlots ∧ Record.Decodes s.recordClass c

structure ReadsAs (kind : LayerKind) (n : Node) : Prop where
  ofKind : LayerKind.ofNode n = .ok kind
  phase : ∀ text, n.findValue "phase" = some text → ∃ p, parsePhase text = .ok p
  children : ∀ c ∈ n.children, IsSound kind c

section Parts

variable {n : Node} {name : String}

theorem forall_of_readScalars {α : Type} {what : String} {read : String → Option α} :
    (∃ xs, n.readScalars what read name = .ok xs) ↔
      ∀ c ∈ n.findChildren name, ∀ text, c.value = some text → ∃ x, read text = some x := by
  rw [Node.readScalars_isOk_iff]
  constructor
  · intro h c hc text ht
    exact h text (List.mem_filterMap.mpr ⟨c, hc, ht⟩)
  · intro h text ht
    obtain ⟨c, hc, hv⟩ := List.mem_filterMap.mp ht
    exact h c hc text hv

theorem phase_isOk_iff {text? : Option String} : (∃ p, text?.mapM parsePhase = .ok p) ↔
    ∀ text, text? = some text → ∃ p, parsePhase text = .ok p := by
  cases text? with
  | none => exact iff_of_true ⟨none, rfl⟩ fun text h => nomatch h
  | some text =>
    simp only [Option.mapM_some, Option.some.injEq, forall_eq']
    constructor
    · rintro ⟨p, hp⟩
      obtain ⟨q, hq, -⟩ := map_eq_ok.mp hp
      exact ⟨q, hq⟩
    · rintro ⟨p, hp⟩
      exact ⟨some p, by rw [hp]; rfl⟩

theorem readLimits_isOk_iff {nodes : List Node} {limits : List (Phase × Int)} :
    (∃ ls, readLimits limits nodes = .ok ls) ↔ ∀ c ∈ nodes, IsLimit c := by
  induction nodes generalizing limits with
  | nil => exact iff_of_true ⟨limits, rfl⟩ (List.forall_mem_nil _)
  | cons c nodes ih =>
    rw [List.forall_mem_cons]
    constructor
    · rintro ⟨ls, h⟩
      obtain ⟨counts, hc, h⟩ := bind_eq_ok.mp h
      cases hp : c.findValue "phase" with
      | none =>
        rw [hp] at h
        exact ⟨⟨counts, hc, .inr fun text ht => nomatch hp.symm.trans ht⟩, ih.mp ⟨ls, h⟩⟩
      | some text =>
        rw [hp] at h
        cases counts with
        | nil => exact ⟨⟨[], hc, .inl rfl⟩, ih.mp ⟨ls, h⟩⟩
        | cons m counts =>
          obtain ⟨p, hphase, h⟩ := bind_eq_ok.mp h
          refine ⟨⟨m :: counts, hc, .inr fun other ht => ?_⟩, ih.mp ⟨ls, h⟩⟩
          rw [hp] at ht
          cases ht
          exact ⟨p, hphase⟩
    · rintro ⟨⟨counts, hc, hlimit⟩, hrest⟩
      rw [readLimits, hc, ok_bind]
      split
      · next text m rest hp =>
        obtain ⟨p, hphase⟩ := hlimit.resolve_left (List.cons_ne_nil m rest) text hp
        rw [hphase, ok_bind]
        exact ih.mpr hrest
      · exact ih.mpr hrest

theorem readSlots_isOk_iff {kind : LayerKind} {nodes : List Node} {params : List (Slot × Record)} :
    (∃ ps, readSlots kind params nodes = ([], .ok ps)) ↔
      ∀ c ∈ nodes, ∀ s, Slot.ofName? c.name = some s →
        s ∈ kind.legalSlots ∧ Record.Decodes s.recordClass c := by
  induction nodes generalizing params with
  | nil => exact iff_of_true ⟨params, rfl⟩ (List.forall_mem_nil _)
  | cons c nodes ih =>
    rw [List.forall_mem_cons]
    cases hn : Slot.ofName? c.name with
    | none =>
      rw [readSlots_cons_of_none hn, ih]
      exact (and_iff_right fun s hs => nomatch hs).symm
    | some t =>
      constructor
      · rintro ⟨ps, h⟩
        unfold readSlots at h
        rw [hn] at h
        dsimp only at h
        split at h
        · cases h
        · next hs =>
          split at h
          · next r hr =>
            refine ⟨fun s ht => ?_, ih.mp ⟨ps, h⟩⟩
            cases ht
            exact ⟨by simpa using hs, r, hr⟩
          · cases h
      · rintro ⟨hc, hrest⟩
        obtain ⟨hs, r, hr⟩ := hc t rfl
        rw [readSlots_cons_of_ok hn hs hr]
        exact ih.mpr hrest

end Parts

section Whole

variable {n : Node} {kind : LayerKind} {l : Layer}

theorem ReadsAs.named {name : String} {P : Node → Prop} (h : ReadsAs kind n)
    (hp : ∀ c, IsSound kind c → c.name = name → P c) : ∀ c ∈ n.findChildren name, P c := by
  intro c hc
  obtain ⟨hc, hname⟩ := List.mem_filter.mp hc
  exact hp c (h.children c hc) (LawfulBEq.eq_of_beq hname)

theorem ReadsAs.readFields (h : ReadsAs kind n) :
    ∃ l, Layer.readFields n = .ok l ∧ l.kind = kind := by
  have hcommon (name : String) (c : RecordClass) (hm : (name, c) ∈ commonClasses) :=
    mapM_isOk_iff.mpr (h.named fun m hs hn => hs.common (name, c) hm hn)
  obtain ⟨phase, hphase⟩ := phase_isOk_iff.mpr h.phase
  obtain ⟨weights, hweights⟩ : ∃ xs, n.findDoubles "loss_weight" = .ok xs :=
    forall_of_readScalars.mpr (h.named fun _ hs => hs.lossWeight)
  obtain ⟨down, hdown⟩ : ∃ bs, n.findBools "propagate_down" = .ok bs :=
    forall_of_readScalars.mpr (h.named fun _ hs => hs.propagateDown)
  obtain ⟨parameters, hparameters⟩ := hcommon "param" .paramSpec (by simp [commonClasses])
  obtain ⟨blobs, hblobs⟩ := hcommon "blobs" .blob (by simp [commonClasses])
  obtain ⟨includes, hincludes⟩ := hcommon "include" .stateRule (by simp [commonClasses])
  obtain ⟨excludes, hexcludes⟩ := hcommon "exclude" .stateRule (by simp [commonClasses])
  obtain ⟨limits, hlimits⟩ : ∃ ls, readLimits kind.spec.maxBottom
      (n.findChildren "max_bottom_count") = .ok ls :=
    readLimits_isOk_iff.mpr (h.named fun _ hs => hs.limit)
  have hstart : (create kind ((n.findValue "name").getD "")).maxBottomCount =
      kind.spec.maxBottom := rfl
  unfold Layer.readFields
  simp only [h.ofKind, ok_bind, hphase, hweights, hparameters, hblobs, hdown, hincludes, hexcludes,
    hstart, hlimits]
  exact ⟨_, rfl, rfl⟩

theorem readsAs_of_decode (h : decode n = ([], .ok l)) : ReadsAs l.kind n := by
  have hr := readFrom_ofNode (n := n) (l := l) (congrArg Prod.snd h)
  have hslots : ∀ c ∈ n.children, ∀ s, Slot.ofName? c.name = some s →
      s ∈ l.kind.legalSlots ∧ Record.Decodes s.recordClass c := by
    rw [decode] at h
    split at h
    · cases h
    · next m hm =>
      dsimp only at h
      obtain ⟨hdropped, hparams⟩ := Prod.mk.inj h
      obtain ⟨ps, hps, rfl⟩ := map_eq_ok.mp hparams
      refine readSlots_isOk_iff.mp ⟨ps, Prod.ext ?_ hps⟩
      exact List.map_eq_nil_iff.mp hdropped
  refine ⟨hr.kind, phase_isOk_iff.mp ⟨_, hr.phase⟩, fun c hc => ?_⟩
  have hfound {name : String} (hn : c.name = name) : c ∈ n.findChildren name :=
    List.mem_filter.mpr ⟨hc, beq_iff_eq.mpr hn⟩
  constructor
  · intro hn
    exact forall_of_readScalars.mp ⟨_, hr.lossWeight⟩ c (hfound hn)
  · intro hn
    exact forall_of_readScalars.mp ⟨_, hr.propagateDown⟩ c (hfound hn)
  · simp only [commonClasses, List.forall_mem_cons]
    refine ⟨fun hn => mapM_isOk_iff.mp ⟨_, hr.parameters⟩ c (hfound hn),
      fun hn => mapM_isOk_iff.mp ⟨_, hr.blobs⟩ c (hfound hn),
      fun hn => mapM_isOk_iff.mp ⟨_, hr.includeRules⟩ c (hfound hn),
      fun hn => mapM_isOk_iff.mp ⟨_, hr.excludeRules⟩ c (hfound hn), List.forall_mem_nil _⟩
  · intro hn
    exact readLimits_isOk_iff.mp ⟨_, hr.limits⟩ c (hfound hn)
  · exact hslots c hc

theorem decodesWhole_iff : DecodesWhole n ↔ ∃ kind, ReadsAs kind n := by
  constructor
  · rintro ⟨l, hl⟩
    exact ⟨l.kind, readsAs_of_decode hl⟩
  · rintro ⟨kind, h⟩
    obtain ⟨l, hl, rfl⟩ := h.readFields
    obtain ⟨ps, hps⟩ := readSlots_isOk_iff.mpr fun c hc => (h.children c hc).slot
    exact ⟨{ l with params := ps }, decode_of_ok hl hps⟩

end Whole

section Children

variable {n m c : Node} {kind kind' : LayerKind}

theorem ReadsAs.whole (h : ReadsAs kind n) : DecodesWhole n :=
  decodesWhole_iff.mpr ⟨kind, h⟩

theorem IsSound.mono (h : IsSound kind c)
    (hs : ∀ s, Slot.ofName? c.name = some s → s ∈ kind.legalSlots → s ∈ kind'.legalSlots) :
    IsSound kind' c :=
  { h with slot := fun s hn => ⟨hs s hn (h.slot s hn).1, (h.slot s hn).2⟩ }

theorem isSound_slot {s : Slot} (hn : c.name = s.name) (hs : s ∈ kind.legalSlots)
    (hd : Record.Decodes s.recordClass c) : IsSound kind c := by
  -- No slot has the name of one of a layer's fields.
  have hne {x : String} (hx : x ∈ fieldNames) : c.name ≠ x := by
    rintro rfl
    have hnone := ofName?_fieldNames _ hx
    rw [hn, Slot.ofName?_name] at hnone
    cases hnone
  refine ⟨fun h => absurd h (hne (by decide)), fun h => absurd h (hne (by decide)), ?_,
    fun h => absurd h (hne (by decide)), ?_⟩
  · simp only [commonClasses, List.forall_mem_cons]
    exact ⟨fun h => absurd h (hne (by decide)), fun h => absurd h (hne (by decide)),
      fun h => absurd h (hne (by decide)), fun h => absurd h (hne (by decide)),
      List.forall_mem_nil _⟩
  · intro t ht
    rw [hn, Slot.ofName?_name] at ht
    cases ht
    exact ⟨hs, hd⟩

theorem isSound_common {p : String × RecordClass} (hp : p ∈ commonClasses) (hn : c.name = p.1)
    (hd : Record.Decodes p.2 c) : IsSound kind c := by
  have hplain : ∀ q ∈ commonClasses, q.1 ≠ "loss_weight" ∧ q.1 ≠ "propagate_down" ∧
      q.1 ≠ "max_bottom_count" ∧ q.1 ∈ fieldNames := by
    decide
  have honly : ∀ p ∈ commonClasses, ∀ q ∈ commonClasses, p.1 = q.1 → p.2 = q.2 := by
    decide
  obtain ⟨hweight, hdown, hlimit, hfield⟩ := hplain p hp
  refine ⟨fun h => absurd (hn.symm.trans h) hweight, fun h => absurd (hn.symm.trans h) hdown,
    fun q hq h => ?_, fun h => absurd (hn.symm.trans h) hlimit, fun s hs => ?_⟩
  · rw [← honly p hp q hq (hn.symm.trans h)]
    exact hd
  · rw [hn, ofName?_fieldNames p.1 hfield] at hs
    cases hs

theorem isSound_plain (hn : c.name ∉ "loss_weight" :: "propagate_down" :: "max_bottom_count" ::
    commonClasses.map Prod.fst) (hs : Slot.ofName? c.name = none) : IsSound kind c := by
  simp only [List.mem_cons, not_or] at hn
  obtain ⟨hweight, hdown, hlimit, hcommon⟩ := hn
  refine ⟨fun h => absurd h hweight, fun h => absurd h hdown, fun p hp h => ?_,
    fun h => absurd h hlimit, fun s h => ?_⟩
  · exact absurd (h ▸ List.mem_map_of_mem hp) hcommon
  · rw [hs] at h
    cases h

theorem isSound_of_plain (hn : c.name ∈ ["name", "type", "bottom", "top"]) : IsSound kind c := by
  have hplain : ∀ name ∈ ["name", "type", "bottom", "top"], name ∈ fieldNames ∧
      name ∉ "loss_weight" :: "propagate_down" :: "max_bottom_count" ::
        commonClasses.map Prod.fst := by
    decide
  obtain ⟨hfield, hother⟩ := hplain c.name hn
  exact isSound_plain hother (ofName?_fieldNames c.name hfield)

theorem isSound_lossWeight (hn : c.name = "loss_weight")
    (h : ∀ text, c.value = some text → ∃ x, readDouble? text = some x) : IsSound kind c := by
  have hcommon : ∀ p ∈ commonClasses, "loss_weight" ≠ p.1 := by decide
  have hslot := ofName?_fieldNames "loss_weight" (by decide)
  refine ⟨fun _ => h, fun hd => ?_, fun p hp hc => ?_, fun hl => ?_, fun s hs => ?_⟩
  · exact absurd (hn.symm.trans hd) (by decide)
  · exact absurd (hn.symm.trans hc) (hcommon p hp)
  · exact absurd (hn.symm.trans hl) (by decide)
  · rw [hn, hslot] at hs
    cases hs

theorem ofNode_of_type (h : LayerKind.ofNode n = .ok kind)
    (ht : m.findValue "type" = n.findValue "type") : LayerKind.ofNode m = .ok kind := by
  unfold LayerKind.ofNode at h ⊢
  rw [ht]
  split at h
  · exact h
  · cases h

theorem ReadsAs.of_children (h : ReadsAs kind n) (ht : m.findValue "type" = n.findValue "type")
    (hp : m.findValue "phase" = n.findValue "phase")
    (hc : ∀ c ∈ m.children, c ∈ n.children ∨ IsSound kind c) : ReadsAs kind m where
  ofKind := ofNode_of_type h.ofKind ht
  phase := hp ▸ h.phase
  children c hm := (hc c hm).elim (h.children c) id

theorem ReadsAs.modifyChild {s : Slot} {f : Node → Node} (h : ReadsAs kind n)
    (hf : ∀ c, (f c).name = c.name)
    (hd : ∀ c, n.findChild s.name = some c → Record.Decodes s.recordClass c →
      Record.Decodes s.recordClass (f c)) : ReadsAs kind (n.modifyChild s.name f) := by
  have hne {x : String} (hx : x ∈ fieldNames) : s.name ≠ x := by
    rintro rfl
    have hnone := ofName?_fieldNames _ hx
    rw [Slot.ofName?_name] at hnone
    cases hnone
  apply h.of_children (Node.findValue_modifyChild_of_ne hf (hne (by decide)))
    (Node.findValue_modifyChild_of_ne hf (hne (by decide)))
  intro c hc
  refine (mem_modifyFirst hc).imp_right ?_
  rintro ⟨b, hb, rfl⟩
  have hname : b.name = s.name := Node.name_of_findChild hb
  obtain ⟨hs, hread⟩ := (h.children b (List.mem_of_find?_eq_some hb)).slot s
    (hname ▸ s.ofName?_name)
  exact isSound_slot ((hf b).trans hname) hs (hd b hb hread)

end Children

end NetDesc.Layer
