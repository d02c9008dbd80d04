import NetDesc.Proofs.Network.Apart
import NetDesc.Proofs.Network.Training
import NetDesc.Proofs.Tree.RoundTrip
import NetDesc.Proofs.Tree.Values

namespace NetDesc.Network

open Node

def RoundTrips (n : Node) : Prop :=
  ∃ text, serialize n = .ok text ∧ parse text = .ok n

theorem roundTrips_iff_isDescription {n : Node} : RoundTrips n ↔ IsDescription n := by
  constructor
  · rintro ⟨text, -, hp⟩
    exact isDescription_of_text hp
  · exact IsDescription.parse_serialize

def valueFields : List String :=
  ["source", "batch_size", "crop_size", "num_output"]

/-- A layer whose sources stand in blocks, and whose blocks have values where they are written. -/
structure IsRegular (l : Node) : Prop where
  sources : ∀ b ∈ l.children, b.name = "data_param" ∨ b.name = "batch_data_param" → b.isBlock = true
  values : ∀ b ∈ l.children, ∀ c ∈ b.children, c.name ∈ valueFields → c.isBlock = false

instance (l : Node) : Decidable (IsRegular l) :=
  decidable_of_iff
    ((∀ b ∈ l.children, b.name = "data_param" ∨ b.name = "batch_data_param" → b.isBlock = true) ∧
      ∀ b ∈ l.children, ∀ c ∈ b.children, c.name ∈ valueFields → c.isBlock = false)
    ⟨fun h => ⟨h.1, h.2⟩, fun h => ⟨h.sources, h.values⟩⟩

section Trees

variable {n l : Node} {new : List (Option Node)}

theorem isDescription_withLayers (h : IsDescription n) (hnew : ∀ l, some l ∈ new → IsField l) :
    IsDescription (withLayers n new) := by
  have hmem : ∀ c ∈ replaceLayers (layerKey n) n.children new, IsField c := by
    intro c hc
    rcases mem_replaceLayers hc with hc | ⟨hc, -⟩
    · exact hnew c hc
    · exact h.isField hc
  obtain ⟨cs, rfl, -⟩ := h
  exact ⟨_, rfl, hmem⟩

theorem isField_of_mem_layers (h : IsDescription n) (hl : l ∈ layers n) : IsField l :=
  h.isField (List.mem_filter.mp hl).1

end Trees

section Training

variable {settings : Settings} {name key bottom : String} {native : Bool} {p : Phase} {n l r : Node}

theorem isName_layerKey (n : Node) : Literal.isName (layerKey n).toList = true := by
  rcases layerKey_eq n with h | ⟨h, -⟩ <;> rw [h] <;> decide

theorem isLiteral_phase (p : Phase) : IsLiteral p.name .unknown := by
  cases p <;> exact .inr (by decide)

theorem isField_phaseRule (p : Phase) : IsField (block "include" [leaf "phase" p.name .unknown]) := by
  refine .block (by decide) ?_
  rw [List.forall_mem_singleton]
  exact (isLiteral_phase p).isField (by decide)

theorem isField_dataFields : ∀ c ∈ dataFields p native settings, IsField c := by
  have hcolor : IsLiteral (if native then "BGR" else "RGB") .unknown := by
    cases native <;> exact .inr (by decide)
  have htransform : IsField (block "transform_param"
      [leaf "scale" "1" .numeric, leaf "mirror" "true" .bool, leaf "use_imagedb_mean" "true" .bool,
        leaf "color_order" (if native then "BGR" else "RGB") .unknown]) := by
    refine .block (by decide) ?_
    simp only [List.forall_mem_cons]
    exact ⟨.word (by decide) (by decide), .word (by decide) (by decide), .word (by decide) (by decide),
      hcolor.isField (by decide), List.forall_mem_nil _⟩
  have hdata : IsField (block "data_param"
      [leaf "batch_size" (toString settings.dataBatchSize) .numeric,
        leaf "backend" settings.dataBackend.text .unknown,
        leaf "enable_random_selection" "true" .bool]) := by
    refine .block (by decide) ?_
    simp only [List.forall_mem_cons]
    exact ⟨(isLiteral_nat _).isField (by decide), (isLiteral_word _).isField (by decide),
      .word (by decide) (by decide), List.forall_mem_nil _⟩
  simp only [dataFields, List.forall_mem_cons]
  exact ⟨.string _ (by decide), .string _ (by decide), .string _ (by decide), isField_phaseRule p,
    htransform, hdata, List.forall_mem_nil _⟩

theorem isField_dataLayer (hk : Literal.isName key.toList = true) (source : String) :
    IsField (dataLayer key name p native source settings) := by
  have hnamed : IsField ((block key (dataFields p native settings)).insert 0 (leaf "name" name .string)) :=
    (IsField.block hk isField_dataFields).insert rfl (.string name (by decide)) 0
  apply hnamed.modifyChild
  intro c hc
  -- The only block of this name is the one among the fields of the layer.
  have hblock : c.isBlock = true := by
    simp [Node.insert, insertAt, dataFields, findChild, block, leaf] at hc
    rw [← hc]
    rfl
  exact (hnamed.of_mem (List.mem_of_find?_eq_some hc)).insert hblock (.string source (by decide)) 0

theorem isField_accuracyFields : ∀ c ∈ accuracyFields settings, IsField c := by
  have htop : IsField (block "accuracy_param"
      [leaf "top_k" (toString settings.accuracyTopK) .numeric]) := by
    refine .block (by decide) ?_
    rw [List.forall_mem_singleton]
    exact (isLiteral_nat _).isField (by decide)
  simp only [accuracyFields, List.forall_mem_cons]
  exact ⟨.string _ (by decide), .string _ (by decide), .string _ (by decide), .string _ (by decide),
    isField_phaseRule .test, htop, List.forall_mem_nil _⟩

theorem isField_accuracyLayer (hk : Literal.isName key.toList = true) :
    IsField (accuracyLayer key bottom settings) :=
  (IsField.block hk isField_accuracyFields).insert rfl (.string bottom (by decide)) 2

theorem isField_lossFields : ∀ c ∈ lossFields settings, IsField c := by
  have hloss : IsField (block "loss_param"
      [leaf "normalization" settings.lossNormalization.text .unknown]) := by
    refine .block (by decide) ?_
    rw [List.forall_mem_singleton]
    exact (isLiteral_word _).isField (by decide)
  simp only [lossFields, List.forall_mem_cons]
  exact ⟨.string _ (by decide), .word (by decide) (by decide), isField_phaseRule .train, hloss,
    List.forall_mem_nil _⟩

theorem value_type_of_ofNode {kind : LayerKind} (hk : LayerKind.ofNode l = .ok kind) :
    ∃ c, l.findChild "type" = some c ∧ c.isBlock = false := by
  unfold LayerKind.ofNode at hk
  split at hk
  · next text htext =>
    obtain ⟨c, hc, hv⟩ := Option.bind_eq_some_iff.mp htext
    exact ⟨c, hc, by rw [isBlock, hv]; rfl⟩
  · cases hk

theorem isField_setType (h : IsField l) {kind : LayerKind} (hk : LayerKind.ofNode l = .ok kind)
    (new : LayerKind) : IsField (l.setValue "type" new.name (some .string)) ∧
      (l.setValue "type" new.name (some .string)).isBlock = true := by
  obtain ⟨c, hc, hv⟩ := value_type_of_ofNode hk
  have hb : l.isBlock = true := h.isBlock_of_mem (List.mem_of_find?_eq_some hc)
  refine ⟨h.setValue hb (by decide) (isLiteral_string _) fun d hd => ?_, isBlock_setValue.trans hb⟩
  obtain rfl : c = d := Option.some.inj (hc.symm.trans hd)
  exact hv

theorem isField_toLoss (h : IsField l) {kind : LayerKind} (hk : LayerKind.ofNode l = .ok kind) :
    IsField (toLoss settings l) := by
  obtain ⟨hset, hb⟩ := isField_setType h hk .softmaxWithLoss
  apply hset.withChildren hb
  intro d hd
  rcases List.mem_append.mp hd with hd | hd
  · exact hset.of_mem hd
  · exact isField_lossFields d hd

theorem isDescription_forTraining (h : IsDescription n)
    (hr : forTraining settings name native n = .ok r) : IsDescription r := by
  obtain ⟨scanned, hm, ht, -, hr⟩ := forTraining_eq_ok hr
  have hscanned : ∀ s ∈ scanned, IsField s.2 := by
    intro s hs
    apply isField_of_mem_layers h
    rw [← hm]
    exact List.mem_map_of_mem hs
  have hstaying : ∀ s ∈ staying scanned, s ∈ scanned := fun s hs => (List.mem_filter.mp hs).1
  have hkey := isName_layerKey n
  rcases hr with rfl | ⟨rfl, -⟩
  · refine ⟨_, rfl, fun c hc => ?_⟩
    rcases List.mem_append.mp hc with hc | hc
    rcases List.mem_append.mp hc with hc | hc
    · exact h.isField (List.mem_of_find?_eq_some (Option.mem_toList.mp hc))
    · rcases mem_withData.mp hc with hc | ⟨-, rfl⟩ | ⟨-, rfl⟩
      · obtain ⟨s, hs, rfl | ⟨-, rfl⟩⟩ := mem_withLoss hc
        · exact hscanned s (hstaying s hs)
        · have hs := hstaying s hs
          exact isField_toLoss (hscanned s hs) (ofNode_of_traits (ht s hs))
      · exact isField_dataLayer hkey ""
      · exact isField_dataLayer hkey ""
    · obtain ⟨bottom, rfl⟩ := accuracyFor?_eq_some (Option.mem_toList.mp hc)
      exact isField_accuracyLayer hkey
  · apply isDescription_withLayers h
    intro l hl
    obtain ⟨s, hs, he⟩ := List.mem_map.mp hl
    split at he
    · cases he
      exact hscanned s hs
    · cases he

end Training

structure IsKept (l : Node) : Prop where
  field : IsField l
  regular : IsRegular l

section Layer

variable {l l' : Node} {blockName name value : String} {t : ValueType} {kind : LayerKind}

theorem isName_valueFields : ∀ name ∈ valueFields, Literal.isName name.toList = true := by
  decide

theorem isBlock_of_mem_setValue {n c : Node} {t : Option ValueType}
    (hc : c ∈ (n.setValue name value t).children) : c ∈ n.children ∨ c.isBlock = false := by
  unfold setValue at hc
  split at hc
  · refine (mem_modifyFirst hc).imp_right ?_
    rintro ⟨d, -, rfl⟩
    rfl
  · refine (List.mem_append.mp hc).imp_right fun hc => ?_
    rw [List.mem_singleton.mp hc]
    rfl

theorem isBlock_of_findInts {n : Node} {size : Int} {sizes : List Int} (h : IsField n)
    (hs : n.findInts name = .ok (size :: sizes)) : n.isBlock = true := by
  obtain ⟨value, hvalue, -⟩ := (of_mapM hs).2 size (List.mem_cons_self ..)
  obtain ⟨c, hc, -⟩ := List.mem_filterMap.mp hvalue
  exact h.isBlock_of_mem (List.mem_filter.mp hc).1

namespace IsKept

theorem modifyChild {f : Node → Node} (h : IsKept l)
    (hf : ∀ b, l.findChild blockName = some b → IsField (f b) ∧ (f b).name = b.name ∧
      (f b).isBlock = b.isBlock ∧ ∀ c ∈ (f b).children, c ∈ b.children ∨ c.isBlock = false) :
    IsKept (l.modifyChild blockName f) := by
  constructor
  · exact h.field.modifyChild fun b hb => (hf b hb).1
  constructor
  · intro b hb
    rcases mem_modifyFirst hb with hb | ⟨d, hd, rfl⟩
    · exact h.regular.sources b hb
    · obtain ⟨-, hname, hblock, -⟩ := hf d hd
      rw [hname, hblock]
      exact h.regular.sources d (List.mem_of_find?_eq_some hd)
  · intro b hb
    rcases mem_modifyFirst hb with hb | ⟨d, hd, rfl⟩
    · exact h.regular.values b hb
    · obtain ⟨-, -, -, hchildren⟩ := hf d hd
      intro c hc hwritten
      rcases hchildren c hc with hc | hc
      · exact h.regular.values d (List.mem_of_find?_eq_some hd) c hc hwritten
      · exact hc

theorem value_of_findChild (h : IsKept l) (hname : name ∈ valueFields) {b c : Node}
    (hb : l.findChild blockName = some b) (hc : b.findChild name = some c) : c.isBlock = false := by
  apply h.regular.values b (List.mem_of_find?_eq_some hb) c (List.mem_of_find?_eq_some hc)
  rwa [name_of_findChild hc]

theorem setValue (h : IsKept l) (hname : name ∈ valueFields) (hv : IsLiteral value t)
    (hblock : ∀ b, l.findChild blockName = some b → b.isBlock = true) :
    IsKept (l.modifyChild blockName fun b => b.setValue name value (some t)) := by
  apply h.modifyChild
  intro b hb
  have hfield : IsField b := h.field.of_mem (List.mem_of_find?_eq_some hb)
  refine ⟨?_, name_setValue, isBlock_setValue, fun c hc => isBlock_of_mem_setValue hc⟩
  apply hfield.setValue (hblock b hb) (isName_valueFields name hname) hv
  exact fun c hc => h.value_of_findChild hname hb hc

theorem overwrite (h : IsKept l) (hname : name ∈ valueFields) (hv : IsLiteral value t) :
    IsKept (l.modifyChild blockName fun b => b.modifyChild name fun c => c.withValue value t) := by
  apply h.modifyChild
  intro b hb
  have hfield : IsField b := h.field.of_mem (List.mem_of_find?_eq_some hb)
  refine ⟨?_, rfl, rfl, fun c hc => ?_⟩
  · apply hfield.modifyChild
    intro c hc
    have hvalue := h.value_of_findChild hname hb hc
    exact (hfield.of_mem (List.mem_of_find?_eq_some hc)).withValue hvalue hv
  · refine (mem_modifyFirst hc).imp_right ?_
    rintro ⟨d, -, rfl⟩
    rfl

theorem sourceBlock (h : IsKept l) (kind : LayerKind) {b : Node}
    (hb : l.findChild (sourceBlockName kind) = some b) : b.isBlock = true := by
  apply h.regular.sources b (List.mem_of_find?_eq_some hb)
  rw [name_of_findChild hb]
  exact (sourceBlockName_cases kind).symm

theorem place (h : IsKept l) (kind : LayerKind) (source : Option Source) :
    IsKept (place kind source l) := by
  cases source with
  | none => exact h
  | some s =>
    exact h.setValue (by decide) (isLiteral_string s.name) fun b hb => h.sourceBlock kind hb

theorem recrop {height : Nat} (h : IsKept l) (hr : recrop height l = .ok l') : IsKept l' := by
  unfold Network.recrop at hr
  split at hr
  · cases hr
    exact h
  next transform htransform =>
  obtain ⟨crops, hcrops, hr⟩ := bind_eq_ok.mp hr
  split at hr
  · next c cs =>
    split at hr
    · split at hr
      · cases hr
      · cases hr
        apply h.setValue (by decide) (isLiteral_nat height)
        intro b hb
        obtain rfl : transform = b := Option.some.inj (htransform.symm.trans hb)
        exact isBlock_of_findInts (h.field.of_mem (List.mem_of_find?_eq_some hb)) hcrops
    · cases hr
      exact h
  · cases hr
    exact h

theorem rebindLayer {b : Binding} {r : Rebound} (h : IsKept l) (hr : rebindLayer b l = .ok r) :
    IsKept r.layer := by
  obtain ⟨kind, -, hr⟩ := bind_eq_ok.mp hr
  split at hr
  · rw [rebindData_eq] at hr
    obtain ⟨feed, -, hr⟩ := bind_eq_ok.mp hr
    obtain ⟨cropped, hc, hr⟩ := bind_eq_ok.mp hr
    cases hr
    exact (h.place kind _).recrop hc
  · cases hr
    exact h

theorem applyToLayer {b : Binding} (h : IsKept l) (ha : applyToLayer b l = .ok l') : IsKept l' := by
  obtain ⟨use, hu, ha⟩ := bind_eq_ok.mp ha
  cases use with
  | none =>
    cases ha
    exact h
  | some u =>
    dsimp only at ha
    split at ha
    · cases ha
      exact h
    · cases ha
      exact h.overwrite (by decide) (isLiteral_string _)

end IsKept

end Layer

section Whole

variable {n m : Node} {b : Binding} {resize flag : Bool}

theorem isKept_raiseBatch {rs : List Rebound} (h : ∀ r ∈ rs, IsKept r.layer) :
    ∀ r ∈ raiseBatch rs, IsKept r.layer := by
  intro r hr
  unfold raiseBatch at hr
  dsimp only at hr
  split at hr
  · split at hr
    · rcases mem_modifyLast hr with hr | ⟨s, hs, rfl⟩
      · exact h r hr
      · have hs := h s (List.mem_reverse.mp (List.mem_of_find?_eq_some hs))
        exact hs.setValue (by decide) (isLiteral_int _) fun b hb => hs.sourceBlock s.kind hb
    · exact h r hr
  · exact h r hr

theorem isKept_withOutput {s : Rebound × Bool} (h : IsKept s.1.layer) (count? : Option Nat) :
    IsKept (withOutput count? s).layer := by
  cases count? with
  | none => exact h
  | some count =>
    rw [withOutput]
    split
    · exact h.overwrite (by decide) (isLiteral_nat count)
    · exact h

theorem isDescription_rebind (h : IsDescription n) (hregular : ∀ l ∈ layers n, IsRegular l)
    (hr : rebind b resize n = .ok (m, flag)) : IsDescription m := by
  rw [rebind_eq] at hr
  obtain ⟨rs, hrs, hr⟩ := bind_eq_ok.mp hr
  unfold finish at hr
  split at hr
  · cases hr
  cases hr
  have hkept : ∀ r ∈ rs, IsKept r.layer := by
    intro r hr
    obtain ⟨l, hl, hr⟩ := (of_mapM hrs).2 r hr
    exact (IsKept.mk (isField_of_mem_layers h hl) (hregular l hl)).rebindLayer hr
  apply isDescription_withLayers h
  intro l hl
  obtain ⟨s, hs, he⟩ := List.mem_map.mp hl
  cases he
  have hraised : s.1 ∈ raiseBatch rs := by
    rw [← map_beforeLoss (raiseBatch rs)]
    exact List.mem_map_of_mem hs
  exact (isKept_withOutput (isKept_raiseBatch hkept s.1 hraised) _).field

theorem isDescription_applySources (h : IsDescription n) (hregular : ∀ l ∈ layers n, IsRegular l)
    (ha : applySources b n = .ok m) : IsDescription m := by
  obtain ⟨ls, hls, ha⟩ := bind_eq_ok.mp ha
  cases ha
  apply isDescription_withLayers h
  intro l hl
  obtain ⟨l', hl', he⟩ := List.mem_map.mp hl
  cases he
  obtain ⟨before, hbefore, ha⟩ := (of_mapM hls).2 l hl'
  exact ((IsKept.mk (isField_of_mem_layers h hbefore) (hregular before hbefore)).applyToLayer ha).field

end Whole

/-- Networks that were completed, or put on other sources, are read back from their texts. -/
theorem rewritten_roundTrips {text : String} {n : Node} (h : parse text = .ok n) :
    (∀ settings name native r, forTraining settings name native n = .ok r → RoundTrips r) ∧
    ((∀ l ∈ layers n, IsRegular l) →
      (∀ b resize m flag, rebind b resize n = .ok (m, flag) → RoundTrips m) ∧
      ∀ b m, applySources b n = .ok m → RoundTrips m) := by
  have hn := isDescription_of_text h
  refine ⟨?_, fun hregular => ⟨?_, ?_⟩⟩
  · intro settings name native r hr
    exact (isDescription_forTraining hn hr).parse_serialize
  · intro b resize m flag hm
    exact (isDescription_rebind hn hregular hm).parse_serialize
  · intro b m hm
    exact (isDescription_applySources hn hregular hm).parse_serialize

def oddClassifier : String :=
  "name: \"1e3\" layer \x7b type: \"Data\" include \x7b phase: TRAIN \x7d " ++
    "transform_param \x7b crop_size: 8 \x7d data_param \x7b source: 7 batch_size: 4 \x7d \x7d " ++
    "layer \x7b type: \"Softmax\" bottom: \"\\\"\\n\" \x7d"

theorem rewritten_roundTrips_oddNames : ∃ n, parse oddClassifier = .ok n ∧
    (∃ r, forTraining .standard "true\n\"" false n = .ok r ∧ RoundTrips r) ∧
    (∃ r, rebind { training := { name := "-1.5", imageHeight := 16 } } false n = .ok r ∧
      RoundTrips r.1) ∧
    ∃ m, applySources { training := { name := "a\"b" } } n = .ok m ∧ RoundTrips m := by
  obtain ⟨n, hn, hd⟩ : ∃ n, parse oddClassifier = .ok n ∧
      (decide (∀ l ∈ layers n, IsRegular l) &&
        (forTraining .standard "true\n\"" false n).toOption.isSome &&
        (rebind { training := { name := "-1.5", imageHeight := 16 } } false n).toOption.isSome &&
        (applySources { training := { name := "a\"b" } } n).toOption.isSome) = true := by
    apply exists_parse
    · exact toList_append_of (toList_append_of String.toList_ofList String.toList_ofList)
        String.toList_ofList
    · decide +kernel
  simp only [Bool.and_eq_true, decide_eq_true_eq, Option.isSome_iff_exists, toOption_eq_some] at hd
  obtain ⟨⟨⟨hregular, r, hr⟩, s, hs⟩, m, hm⟩ := hd
  obtain ⟨htraining, hsources⟩ := rewritten_roundTrips hn
  obtain ⟨hrebind, happly⟩ := hsources hregular
  refine ⟨n, hn, ⟨r, hr, ?_⟩, ⟨s, hs, ?_⟩, ⟨m, hm, ?_⟩⟩
  · exact htraining _ _ _ r hr
  · exact hrebind _ _ s.1 s.2 hs
  · exact happly _ m hm

end NetDesc.Network
