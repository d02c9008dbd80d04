import NetDesc.Proofs.Network.Rebound

namespace NetDesc.Network

open Node

inductive EditsFirst (name : String) (R : Node → Node → Prop) (n : Node) : Node → Prop
  | absent (h : n.findChild name = none) : EditsFirst name R n n
  | found {before after : List Node} {c c' : Node} (hn : n.children = before ++ c :: after)
      (hbefore : ∀ d ∈ before, d.name ≠ name) (hc : c.name = name) (hR : R c c') :
      EditsFirst name R n { n with children := before ++ c' :: after }

def Revalued (c c' : Node) : Prop :=
  c' = { c with value := c'.value, valueType := c'.valueType }

def SetsSource (block block' : Node) : Prop :=
  EditsFirst "source" Revalued block block' ∨
    block.findChild "source" = none ∧ ∃ name, block' = block.append (leaf "source" name .string)

/-- Of a data layer, its first source, its first crop and its first batch size may be others. -/
def EditsData (kind : LayerKind) (l l' : Node) : Prop :=
  ∃ placed cropped, EditsFirst (sourceBlockName kind) SetsSource l placed ∧
    EditsFirst "transform_param" (EditsFirst "crop_size" Revalued) placed cropped ∧
    EditsFirst (sourceBlockName kind) (EditsFirst "batch_size" Revalued) cropped l'

def EditsOutput (count : Nat) (l l' : Node) : Prop :=
  EditsFirst "inner_product_param"
    (EditsFirst "num_output" fun c c' => c' = c.withValue (toString count) .numeric) l l'

/-- An inner product that says how many outputs it has and comes right before a loss. -/
def IsClassifier (n : Node) (i : Nat) : Prop :=
  ∃ l p, (layers n)[i]? = some l ∧ LayerKind.ofNode l = .ok .innerProduct ∧
    l.findChild "inner_product_param" = some p ∧ (p.findChild "num_output").isSome ∧
    ∃ s kind, (layers n)[i + 1]? = some s ∧ LayerKind.ofNode s = .ok kind ∧ kind.isLoss = true

/-- No dataset is given for a data layer: no rule puts it into a phase, or it reads a second dataset
where there is none. -/
def IsUnbound (b : Binding) (l : Node) : Prop :=
  l.findChild "include" = none ∨ IsSecondary l ∧ b.target = none

structure Becoming (b : Binding) (resize : Bool) (n : Node) (i : Nat) (kind : LayerKind)
    (l l' : Node) : Prop where
  resized : resize = true → 0 < b.training.labelCount → IsClassifier n i →
    EditsOutput b.training.labelCount l l'
  kept : kind.isData = false → ¬ (resize = true ∧ 0 < b.training.labelCount ∧ IsClassifier n i) → l' = l
  data : kind.isData = true → EditsData kind l l'
  unbound : kind.isData = true → IsUnbound b l → l' = l

section Edits

variable {n block : Node} {name value : String} {R : Node → Node → Prop} {f : Node → Node}

theorem editsFirst_modifyChild (h : ∀ c, n.findChild name = some c → R c (f c)) :
    EditsFirst name R n (n.modifyChild name f) := by
  cases hc : n.findChild name with
  | none =>
    rw [modifyChild_of_findChild hc]
    exact .absent hc
  | some c =>
    have hname := name_of_findChild hc
    obtain ⟨hfound, before, after, hn, hbefore⟩ := List.find?_eq_some_iff_append.mp hc
    have hnot : ∀ d ∈ before, (d.name == name) = false := by
      intro d hd
      simpa using hbefore d hd
    have hsplit : modifyFirst (fun d : Node => d.name == name) f (before ++ c :: after) =
        before ++ f c :: after := modifyFirst_append (p := fun d : Node => d.name == name) hfound hnot
    rw [modifyChild, hn, hsplit]
    exact .found hn (fun d hd => by simpa using hnot d hd) hname (h c hc)

theorem editsFirst_self (h : ∀ c, R c c) : EditsFirst name R n n := by
  have hedit : EditsFirst name R n (n.modifyChild name fun c => c) := editsFirst_modifyChild fun c _ => h c
  have hself : n.modifyChild name (fun c => c) = n := modifyChild_eq_self fun c _ => rfl
  rwa [hself] at hedit

theorem revalued_self (c : Node) : Revalued c c := by
  cases c
  rfl

theorem revalued_withValue (c : Node) (value : String) (t : ValueType) :
    Revalued c (c.withValue value t) := rfl

theorem editsFirst_setValue {size : Int} {sizes : List Int} (h : block.findInts name = .ok (size :: sizes))
    (value : String) (t : Option ValueType) :
    EditsFirst name Revalued block (block.setValue name value t) := by
  have hfound : (block.findChild name).isSome = true := by
    obtain ⟨text, rest, hvalues, -⟩ := readScalars_cons h
    have htext : text ∈ block.findValues name := hvalues ▸ List.mem_cons_self ..
    obtain ⟨c, hc, -⟩ := List.mem_filterMap.mp htext
    obtain ⟨hc, hname⟩ := List.mem_filter.mp hc
    exact List.find?_isSome.mpr ⟨c, hc, hname⟩
  rw [setValue, if_pos hfound]
  exact editsFirst_modifyChild fun c _ => revalued_withValue c _ _

theorem setsSource_setValue (block : Node) (name : String) :
    SetsSource block (block.setValue "source" name (some .string)) := by
  unfold setValue
  split
  · exact .inl (editsFirst_modifyChild fun c _ => revalued_withValue c _ _)
  · next h => exact .inr ⟨Option.not_isSome_iff_eq_none.mp h, name, rfl⟩

theorem setsSource_self (block : Node) : SetsSource block block := .inl (editsFirst_self revalued_self)

end Edits

section Layer

variable {b : Binding} {l l' : Node} {kind : LayerKind} {r : Rebound} {height : Nat} {size : Int}
  {slot : Phase}

theorem editsFirst_place (kind : LayerKind) (source : Option Source) (l : Node) :
    EditsFirst (sourceBlockName kind) SetsSource l (place kind source l) := by
  cases source with
  | none => exact editsFirst_self setsSource_self
  | some s => exact editsFirst_modifyChild fun block _ => setsSource_setValue block s.name

theorem editsFirst_recrop (h : recrop height l = .ok l') :
    EditsFirst "transform_param" (EditsFirst "crop_size" Revalued) l l' := by
  have hself : EditsFirst "transform_param" (EditsFirst "crop_size" Revalued) l l :=
    editsFirst_self fun t => editsFirst_self revalued_self
  unfold recrop at h
  split at h
  · cases h
    exact hself
  next transform htransform =>
  obtain ⟨sizes, hsizes, h⟩ := bind_eq_ok.mp h
  split at h
  · next c sizes =>
    split at h
    · split at h
      · cases h
      cases h
      apply editsFirst_modifyChild
      intro t ht
      obtain rfl : transform = t := Option.some.inj (htransform.symm.trans ht)
      exact editsFirst_setValue hsizes _ _
    · cases h
      exact hself
  · cases h
    exact hself

theorem editsFirst_raise (h : r.Describes r.layer) (hr : r.batch? slot = some size) (raised : Int) :
    EditsFirst (sourceBlockName r.kind) (EditsFirst "batch_size" Revalued) r.layer
      (r.raise raised).layer := by
  obtain ⟨-, -, hfeed⟩ := h.feed?_of_batch? hr
  obtain ⟨-, block, phase, sizes, hblock, -, -, -, -, hsizes⟩ := feed?_batch_iff.mp hfeed
  apply editsFirst_modifyChild
  intro c hc
  obtain rfl : block = c := Option.some.inj (hblock.symm.trans hc)
  exact editsFirst_setValue hsizes _ _

theorem recrop_zero (h : recrop 0 l = .ok l') : l' = l := by
  have hcropped := h
  rw [recrop_eq Decimal.isTooLong_zero] at hcropped
  obtain ⟨sizes, hsizes, -⟩ := bind_eq_ok.mp hcropped
  rw [recrop_eq_self hsizes fun c _ hpos => absurd hpos (Nat.lt_irrefl 0)] at h
  exact (Except.ok.inj h).symm

theorem IsUnbound.feed (h : IsUnbound b l) (hr : r.Describes l) :
    ∀ f, r.feed = some f → f.primary = false ∧ b.target = none := by
  intro f hf
  have hd := hr.isData_of_feed hf
  have hfeed := (hr.feed hd).trans (congrArg _ hf)
  rcases h with hnone | ⟨hsecondary, htarget⟩
  · have hphase : includePhase l = .ok .none := by rw [includePhase, hnone]; rfl
    unfold feed? at hfeed
    split at hfeed
    · cases hfeed
    · rw [hphase, ok_bind, if_pos rfl] at hfeed
      cases hfeed
  · exact ⟨(isSecondary_of_feed? hr.ofKind hd hfeed).mp hsecondary, htarget⟩

theorem IsUnbound.layer_eq (h : IsUnbound b l) (hr : rebindLayer b l = .ok r) : r.layer = l := by
  obtain ⟨hread, ⟨-, hlayer⟩ | ⟨-, hcropped⟩⟩ := rebindLayer_eq_ok hr
  · exact hlayer
  · have hnone : r.source? b = none := by
      cases hf : r.feed with
      | none => rw [Rebound.source?, hf, Option.bind_none]
      | some f =>
        obtain ⟨hp, ht⟩ := h.feed hread f hf
        rw [Rebound.source?, hf, Option.bind_some, Feed.source?, hp, ht]
        rfl
    rw [Rebound.height, hnone] at hcropped
    exact recrop_zero hcropped

theorem IsUnbound.batch?_eq_none (h : IsUnbound b l) (hr : r.Describes l) : r.batch? slot = none := by
  rw [Option.eq_none_iff_forall_ne_some]
  intro size hbatch
  obtain ⟨-, hf, -⟩ := hr.feed?_of_batch? hbatch
  cases (h.feed hr _ hf).1

theorem editsData_rebindLayer (h : rebindLayer b l = .ok r) (hd : r.kind.isData = true) :
    ∃ placed, EditsFirst (sourceBlockName r.kind) SetsSource l placed ∧
      EditsFirst "transform_param" (EditsFirst "crop_size" Revalued) placed r.layer := by
  obtain ⟨-, ⟨hnot, -⟩ | ⟨-, hcropped⟩⟩ := rebindLayer_eq_ok h
  · exact absurd hd (Bool.eq_false_iff.mp hnot)
  · exact ⟨_, editsFirst_place r.kind _ l, editsFirst_recrop hcropped⟩

theorem editsOutput_setOutput (r : Rebound) (count : Nat) :
    EditsOutput count r.layer (r.setOutput count).layer :=
  editsFirst_modifyChild fun _ _ => editsFirst_modifyChild fun _ _ => rfl

theorem outputCount?_eq_some {resize : Bool} {count : Nat} : outputCount? b resize = some count ↔
    resize = true ∧ 0 < b.training.labelCount ∧ b.training.labelCount = count := by
  rw [outputCount?]
  split
  · next hpos =>
    rw [Bool.and_eq_true, decide_eq_true_eq] at hpos
    simp only [Option.some.injEq, hpos, true_and]
  · next hpos =>
    rw [Bool.and_eq_true, decide_eq_true_eq] at hpos
    refine iff_of_false (fun h => nomatch h) ?_
    rintro ⟨hresize, hcount, -⟩
    exact hpos ⟨hresize, hcount⟩

end Layer

section Whole

variable {b : Binding} {resize flag : Bool} {count? : Option Nat} {n m l l' : Node}
  {rs rs' : List Rebound} {r' : Rebound} {kind : LayerKind} {i : Nat}

theorem IsRebound.exists_kind (h : IsRebound b count? n m rs rs') (hr' : rs'[i]? = some r') :
    ∃ l, (layers n)[i]? = some l ∧ LayerKind.ofNode l = .ok r'.kind := by
  obtain ⟨r, hr, hraised⟩ := h.levels.of_getElem? hr'
  obtain ⟨l, hl, hstep⟩ := h.exists_layer hr
  have hkind : r'.kind = r.kind := by
    rcases hraised with rfl | ⟨train, test, -, -, rfl⟩ <;> rfl
  exact ⟨l, hl, hkind ▸ (describes_rebindLayer hstep).ofKind⟩

theorem IsRebound.exists_of_kind (h : IsRebound b count? n m rs rs') (hl : (layers n)[i]? = some l)
    (hk : LayerKind.ofNode l = .ok kind) : ∃ r', rs'[i]? = some r' ∧ r'.kind = kind := by
  obtain ⟨r, hr, -⟩ := h.exists_rebound hl
  have hlt : i < rs'.length := by
    rw [h.levels.length]
    exact (List.getElem?_eq_some_iff.mp hr).1
  have hr' := List.getElem?_eq_getElem hlt
  obtain ⟨s, hs, hks⟩ := h.exists_kind hr'
  obtain rfl : l = s := Option.some.inj (hl.symm.trans hs)
  exact ⟨_, hr', Except.ok.inj (hks.symm.trans hk)⟩

theorem IsRebound.layer_of_other (h : IsRebound b count? n m rs rs') (hr' : rs'[i]? = some r')
    (hd : r'.kind.isData = false) : (layers n)[i]? = some r'.layer := by
  obtain ⟨r, hr, hraised⟩ := h.levels.of_getElem? hr'
  obtain ⟨l, hl, hstep⟩ := h.exists_layer hr
  rcases hraised with rfl | ⟨train, test, hbatch, -, rfl⟩
  · obtain ⟨-, ⟨-, hlayer⟩ | ⟨hdata, -⟩⟩ := rebindLayer_eq_ok hstep
    · rw [hl, hlayer]
    · exact absurd hdata (Bool.eq_false_iff.mp hd)
  · have hdata := ((describes_rebindLayer hstep).feed?_of_batch? hbatch).1
    exact absurd hdata (Bool.eq_false_iff.mp hd)

theorem IsRebound.isResized_iff (h : IsRebound b count? n m rs rs') (hr' : rs'[i]? = some r') :
    isResized (r', rs'[i + 1]?.any fun s => s.kind.isLoss) = true ↔ IsClassifier n i := by
  rw [isResized, Rebound.hasOutput, Bool.and_eq_true, Bool.and_eq_true, decide_eq_true_eq,
    Option.any_eq_true]
  constructor
  · rintro ⟨⟨s, hs, hloss⟩, hkind, hout⟩
    have hlayer := h.layer_of_other hr' (by rw [hkind]; rfl)
    obtain ⟨l, hl, hk⟩ := h.exists_kind hr'
    obtain rfl : l = r'.layer := Option.some.inj (hl.symm.trans hlayer)
    obtain ⟨c, hc⟩ := Option.isSome_iff_exists.mp hout
    obtain ⟨p, hp, hout⟩ := Option.bind_eq_some_iff.mp hc
    obtain ⟨next, hnext, hknext⟩ := h.exists_kind hs
    exact ⟨_, p, hl, hkind ▸ hk, hp, Option.isSome_of_eq_some hout, next, s.kind, hnext, hknext, hloss⟩
  · rintro ⟨l, p, hl, hk, hp, hout, next, kind, hnext, hknext, hloss⟩
    obtain ⟨s, hs, hkind⟩ := h.exists_of_kind hl hk
    obtain rfl : r' = s := Option.some.inj (hr'.symm.trans hs)
    have hlayer := h.layer_of_other hr' (by rw [hkind]; rfl)
    obtain rfl : l = r'.layer := Option.some.inj (hl.symm.trans hlayer)
    obtain ⟨s, hs, rfl⟩ := h.exists_of_kind hnext hknext
    exact ⟨⟨s, hs, hloss⟩, hkind, by rw [hp]; exact hout⟩

theorem IsRebound.not_isClassifier (h : IsRebound b count? n m rs rs') (hr' : rs'[i]? = some r')
    (hd : r'.kind.isData = true) : ¬ IsClassifier n i := by
  intro hclass
  rw [ofKind_of_isResized ((h.isResized_iff hr').mpr hclass)] at hd
  cases hd

theorem IsRebound.layer_of_not (h : IsRebound b count? n m rs rs') (hr' : rs'[i]? = some r')
    (hclass : ¬ IsClassifier n i) :
    (withOutput count? (r', rs'[i + 1]?.any fun s => s.kind.isLoss)).layer = r'.layer := by
  rw [withOutput_of_not]
  exact Bool.eq_false_iff.mpr fun hresized => hclass ((h.isResized_iff hr').mp hresized)

theorem IsRebound.becoming (h : IsRebound b (outputCount? b resize) n m rs rs')
    (hl : (layers n)[i]? = some l) (hl' : (layers m)[i]? = some l') :
    ∃ kind, LayerKind.ofNode l = .ok kind ∧ Becoming b resize n i kind l l' := by
  obtain ⟨l, r, r', hn, hstep, hr', hraised, rfl⟩ := h.of_getElem? hl'
  obtain rfl := Option.some.inj (hl.symm.trans hn)
  have hdescribes := describes_rebindLayer hstep
  have hkind : r'.kind = r.kind := by
    rcases hraised with rfl | ⟨train, test, -, -, rfl⟩ <;> rfl
  have hother : r.kind.isData = false → r'.layer = l := by
    intro hd
    exact Option.some.inj ((h.layer_of_other hr' (by rwa [hkind])).symm.trans hl)
  have hdata : r.kind.isData = true → ¬ IsClassifier n i := fun hd =>
    h.not_isClassifier hr' (by rwa [hkind])
  refine ⟨r.kind, hdescribes.ofKind, ?_, ?_, ?_, ?_⟩
  · intro hresize hcount hclass
    have hd : r.kind.isData = false := Bool.eq_false_iff.mpr fun hd => hdata hd hclass
    rw [outputCount?_eq_some.mpr ⟨hresize, hcount, rfl⟩, withOutput,
      if_pos ((h.isResized_iff hr').mpr hclass), ← hother hd]
    exact editsOutput_setOutput r' _
  · intro hd hnot
    rw [← hother hd]
    by_cases hclass : IsClassifier n i
    · have hnone : outputCount? b resize = none := by
        rw [Option.eq_none_iff_forall_ne_some]
        intro count hcount
        obtain ⟨hresize, hpos, -⟩ := outputCount?_eq_some.mp hcount
        exact hnot ⟨hresize, hpos, hclass⟩
      rw [hnone, withOutput]
    · rw [h.layer_of_not hr' hclass]
  · intro hd
    obtain ⟨placed, hplaced, hcropped⟩ := editsData_rebindLayer hstep hd
    rw [h.layer_of_not hr' (hdata hd)]
    refine ⟨placed, r.layer, hplaced, hcropped, ?_⟩
    rcases hraised with rfl | ⟨train, test, hbatch, -, rfl⟩
    · exact editsFirst_self fun block => editsFirst_self revalued_self
    · exact editsFirst_raise (isAtRest_rebindLayer hstep).toDescribes hbatch test
  · intro hd hunbound
    rw [h.layer_of_not hr' (hdata hd)]
    rcases hraised with rfl | ⟨train, test, hbatch, -, rfl⟩
    · exact hunbound.layer_eq hstep
    · rw [hunbound.batch?_eq_none hdescribes] at hbatch
      cases hbatch

theorem forall₂_replaceLayers {key : String} {cs ls : List Node} (hn : ∀ l ∈ ls, l.name = key)
    (hl : ls.length = (cs.filter fun c => c.name == key).length) :
    List.Forall₂ (fun c c' => c'.name = c.name ∧ (c.name ≠ key → c' = c)) cs
      (replaceLayers key cs (ls.map some)) := by
  induction cs generalizing ls with
  | nil => exact .nil
  | cons c cs ih =>
    by_cases hc : c.name = key
    · cases ls with
      | nil => simp [hc] at hl
      | cons l ls =>
        rw [List.forall_mem_cons] at hn
        have hrest := ih hn.2 (by simpa [hc] using hl)
        rw [List.map_cons, replaceLayers, if_pos hc]
        exact .cons ⟨hn.1.trans hc.symm, fun hne => absurd hc hne⟩ hrest
    · unfold replaceLayers
      rw [if_neg hc]
      exact .cons ⟨rfl, fun _ => rfl⟩ (ih hn (by simpa [hc] using hl))

theorem IsRebound.resizes_iff (h : IsRebound b (outputCount? b resize) n m rs rs')
    (hfinish : finish (outputCount? b resize) n (beforeLoss rs') = .ok (m, flag)) :
    flag = true ↔ resize = true ∧ 0 < b.training.labelCount ∧ ∃ i, IsClassifier n i := by
  have hflag : flag = ((outputCount? b resize).isSome && (beforeLoss rs').any isResized) := by
    unfold finish at hfinish
    split at hfinish
    · cases hfinish
    · cases hfinish
      rfl
  have hany : (beforeLoss rs').any isResized = true ↔ ∃ i, IsClassifier n i := by
    rw [List.any_eq_true]
    constructor
    · rintro ⟨s, hs, hresized⟩
      obtain ⟨i, hi⟩ := List.mem_iff_getElem?.mp hs
      rw [getElem?_beforeLoss] at hi
      obtain ⟨r', hr', rfl⟩ := Option.map_eq_some_iff.mp hi
      exact ⟨i, (h.isResized_iff hr').mp hresized⟩
    · rintro ⟨i, hclass⟩
      obtain ⟨l, p, hl, hk, -⟩ := id hclass
      obtain ⟨r', hr', -⟩ := h.exists_of_kind hl hk
      refine ⟨_, List.mem_of_getElem? (i := i) ?_, (h.isResized_iff hr').mpr hclass⟩
      rw [getElem?_beforeLoss, hr', Option.map_some]
  rw [hflag, Bool.and_eq_true, hany, Option.isSome_iff_exists]
  simp only [outputCount?_eq_some]
  constructor
  · rintro ⟨⟨count, hresize, hpos, -⟩, hclass⟩
    exact ⟨hresize, hpos, hclass⟩
  · rintro ⟨hresize, hpos, hclass⟩
    exact ⟨⟨_, hresize, hpos, rfl⟩, hclass⟩

end Whole

theorem rebind_frame {b : Binding} {resize flag : Bool} {n m : Node}
    (h : rebind b resize n = .ok (m, flag)) :
    m = { n with children := m.children } ∧
    List.Forall₂ (fun c c' => c'.name = c.name ∧ (c.name ≠ layerKey n → c' = c)) n.children m.children ∧
    (layers m).length = (layers n).length ∧
    (∀ (i : Nat) l l', (layers n)[i]? = some l → (layers m)[i]? = some l' →
      ∃ kind, LayerKind.ofNode l = .ok kind ∧ Becoming b resize n i kind l l') ∧
    (flag = true ↔ resize = true ∧ 0 < b.training.labelCount ∧ ∃ i, IsClassifier n i) := by
  obtain ⟨rs, rs', h, hfinish⟩ := isRebound_of_rebind h
  refine ⟨?_, ?_, h.length, ?_, h.resizes_iff hfinish⟩
  · rw [h.whole]
    rfl
  · have hwhole : m.children = replaceLayers (layerKey n) n.children ((layers m).map some) :=
      congrArg Node.children h.whole
    rw [hwhole]
    exact forall₂_replaceLayers h.named h.length
  · exact fun i l l' hl hl' => h.becoming hl hl'

theorem rebind_frame_unevenReaders :
    ∃ m, rebind (tenLabels none) true unevenReaders = .ok (m, true) ∧
      List.Forall₂ (fun c c' => c'.name = c.name) unevenReaders.children m.children ∧
      ∃ i, IsClassifier unevenReaders i := by
  obtain ⟨⟨m, flag⟩, hm, hflag⟩ : ∃ r, rebind (tenLabels none) true unevenReaders = .ok r ∧
      r.2 = true := exists_ok (by decide +kernel)
  obtain rfl : flag = true := hflag
  obtain ⟨-, hchildren, -, -, hresized⟩ := rebind_frame hm
  exact ⟨m, hm, hchildren.imp fun c c' hc => hc.1, (hresized.mp rfl).2.2⟩

end NetDesc.Network
