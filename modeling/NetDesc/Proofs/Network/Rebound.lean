import NetDesc.Proofs.Decimal.Length
import NetDesc.Proofs.Network.Apart

namespace NetDesc.Network

open Node

section Readings

variable {n l : Node} {name value : String} {f : Node → Node} {kind : LayerKind} {slot : Phase}
  {size : Int} {height : Nat}

theorem findInts_congr {a b : Node} (h : a.findChildren name = b.findChildren name) :
    a.findInts name = b.findInts name := by
  simp only [findInts, readScalars, findValues, h]

theorem findInts_setValue {xs : List Int} {x : Int} (h : n.findInts name = .ok xs)
    (hx : Decimal.readInt? value = some x) (t : Option ValueType) :
    ∃ rest, (n.setValue name value t).findInts name = .ok (x :: rest) := by
  obtain ⟨rest, hvalues, hmem⟩ := findValues_setValue n name value t
  obtain ⟨ys, hys⟩ := mapM_isOk_iff.mpr fun v hv => mapM_isOk_iff.mp ⟨xs, h⟩ v (hmem v hv)
  refine ⟨ys, ?_⟩
  rw [findInts, readScalars, hvalues, List.mapM_cons, hx, hys]
  rfl

theorem feed?_modifyChild_of_ne (hf : ∀ c, (f c).name = c.name) (hn : IsInner name)
    (hne : name ≠ sourceBlockName kind) : feed? kind (l.modifyChild name f) = feed? kind l := by
  rw [feed?, findChild_modifyChild_of_ne hf hne, includePhase_modifyChild hf hn]
  rfl

theorem feed?_modifyChild (hf : KeepsSide f)
    (hs : ∀ c, (f c).findInts "batch_size" = c.findInts "batch_size") :
    feed? kind (l.modifyChild (sourceBlockName kind) f) = feed? kind l := by
  rw [feed?, findChild_modifyChild hf.name,
    includePhase_modifyChild hf.name (isInner_sourceBlockName kind), feed?]
  cases l.findChild (sourceBlockName kind) with
  | none => rfl
  | some block => simp only [Option.map_some, hf.primary, hs]

theorem recrop_eq_self {sizes : List Int} (h : crops l = .ok sizes)
    (hc : ∀ c ∈ sizes.head?, 0 < height → c = height) : recrop height l = .ok l := by
  unfold crops at h
  split at h
  · next hnone => rw [recrop, hnone]
  next transform htransform =>
  rw [recrop, htransform]
  dsimp only
  rw [h, ok_bind]
  cases sizes with
  | nil => rfl
  | cons c sizes =>
    have hkept : ¬ (0 < height ∧ c ≠ height) := fun hne => hne.2 (hc c rfl hne.1)
    exact if_neg hkept

theorem crops_of_recrop {l' : Node} (h : recrop height l = .ok l') :
    ∃ sizes, crops l' = .ok sizes ∧ ∀ c ∈ sizes.head?, 0 < height → c = height := by
  unfold recrop at h
  split at h
  · next hnone =>
    cases h
    exact ⟨[], by rw [crops, hnone], fun c hc => nomatch hc⟩
  next transform htransform =>
  obtain ⟨sizes, hsizes, h⟩ := bind_eq_ok.mp h
  have hcrops : crops l = .ok sizes := by rw [crops, htransform]; exact hsizes
  split at h
  · next c sizes =>
    split at h
    · split at h
      · cases h
      next hshort =>
      cases h
      have hread := Decimal.readInt?_toString_of_short (n := height) (Bool.eq_false_iff.mpr hshort)
      obtain ⟨rest, hrest⟩ := findInts_setValue hsizes hread (some .numeric)
      refine ⟨height :: rest, ?_, fun c hc _ => (Option.some.inj hc).symm⟩
      rw [crops, findChild_modifyChild (fun c => name_setValue), htransform]
      exact hrest
    · next hkept =>
      cases h
      refine ⟨_, hcrops, fun d hd hpos => ?_⟩
      obtain rfl : c = d := Option.some.inj hd
      exact Decidable.not_not.mp fun hne => hkept ⟨hpos, hne⟩
  · cases h
    exact ⟨_, hcrops, fun c hc => nomatch hc⟩

end Readings

structure Rebound.Describes (r : Rebound) (l : Node) : Prop where
  ofKind : LayerKind.ofNode l = .ok r.kind
  other : r.kind.isData = false → r.feed = none
  feed : r.kind.isData = true → feed? r.kind l = .ok r.feed

def Rebound.source? (b : Binding) (r : Rebound) : Option Source :=
  r.feed.bind (Feed.source? b)

def Rebound.height (b : Binding) (r : Rebound) : Nat :=
  (r.source? b).elim 0 Source.imageHeight

/-- A layer that binding leaves as it is: it is read as it was, and carries what would be written. -/
structure IsAtRest (b : Binding) (r : Rebound) : Prop extends r.Describes r.layer where
  source : ∀ s, r.source? b = some s → ∀ block,
    r.layer.findChild (sourceBlockName r.kind) = some block → block.Carries "source" s.name .string
  crop : r.kind.isData = true → ∃ sizes, crops r.layer = .ok sizes ∧
    ∀ c ∈ sizes.head?, 0 < r.height b → c = r.height b

def Rebound.raise (size : Int) (r : Rebound) : Rebound :=
  { r.setBatch size with feed := r.feed.map fun f => { f with batch := some size } }

section Rest

variable {b : Binding} {l : Node} {r : Rebound} {size : Int}

theorem rebindLayer_eq_ok (h : rebindLayer b l = .ok r) : r.Describes l ∧
    (r.kind.isData = false ∧ r.layer = l ∨ r.kind.isData = true ∧
      recrop (r.height b) (place r.kind (r.source? b) l) = .ok r.layer) := by
  obtain ⟨kind, hk, h⟩ := bind_eq_ok.mp h
  split at h
  · next hd =>
    rw [rebindData_eq] at h
    obtain ⟨feed, hf, h⟩ := bind_eq_ok.mp h
    obtain ⟨cropped, hc, h⟩ := bind_eq_ok.mp h
    cases h
    exact ⟨⟨hk, fun hnot => absurd hd (Bool.eq_false_iff.mp hnot), fun _ => hf⟩, .inr ⟨hd, hc⟩⟩
  · next hd =>
    cases h
    exact ⟨⟨hk, fun _ => rfl, fun h => absurd h hd⟩, .inl ⟨Bool.eq_false_iff.mpr hd, rfl⟩⟩

theorem describes_rebindLayer (h : rebindLayer b l = .ok r) : r.Describes l :=
  (rebindLayer_eq_ok h).1

theorem IsAtRest.rebindLayer (h : IsAtRest b r) : rebindLayer b r.layer = .ok r := by
  rw [Network.rebindLayer, h.ofKind, ok_bind]
  split
  · next hd =>
    obtain ⟨sizes, hsizes, hfirst⟩ := h.crop hd
    have hplace : place r.kind (r.source? b) r.layer = r.layer := by
      cases hs : r.source? b with
      | none => rfl
      | some s =>
        apply modifyChild_eq_self
        intro block hblock
        exact (h.source s hs block hblock).setValue_eq
    have hcropped : recrop (r.height b) (place r.kind (r.source? b) r.layer) = .ok r.layer := by
      rw [hplace, recrop_eq_self hsizes hfirst]
    rw [rebindData_eq, h.feed hd, ok_bind]
    exact bind_eq_ok.mpr ⟨r.layer, hcropped, rfl⟩
  · next hd =>
    rw [Bool.not_eq_true] at hd
    rw [← h.other hd]
    rfl

theorem feed?_place (kind : LayerKind) (source : Option Source) (l : Node) :
    feed? kind (place kind source l) = feed? kind l := by
  cases source with
  | none => rfl
  | some s =>
    apply feed?_modifyChild (keepsSide_setValue (by decide) _ _)
    intro c
    exact findInts_congr (findChildren_setValue (by decide) c _ _)

theorem aside_of_recrop {l' : Node} {height : Nat} (h : recrop height l = .ok l') (kind : LayerKind) :
    feed? kind l' = feed? kind l ∧
      l'.findChild (sourceBlockName kind) = l.findChild (sourceBlockName kind) := by
  have hne := (sourceBlockName_ne_transform kind).symm
  rcases recrop_eq_ok h with rfl | ⟨-, rfl⟩
  · exact ⟨rfl, rfl⟩
  · exact ⟨feed?_modifyChild_of_ne (fun c => name_setValue) isInner_transform hne,
      findChild_modifyChild_of_ne (fun c => name_setValue) hne⟩

theorem isAtRest_rebindLayer (h : rebindLayer b l = .ok r) : IsAtRest b r := by
  obtain ⟨hread, ⟨hd, hlayer⟩ | ⟨hd, hcropped⟩⟩ := rebindLayer_eq_ok h
  · refine ⟨hlayer.symm ▸ hread, ?_, fun hdata => absurd hdata (Bool.eq_false_iff.mp hd)⟩
    intro s hs
    rw [Rebound.source?, hread.other hd] at hs
    cases hs
  · obtain ⟨hfeed, hblock⟩ := aside_of_recrop hcropped r.kind
    refine ⟨⟨?_, hread.other, fun _ => ?_⟩, ?_, fun _ => crops_of_recrop hcropped⟩
    · exact (isClosed_ofNode r.kind).recrop ((isClosed_ofNode r.kind).place hread.ofKind) hcropped
    · rw [hfeed, feed?_place, hread.feed hd]
    · intro s hs block hfound
      rw [hblock, hs, place, findChild_modifyChild fun c => name_setValue] at hfound
      obtain ⟨before, -, rfl⟩ := Option.map_eq_some_iff.mp hfound
      exact carries_setValue before "source" s.name .string

theorem eq_of_rebindLayer {α : Type} {g : Node → α} (h : rebindLayer b l = .ok r)
    (hsource : ∀ l kind name, g (l.modifyChild (sourceBlockName kind) fun block =>
      block.setValue "source" name (some .string)) = g l)
    (hcrop : ∀ l size, g (l.modifyChild "transform_param" fun t =>
      t.setValue "crop_size" size (some .numeric)) = g l) : g r.layer = g l := by
  obtain ⟨-, ⟨-, hlayer⟩ | ⟨-, hcropped⟩⟩ := rebindLayer_eq_ok h
  · rw [hlayer]
  · have hplace : g (place r.kind (r.source? b) l) = g l := by
      cases r.source? b with
      | none => rfl
      | some s => exact hsource l r.kind s.name
    rcases recrop_eq_ok hcropped with he | ⟨-, he⟩
    · rw [he, hplace]
    · rw [he, hcrop, hplace]

theorem of_batch? {slot : Phase} (h : r.batch? slot = some size) :
    ∃ primary, r.feed = some ⟨slot, primary, some size⟩ := by
  obtain ⟨⟨s, primary, batch⟩, hf, hb⟩ := Option.bind_eq_some_iff.mp h
  dsimp only at hb
  split at hb
  · next hs => exact ⟨primary, by rw [hf, hs, hb]⟩
  · cases hb

theorem Rebound.Describes.isData_of_feed {f : Feed} (h : r.Describes l) (hf : r.feed = some f) :
    r.kind.isData = true := by
  by_contra hnot
  rw [h.other (Bool.eq_false_iff.mpr hnot)] at hf
  cases hf

theorem Rebound.Describes.feed?_of_batch? {slot : Phase} (h : r.Describes l)
    (hr : r.batch? slot = some size) :
    r.kind.isData = true ∧ r.feed = some ⟨slot, true, some size⟩ ∧
      feed? r.kind l = .ok (some ⟨slot, true, some size⟩) := by
  obtain ⟨primary, hf⟩ := of_batch? hr
  have hd := h.isData_of_feed hf
  have hfeed := h.feed hd
  rw [hf] at hfeed
  obtain ⟨rfl, -⟩ := feed?_batch_iff.mp hfeed
  exact ⟨hd, hf, hfeed⟩

theorem IsAtRest.raise {slot : Phase} {before : Int} (h : IsAtRest b r)
    (hr : r.batch? slot = some before) (hread : Decimal.readInt? (toString size) = some size) :
    IsAtRest b (r.raise size) := by
  have hside : KeepsSide fun block => block.setValue "batch_size" (toString size) (some .numeric) :=
    keepsSide_setValue (by decide) _ _
  obtain ⟨hd, hf, hfeed⟩ := h.feed?_of_batch? hr
  obtain ⟨-, block, phase, sizes, hblock, hphase, hnone, hslot, hprimary, hsizes⟩ :=
    feed?_batch_iff.mp hfeed
  obtain ⟨rest, hrest⟩ := findInts_setValue hsizes hread (some .numeric)
  have hsource : (r.raise size).source? b = r.source? b := by
    rw [Rebound.source?, Rebound.source?, Rebound.raise, hf]
    rfl
  refine ⟨⟨?_, ?_, ?_⟩, ?_, ?_⟩
  · exact isClosed_ofNode r.kind _ _ _ hside (isInner_sourceBlockName r.kind) h.ofKind
  · intro hnot
    rw [Rebound.raise, h.other hnot, Option.map_none]
  · intro _
    rw [Rebound.raise, hf, Option.map_some]
    refine feed?_batch_iff.mpr ⟨rfl, _, phase, rest, ?_, ?_, hnone, hslot, ?_, hrest⟩
    · exact (findChild_modifyChild hside.name).trans (by rw [hblock, Option.map_some])
    · exact (includePhase_modifyChild hside.name (isInner_sourceBlockName r.kind)).trans hphase
    · exact (hside.primary block).trans hprimary
  · intro s hs found hfound
    rw [hsource] at hs
    obtain ⟨c, hc, rfl⟩ := Option.map_eq_some_iff.mp ((findChild_modifyChild hside.name).symm.trans hfound)
    exact (h.source s hs c hc).setValue_of_ne (by decide)
  · intro _
    obtain ⟨sizes, hcrops, hfirst⟩ := h.crop hd
    rw [Rebound.height, hsource]
    refine ⟨sizes, ?_, hfirst⟩
    exact (crops_modifyChild_of_ne hside.name (sourceBlockName_ne_transform r.kind)).trans hcrops

theorem IsAtRest.setOutput (h : IsAtRest b r) (hk : r.kind = .innerProduct) (count : Nat) :
    IsAtRest b (r.setOutput count) := by
  have hother : r.kind.isData = false := by rw [hk]; rfl
  refine ⟨⟨?_, ?_, ?_⟩, ?_, ?_⟩
  · exact isClosed_ofNode r.kind _ _ _ (keepsSide_numOutput count) (by simp [IsInner]) h.ofKind
  · exact h.other
  · exact fun hd => absurd hd (Bool.eq_false_iff.mp hother)
  · intro s hs
    rw [Rebound.source?, Rebound.setOutput, h.other hother] at hs
    cases hs
  · exact fun hd => absurd hd (Bool.eq_false_iff.mp hother)

end Rest

def lastBatch (slot : Phase) (rs : List Rebound) : Option Int :=
  rs.reverse.findSome? (Rebound.batch? slot)

/-- Layers on their way, and how they are read once the last batches for training are raised to the
size of the last ones for tests, where they are smaller. -/
inductive Levels : List Rebound → List Rebound → Prop
  | kept {rs : List Rebound} (h : ∀ train test, lastBatch .train rs = some train →
      lastBatch .test rs = some test → test ≤ train) : Levels rs rs
  | raised {before after : List Rebound} {r : Rebound} {train test : Int}
      (hr : r.batch? .train = some train) (hafter : ∀ s ∈ after, s.batch? .train = none)
      (htest : lastBatch .test (before ++ r :: after) = some test) (hlt : train < test) :
      Levels (before ++ r :: after) (before ++ r.raise test :: after)

section Batches

variable {rs rs' before after : List Rebound} {r : Rebound} {slot : Phase} {size other : Int}

theorem lastBatch_eq_some_iff : lastBatch slot rs = some size ↔
    ∃ before r after, rs = before ++ r :: after ∧ r.batch? slot = some size ∧
      ∀ s ∈ after, s.batch? slot = none := by
  rw [lastBatch, List.findSome?_eq_some_iff]
  constructor
  · rintro ⟨after, r, before, hsplit, hr, hafter⟩
    refine ⟨before.reverse, r, after.reverse, ?_, hr, fun s hs => hafter s (List.mem_reverse.mp hs)⟩
    rw [← List.reverse_inj, hsplit]
    simp
  · rintro ⟨before, r, after, rfl, hr, hafter⟩
    exact ⟨after.reverse, r, before.reverse, by simp, hr,
      fun s hs => hafter s (List.mem_reverse.mp hs)⟩

theorem lastBatch_of_none {s : Rebound} (hr : r.batch? slot = none) (hs : s.batch? slot = none) :
    lastBatch slot (before ++ s :: after) = lastBatch slot (before ++ r :: after) := by
  simp [lastBatch, List.findSome?_append, hr, hs]

theorem batch?_raise (h : r.batch? .train = some size) (other : Int) :
    (r.raise other).batch? .train = some other ∧ (r.raise other).batch? .test = none ∧
      r.batch? .test = none := by
  obtain ⟨primary, hf⟩ := of_batch? h
  simp [Rebound.batch?, Rebound.raise, hf]

theorem raiseBatch_of_le (h : ∀ train test, lastBatch .train rs = some train →
    lastBatch .test rs = some test → test ≤ train) : raiseBatch rs = rs := by
  unfold raiseBatch
  dsimp only
  split
  · next train test htrain htest => exact if_neg (Int.not_lt.mpr (h train test htrain htest))
  · rfl

theorem raiseBatch_of_lt {train test : Int} (htrain : lastBatch .train rs = some train)
    (htest : lastBatch .test rs = some test) (hlt : train < test) : raiseBatch rs =
      modifyLast (fun r => (r.batch? .train).isSome) (Rebound.setBatch test) rs := by
  rw [lastBatch] at htrain htest
  simp only [raiseBatch, htrain, htest, if_pos hlt]

theorem Levels.le (h : Levels rs rs') : ∀ train test, lastBatch .train rs' = some train →
    lastBatch .test rs' = some test → test ≤ train := by
  cases h with
  | kept h => exact h
  | @raised before after r train test hr hafter htest hlt =>
    obtain ⟨hraised, hnone, hbefore⟩ := batch?_raise hr test
    intro train' test' htrain' htest'
    have htrain : lastBatch .train (before ++ r.raise test :: after) = some test :=
      lastBatch_eq_some_iff.mpr ⟨before, _, after, rfl, hraised, hafter⟩
    rw [lastBatch_of_none hbefore hnone, htest] at htest'
    rw [htrain] at htrain'
    cases htrain'
    cases htest'
    exact Int.le_refl test

theorem getElem?_split_iff {α : Type} {xs ys : List α} {x y : α} {i : Nat} :
    (xs ++ y :: ys)[i]? = some x ↔
      xs[i]? = some x ∨ (i = xs.length ∧ y = x) ∨ ∃ j, i = xs.length + (j + 1) ∧ ys[j]? = some x := by
  have hafter (j : Nat) : (xs ++ y :: ys)[xs.length + (j + 1)]? = ys[j]? := by
    rw [List.getElem?_append_right (by omega), Nat.add_sub_cancel_left, List.getElem?_cons_succ]
  constructor
  · intro h
    rcases Nat.lt_trichotomy i xs.length with hi | rfl | hi
    · rw [List.getElem?_append_left hi] at h
      exact .inl h
    · rw [List.getElem?_append_right (Nat.le_refl _), Nat.sub_self] at h
      exact .inr (.inl ⟨rfl, Option.some.inj h⟩)
    · obtain ⟨j, rfl⟩ : ∃ j, i = xs.length + (j + 1) := ⟨i - xs.length - 1, by omega⟩
      rw [hafter] at h
      exact .inr (.inr ⟨j, rfl, h⟩)
  · rintro (h | ⟨rfl, rfl⟩ | ⟨j, rfl, h⟩)
    · rw [List.getElem?_append_left (List.getElem?_eq_some_iff.mp h).1, h]
    · simp
    · rw [hafter, h]

theorem Levels.of_getElem? {i : Nat} {r' : Rebound} (h : Levels rs rs') (hr' : rs'[i]? = some r') :
    ∃ r, rs[i]? = some r ∧ (r' = r ∨ ∃ train test, r.batch? .train = some train ∧ train < test ∧
      r' = r.raise test) := by
  cases h with
  | kept => exact ⟨r', hr', .inl rfl⟩
  | @raised before after r train test hr hafter htest hlt =>
    rcases getElem?_split_iff.mp hr' with hi | ⟨hi, rfl⟩ | hi
    · exact ⟨r', getElem?_split_iff.mpr (.inl hi), .inl rfl⟩
    · exact ⟨r, getElem?_split_iff.mpr (.inr (.inl ⟨hi, rfl⟩)), .inr ⟨train, test, hr, hlt, rfl⟩⟩
    · exact ⟨r', getElem?_split_iff.mpr (.inr (.inr hi)), .inl rfl⟩

def Rebound.unfed (r : Rebound) : Rebound :=
  { r with feed := none }

theorem exists_levels (rs : List Rebound) :
    ∃ rs', Levels rs rs' ∧ (raiseBatch rs).map Rebound.unfed = rs'.map Rebound.unfed := by
  by_cases h : ∃ train test, lastBatch .train rs = some train ∧ lastBatch .test rs = some test ∧
      train < test
  · obtain ⟨train, test, htrain, htest, hlt⟩ := h
    obtain ⟨before, r, after, rfl, hr, hafter⟩ := lastBatch_eq_some_iff.mp htrain
    refine ⟨_, .raised hr hafter htest hlt, ?_⟩
    have hsome : (r.batch? .train).isSome = true := by rw [hr]; rfl
    have hnone : ∀ s ∈ after, (s.batch? .train).isSome = false := fun s hs => by rw [hafter s hs]; rfl
    rw [raiseBatch_of_lt htrain htest hlt,
      modifyLast_append (p := fun r : Rebound => (r.batch? .train).isSome) hsome hnone]
    simp only [List.map_append, List.map_cons]
    rfl
  · have hkept : ∀ train test, lastBatch .train rs = some train → lastBatch .test rs = some test →
        test ≤ train := by
      intro train test htrain htest
      by_contra hle
      exact h ⟨train, test, htrain, htest, Int.not_le.mp hle⟩
    exact ⟨rs, .kept hkept, by rw [raiseBatch_of_le hkept]⟩

end Batches

section Whole

variable {b : Binding} {resize flag : Bool} {n m : Node} {rs rs' : List Rebound} {count? : Option Nat}

theorem finish_unfed (n : Node) (rs : List Rebound) :
    finish count? n (beforeLoss (rs.map Rebound.unfed)) = finish count? n (beforeLoss rs) := by
  have hlayer (s : Rebound × Bool) :
      (withOutput count? (s.map Rebound.unfed id)).layer = (withOutput count? s).layer := by
    cases count? with
    | none => rfl
    | some count =>
      have hresized : isResized (s.map Rebound.unfed id) = isResized s := rfl
      rw [withOutput, hresized, withOutput]
      split <;> rfl
  rw [beforeLoss_mapped Rebound.unfed fun r => rfl, finish, finish, List.any_map, List.map_map]
  simp only [Function.comp_def, hlayer]
  rfl

theorem kind_withOutput (s : Rebound × Bool) : (withOutput count? s).kind = s.1.kind := by
  cases count? with
  | none => rfl
  | some count =>
    rw [withOutput]
    split <;> rfl

theorem feed_withOutput (s : Rebound × Bool) : (withOutput count? s).feed = s.1.feed := by
  cases count? with
  | none => rfl
  | some count =>
    rw [withOutput]
    split <;> rfl

theorem hasOutput_setOutput (r : Rebound) (count : Nat) :
    (r.setOutput count).hasOutput = r.hasOutput := by
  have hcount : ∀ c : Node, (c.withValue (toString count) .numeric).name = c.name := fun c => rfl
  rw [Rebound.hasOutput, Rebound.setOutput, findChild_modifyChild (keepsSide_numOutput count).name,
    Rebound.hasOutput]
  cases r.layer.findChild "inner_product_param" with
  | none => rfl
  | some p =>
    rw [Option.map_some, Option.bind_some, Option.bind_some, findChild_modifyChild hcount,
      Option.isSome_map]

theorem setOutput_setOutput (r : Rebound) (count : Nat) :
    (r.setOutput count).setOutput count = r.setOutput count := by
  have hcount : ∀ c : Node, (c.withValue (toString count) .numeric).name = c.name := fun c => rfl
  have htwice (p : Node) : ((p.modifyChild "num_output" fun c => c.withValue (toString count) .numeric)
      |>.modifyChild "num_output" fun c => c.withValue (toString count) .numeric) =
        p.modifyChild "num_output" fun c => c.withValue (toString count) .numeric :=
    modifyChild_modifyChild hcount
  simp only [Rebound.setOutput, modifyChild_modifyChild (keepsSide_numOutput count).name,
    Function.comp_def, htwice]

theorem isResized_withOutput (s : Rebound × Bool) :
    isResized (withOutput count? s, s.2) = isResized s := by
  cases count? with
  | none => rfl
  | some count =>
    rw [withOutput]
    split
    · rw [isResized, hasOutput_setOutput, isResized]
    · rfl

theorem withOutput_withOutput (s : Rebound × Bool) :
    withOutput count? (withOutput count? s, s.2) = withOutput count? s := by
  by_cases hs : isResized s = true
  · have hagain : isResized (withOutput count? s, s.2) = true := (isResized_withOutput s).trans hs
    cases count? with
    | none => rfl
    | some count =>
      rw [withOutput, if_pos hagain, withOutput, if_pos hs, setOutput_setOutput]
  · rw [Bool.not_eq_true] at hs
    exact withOutput_of_not ((isResized_withOutput s).trans hs) count?

theorem IsAtRest.withOutput {s : Rebound × Bool} (h : IsAtRest b s.1) :
    IsAtRest b (withOutput count? s) := by
  cases count? with
  | none => exact h
  | some count =>
    rw [Network.withOutput]
    split
    · next hs => exact h.setOutput (ofKind_of_isResized hs) count
    · exact h

theorem lastBatch_congr (h : rs.map Rebound.feed = rs'.map Rebound.feed) (slot : Phase) :
    lastBatch slot rs = lastBatch slot rs' := by
  have hfeed (rs : List Rebound) : lastBatch slot rs = (rs.map Rebound.feed).reverse.findSome? fun feed =>
      feed.bind fun f => if f.slot = slot then f.batch else none := by
    rw [← List.map_reverse, List.findSome?_map]
    rfl
  rw [hfeed, hfeed, h]

theorem Levels.length (h : Levels rs rs') : rs'.length = rs.length := by
  cases h with
  | kept => rfl
  | raised => simp

theorem Levels.name {key : String} (h : Levels rs rs') (hrs : ∀ r ∈ rs, r.layer.name = key) :
    ∀ r ∈ rs', r.layer.name = key := by
  cases h with
  | kept => exact hrs
  | raised =>
    rw [List.forall_mem_append, List.forall_mem_cons] at hrs ⊢
    exact hrs

theorem Levels.isAtRest (h : Levels rs rs') (hrs : ∀ r ∈ rs, IsAtRest b r)
    (hread : ∀ test, lastBatch .test rs = some test → Decimal.readInt? (toString test) = some test) :
    ∀ r ∈ rs', IsAtRest b r := by
  cases h with
  | kept => exact hrs
  | @raised before after r train test hr hafter htest hlt =>
    rw [List.forall_mem_append, List.forall_mem_cons] at hrs ⊢
    exact ⟨hrs.1, hrs.2.1.raise hr (hread test htest), hrs.2.2⟩

theorem IsAtRest.readInt?_batch {r : Rebound} {slot : Phase} {size : Int} (h : IsAtRest b r)
    (hr : r.batch? slot = some size) : Decimal.readInt? (toString size) = some size := by
  obtain ⟨-, -, hfeed⟩ := h.feed?_of_batch? hr
  obtain ⟨-, block, phase, sizes, -, -, -, -, -, hsizes⟩ := feed?_batch_iff.mp hfeed
  obtain ⟨text, rest, -, htext⟩ := readScalars_cons hsizes
  exact Decimal.readInt?_toString_of_short (Decimal.isTooLong_of_readInt? htext)

def finished (count? : Option Nat) (rs : List Rebound) : List Rebound :=
  (beforeLoss rs).map (withOutput count?)

theorem mem_of_mem_beforeLoss {s : Rebound × Bool} (h : s ∈ beforeLoss rs) : s.1 ∈ rs := by
  rw [← map_beforeLoss rs]
  exact List.mem_map_of_mem h

theorem length_finished (count? : Option Nat) (rs : List Rebound) :
    (finished count? rs).length = rs.length := by
  rw [finished, List.length_map, ← List.length_map Prod.fst, map_beforeLoss]

structure IsRebound (b : Binding) (count? : Option Nat) (n m : Node) (rs rs' : List Rebound) : Prop where
  scanned : (layers n).mapM (rebindLayer b) = .ok rs
  levels : Levels rs rs'
  atRest : ∀ s ∈ rs', IsAtRest b s
  written : layers m = (finished count? rs').map Rebound.layer
  named : ∀ l ∈ layers m, l.name = layerKey n
  whole : m = withLayers n ((layers m).map some)

theorem isRebound_of_rebind (h : rebind b resize n = .ok (m, flag)) :
    ∃ rs rs', IsRebound b (outputCount? b resize) n m rs rs' ∧
      finish (outputCount? b resize) n (beforeLoss rs') = .ok (m, flag) := by
  rw [rebind_eq] at h
  obtain ⟨rs, hrs, h⟩ := bind_eq_ok.mp h
  obtain ⟨rs', hlevels, hunfed⟩ := exists_levels rs
  have hfirst : ∀ r ∈ rs, IsAtRest b r ∧ r.layer.name = layerKey n := by
    intro r hr
    obtain ⟨l, hl, hr⟩ := (of_mapM hrs).2 r hr
    exact ⟨isAtRest_rebindLayer hr, (isBound_rebindLayer hr).2.trans (name_of_mem_layers hl)⟩
  have hrest : ∀ s ∈ rs', IsAtRest b s := by
    apply hlevels.isAtRest fun r hr => (hfirst r hr).1
    intro test htest
    obtain ⟨before, r, after, rfl, hr, -⟩ := lastBatch_eq_some_iff.mp htest
    exact (hfirst r (by simp)).1.readInt?_batch hr
  have hnamed : ∀ l ∈ (finished (outputCount? b resize) rs').map Rebound.layer,
      l.name = layerKey n := by
    intro l hl
    obtain ⟨t, ht, rfl⟩ := List.mem_map.mp hl
    obtain ⟨s, hs, rfl⟩ := List.mem_map.mp ht
    have hmem := mem_of_mem_beforeLoss hs
    have hplaced : Placed (layerKey n) s.1 :=
      ⟨hlevels.name (fun r hr => (hfirst r hr).2) s.1 hmem, (hrest s.1 hmem).ofKind⟩
    exact (hplaced.withOutput _).1
  have hlength : ((finished (outputCount? b resize) rs').map Rebound.layer).length =
      (layers n).length := by
    rw [List.length_map, length_finished, hlevels.length, (of_mapM hrs).1]
  rw [← finish_unfed, hunfed, finish_unfed] at h
  have hfinish := h
  unfold finish at h
  split at h
  · cases h
  cases h
  have hmap : ((beforeLoss rs').map fun s => some (withOutput (outputCount? b resize) s).layer) =
      ((finished (outputCount? b resize) rs').map Rebound.layer).map some := by
    rw [finished, List.map_map, List.map_map]
    rfl
  have hwritten := layers_withLayers hnamed hlength
  rw [← hmap] at hwritten
  refine ⟨rs, rs', ⟨hrs, hlevels, hrest, hwritten, ?_, ?_⟩, hfinish⟩
  · rwa [hwritten]
  · rw [hwritten, ← hmap]

theorem IsRebound.exists_rebound {i : Nat} {l : Node} (h : IsRebound b count? n m rs rs')
    (hl : (layers n)[i]? = some l) : ∃ r, rs[i]? = some r ∧ rebindLayer b l = .ok r := by
  have hscan := getElem?_of_mapM h.scanned i
  rw [hl, Option.map_some] at hscan
  obtain ⟨r, hr, hstep⟩ := Option.map_eq_some_iff.mp hscan.symm
  exact ⟨r, hr, hstep.symm⟩

theorem IsRebound.exists_layer {i : Nat} {r : Rebound} (h : IsRebound b count? n m rs rs')
    (hr : rs[i]? = some r) : ∃ l, (layers n)[i]? = some l ∧ rebindLayer b l = .ok r := by
  have hscan := getElem?_of_mapM h.scanned i
  rw [hr, Option.map_some] at hscan
  exact Option.map_eq_some_iff.mp hscan

theorem IsRebound.of_getElem? {i : Nat} {l' : Node} (h : IsRebound b count? n m rs rs')
    (hl' : (layers m)[i]? = some l') :
    ∃ l r r', (layers n)[i]? = some l ∧ rebindLayer b l = .ok r ∧ rs'[i]? = some r' ∧
      (r' = r ∨ ∃ train test, r.batch? .train = some train ∧ train < test ∧ r' = r.raise test) ∧
      l' = (withOutput count? (r', rs'[i + 1]?.any fun s => s.kind.isLoss)).layer := by
  rw [h.written, finished, List.getElem?_map, List.getElem?_map, getElem?_beforeLoss] at hl'
  obtain ⟨t, ht, rfl⟩ := Option.map_eq_some_iff.mp hl'
  obtain ⟨s, hs, rfl⟩ := Option.map_eq_some_iff.mp ht
  obtain ⟨r', hr', rfl⟩ := Option.map_eq_some_iff.mp hs
  obtain ⟨r, hr, hraised⟩ := h.levels.of_getElem? hr'
  obtain ⟨l, hl, hstep⟩ := h.exists_layer hr
  exact ⟨l, r, r', hl, hstep, hr', hraised, rfl⟩

theorem IsRebound.length (h : IsRebound b count? n m rs rs') :
    (layers m).length = (layers n).length := by
  rw [h.written, List.length_map, length_finished, h.levels.length, (of_mapM h.scanned).1]

theorem feed_finished (rs : List Rebound) :
    (finished count? rs).map Rebound.feed = rs.map Rebound.feed := by
  have hfirst := congrArg (List.map Rebound.feed) (map_beforeLoss rs)
  rw [← hfirst, finished, List.map_map, List.map_map]
  exact List.map_congr_left fun s _ => feed_withOutput s

theorem beforeLoss_finished (rs : List Rebound) :
    beforeLoss (finished count? rs) = (beforeLoss rs).map fun s => (withOutput count? s, s.2) :=
  beforeLoss_map kind_withOutput rs

theorem rebind_rebound (h : rebind b resize n = .ok (m, flag)) :
    rebind b resize m = .ok (m, flag) := by
  obtain ⟨rs, rs', hr, hfinish⟩ := isRebound_of_rebind h
  have hscan : (layers m).mapM (rebindLayer b) = .ok (finished (outputCount? b resize) rs') := by
    rw [hr.written, mapM_map_of_ok (h := id), List.map_id]
    intro s hs
    obtain ⟨t, ht, rfl⟩ := List.mem_map.mp hs
    exact (hr.atRest t.1 (mem_of_mem_beforeLoss ht)).withOutput.rebindLayer
  have hlevel : raiseBatch (finished (outputCount? b resize) rs') =
      finished (outputCount? b resize) rs' := by
    apply raiseBatch_of_le
    rw [lastBatch_congr (feed_finished rs'), lastBatch_congr (feed_finished rs')]
    exact hr.levels.le
  have hwhole : withLayers m ((beforeLoss rs').map fun s =>
      some (withOutput (outputCount? b resize) s).layer) = m := by
    have hself := withLayers_self m
    rw [hr.written, finished, List.map_map, List.map_map] at hself
    exact hself
  rw [rebind_eq, hscan, ok_bind, hlevel, beforeLoss_finished]
  unfold finish at hfinish ⊢
  rw [List.any_map, List.map_map]
  simp only [Function.comp_def, isResized_withOutput, withOutput_withOutput, hwhole]
  split at hfinish
  · cases hfinish
  · next hshort =>
    rw [if_neg hshort]
    cases hfinish
    rfl

end Whole

def unevenReaders : Node :=
  root [
    block "layer" [leaf "type" "Data" .string, block "include" [leaf "phase" "TRAIN" .unknown],
      block "transform_param" [leaf "crop_size" "8" .numeric],
      block "data_param" [leaf "batch_size" "16" .numeric]],
    block "layer" [leaf "type" "Data" .string, block "include" [leaf "phase" "TEST" .unknown],
      block "data_param" [leaf "source" "b" .string, leaf "batch_size" "32" .numeric]],
    block "layer" [leaf "type" "InnerProduct" .string,
      block "inner_product_param" [leaf "num_output" "2" .numeric]],
    block "layer" [leaf "type" "SoftmaxWithLoss" .string]]

theorem rebind_rebound_unevenReaders :
    ∃ m, rebind (tenLabels none) true unevenReaders = .ok (m, true) ∧
      rebind (tenLabels none) true m = .ok (m, true) := by
  obtain ⟨⟨m, flag⟩, hm, hflag⟩ : ∃ r, rebind (tenLabels none) true unevenReaders = .ok r ∧
      r.2 = true := exists_ok (by decide +kernel)
  obtain rfl : flag = true := hflag
  exact ⟨m, hm, rebind_rebound hm⟩

end NetDesc.Network
