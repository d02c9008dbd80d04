import NetDesc.Proofs.Decimal.Reading
import NetDesc.Proofs.Network.SourceNames
import NetDesc.Proofs.Tree.RoundTrip
import NetDesc.Proofs.TwoRuns

namespace NetDesc.Network

open Node

def IsSecondary (l : Node) : Prop :=
  ∃ kind block, LayerKind.ofNode l = .ok kind ∧ kind.isData = true ∧
    l.findChild (sourceBlockName kind) = some block ∧ isPrimary block = .ok false

def AroundLayers (R : Node → Node → Prop) (m m' : Node) : Prop :=
  m' = withLayers m ((layers m').map some) ∧ List.Forall₂ R (layers m) (layers m')

def EqualOrSecondary (l l' : Node) : Prop :=
  l = l' ∨ IsSecondary l ∧ IsSecondary l'

def EqualIfSecondary (l l' : Node) : Prop :=
  IsSecondary l ∨ IsSecondary l' → l = l'

def HasShortHeights (b : Binding) : Prop :=
  ∀ p, Decimal.isTooLong (b.sourceFor p).imageHeight = false

structure KeepsSide (f : Node → Node) : Prop where
  name : ∀ c, (f c).name = c.name
  primary : ∀ c, isPrimary (f c) = isPrimary c

def IsClosed (Q : Node → Prop) : Prop :=
  ∀ l name f, KeepsSide f → IsInner name → Q l → Q (l.modifyChild name f)

section Sides

variable {l : Node} {name : String} {f : Node → Node} {kind : LayerKind} {block : Node}

theorem keepsSide_setValue (hp : name ≠ "primary_data") (value : String) (t : Option ValueType) :
    KeepsSide fun c => c.setValue name value t := by
  constructor
  · intro c
    exact name_setValue
  · intro c
    exact isPrimary_congr (findChildren_setValue hp c value t)

theorem keepsSide_modifyChild (hp : name ≠ "primary_data") (hf : ∀ c, (f c).name = c.name) :
    KeepsSide fun c => c.modifyChild name f := by
  constructor
  · intro c
    rfl
  · intro c
    exact isPrimary_congr (findChildren_modifyChild hf hp)

theorem isSecondary_iff (hk : LayerKind.ofNode l = .ok kind) (hd : kind.isData = true)
    (hb : l.findChild (sourceBlockName kind) = some block) :
    IsSecondary l ↔ isPrimary block = .ok false := by
  constructor
  · rintro ⟨kind', block', hk', -, hb', hp⟩
    obtain rfl : kind = kind' := Except.ok.inj (hk.symm.trans hk')
    obtain rfl : block = block' := Option.some.inj (hb.symm.trans hb')
    exact hp
  · intro hp
    exact ⟨kind, block, hk, hd, hb, hp⟩

theorem not_isSecondary (hk : LayerKind.ofNode l = .ok kind) (hd : kind.isData = false) :
    ¬ IsSecondary l := by
  rintro ⟨kind', block, hk', hd', -⟩
  obtain rfl : kind = kind' := Except.ok.inj (hk.symm.trans hk')
  rw [hd] at hd'
  cases hd'

theorem isSecondary_modifyChild (hf : KeepsSide f) (hn : IsInner name) :
    IsSecondary (l.modifyChild name f) ↔ IsSecondary l := by
  have hblock (kind : LayerKind) : ∀ block, (l.modifyChild name f).findChild (sourceBlockName kind) =
      some block → ∃ before, l.findChild (sourceBlockName kind) = some before ∧
        isPrimary block = isPrimary before := by
    intro block hb
    by_cases hs : name = sourceBlockName kind
    · rw [← hs, findChild_modifyChild hf.name] at hb
      obtain ⟨before, hbefore, rfl⟩ := Option.map_eq_some_iff.mp hb
      exact ⟨before, hs ▸ hbefore, hf.primary before⟩
    · rw [findChild_modifyChild_of_ne hf.name hs] at hb
      exact ⟨block, hb, rfl⟩
  have hsome (kind : LayerKind) : (l.findChild (sourceBlockName kind)).isSome →
      ((l.modifyChild name f).findChild (sourceBlockName kind)).isSome := by
    by_cases hs : name = sourceBlockName kind
    · rw [← hs, findChild_modifyChild hf.name, Option.isSome_map]
      exact id
    · rw [findChild_modifyChild_of_ne hf.name hs]
      exact id
  constructor
  · rintro ⟨kind, block, hk, hd, hb, hp⟩
    obtain ⟨before, hbefore, he⟩ := hblock kind block hb
    exact ⟨kind, before, (ofNode_modifyChild hf.name hn).symm.trans hk, hd, hbefore, he ▸ hp⟩
  · rintro ⟨kind, before, hk, hd, hb, hp⟩
    obtain ⟨block, hblock'⟩ := Option.isSome_iff_exists.mp (hsome kind (by rw [hb]; rfl))
    obtain ⟨before', hbefore', he⟩ := hblock kind block hblock'
    obtain rfl : before = before' := Option.some.inj (hb.symm.trans hbefore')
    exact ⟨kind, block, (ofNode_modifyChild hf.name hn).trans hk, hd, hblock', he.trans hp⟩

theorem isClosed_isSecondary : IsClosed IsSecondary := fun _ _ _ hf hn =>
  (isSecondary_modifyChild hf hn).mpr

theorem isClosed_not_isSecondary : IsClosed fun l => ¬ IsSecondary l := fun _ _ _ hf hn h hs =>
  h ((isSecondary_modifyChild hf hn).mp hs)

theorem isClosed_ofNode (kind : LayerKind) : IsClosed fun l => LayerKind.ofNode l = .ok kind :=
  fun _ _ _ hf hn h => (ofNode_modifyChild hf.name hn).trans h

theorem isClosed_name (key : String) : IsClosed fun l => l.name = key := fun _ _ _ _ _ h => h

end Sides

section Layer

variable {Q : Node → Prop} {l l' : Node} {kind : LayerKind} {source : Option Source} {height : Nat}
  {name : String} {f : Node → Node}

def place (kind : LayerKind) (source : Option Source) (l : Node) : Node :=
  match source with
  | some s => l.modifyChild (sourceBlockName kind) fun block =>
    block.setValue "source" s.name (some .string)
  | none => l

def crops (l : Node) : Result (List Int) :=
  match l.findChild "transform_param" with
  | none => .ok []
  | some t => t.findInts "crop_size"

def cropTo (height : Nat) (sizes : List Int) (l : Node) : Node :=
  match sizes with
  | c :: _ =>
    if 0 < height ∧ c ≠ height then
      l.modifyChild "transform_param" fun t =>
        t.setValue "crop_size" (toString height) (some .numeric)
    else l
  | [] => l

theorem rebindData_eq (b : Binding) (kind : LayerKind) (l : Node) : rebindData b kind l =
    feed? kind l >>= fun feed =>
      recrop ((feed.bind (Feed.source? b)).elim 0 Source.imageHeight)
        (place kind (feed.bind (Feed.source? b)) l) >>= fun cropped => .ok ⟨kind, feed, cropped⟩ := rfl

theorem recrop_eq (h : Decimal.isTooLong height = false) (l : Node) :
    recrop height l = crops l >>= fun sizes => .ok (cropTo height sizes l) := by
  unfold recrop crops
  cases l.findChild "transform_param" with
  | none => rfl
  | some t =>
    dsimp only
    cases t.findInts "crop_size" with
    | error e => rfl
    | ok sizes =>
      cases sizes with
      | nil => rfl
      | cons c cs =>
        simp only [ok_bind, cropTo, h, Bool.false_eq_true, if_false]
        split <;> rfl

theorem sourceBlockName_ne_transform (kind : LayerKind) : sourceBlockName kind ≠ "transform_param" := by
  rcases sourceBlockName_cases kind with hk | hk <;> rw [hk] <;> decide

theorem crops_modifyChild_of_ne (hf : ∀ c, (f c).name = c.name) (hne : name ≠ "transform_param") :
    crops (l.modifyChild name f) = crops l := by
  rw [crops, findChild_modifyChild_of_ne hf hne, crops]

theorem crops_place (kind : LayerKind) (source : Option Source) (l : Node) :
    crops (place kind source l) = crops l := by
  cases source with
  | none => rfl
  | some s => exact crops_modifyChild_of_ne (fun c => name_setValue) (sourceBlockName_ne_transform kind)

theorem isInner_transform : IsInner "transform_param" := by
  simp [IsInner]

theorem IsClosed.place (hQ : IsClosed Q) (h : Q l) : Q (place kind source l) := by
  cases source with
  | none => exact h
  | some s => exact hQ _ _ _ (keepsSide_setValue (by decide) _ _) (isInner_sourceBlockName kind) h

theorem IsClosed.cropTo (hQ : IsClosed Q) (sizes : List Int) (h : Q l) : Q (cropTo height sizes l) := by
  unfold Network.cropTo
  split
  · split
    · exact hQ _ _ _ (keepsSide_setValue (by decide) _ _) isInner_transform h
    · exact h
  · exact h

theorem IsClosed.recrop (hQ : IsClosed Q) (h : Q l) (hc : recrop height l = .ok l') : Q l' := by
  rcases recrop_eq_ok hc with rfl | ⟨-, rfl⟩
  · exact h
  · exact hQ _ _ _ (keepsSide_setValue (by decide) _ _) isInner_transform h

theorem isSecondary_of_feed? (hk : LayerKind.ofNode l = .ok kind) (hd : kind.isData = true) {f : Feed}
    (hf : feed? kind l = .ok (some f)) : IsSecondary l ↔ f.primary = false := by
  obtain ⟨block, phase, sizes, hb, -, -, -, hp, -⟩ := feed?_eq_some_iff.mp hf
  rw [isSecondary_iff hk hd hb, hp, Except.ok.injEq]

end Layer

structure Placed (key : String) (r : Rebound) : Prop where
  name : r.layer.name = key
  ofKind : LayerKind.ofNode r.layer = .ok r.kind

/-- The same layer on its way in two runs, which may differ in data layers of one side. -/
structure Alike (key : String) (Q : Node → Prop) (r r' : Rebound) : Prop where
  kind : r.kind = r'.kind
  feed : r.feed = r'.feed
  left : Placed key r
  right : Placed key r'
  layer : r.layer = r'.layer ∨ r.kind.isData = true ∧ Q r.layer ∧ Q r'.layer

section Runs

variable {Q : Node → Prop} {key : String} {b b' : Binding} {l : Node} {kind : LayerKind}
  {r r' : Rebound} {rs rs' : List Rebound} {n : Node}

theorem sameFate_rebindData (hQ : IsClosed Q) (hname : l.name = key)
    (hk : LayerKind.ofNode l = .ok kind) (hd : kind.isData = true)
    (h : ∀ feed, feed? kind l = .ok feed →
      feed.bind (Feed.source? b) = feed.bind (Feed.source? b') ∨
      (Q l ∧ ∀ c, c = b ∨ c = b' →
        Decimal.isTooLong ((feed.bind (Feed.source? c)).elim 0 Source.imageHeight) = false)) :
    SameFate (Alike key Q) (rebindData b kind l) (rebindData b' kind l) := by
  rw [rebindData_eq, rebindData_eq]
  apply SameFate.bind_self
  intro feed hf
  rcases h feed hf with he | ⟨hl, hshort⟩
  · rw [he]
    apply SameFate.bind_self
    intro cropped hc
    have hplaced : Placed key ⟨kind, feed, cropped⟩ := by
      constructor
      · exact (isClosed_name key).recrop ((isClosed_name key).place hname) hc
      · exact (isClosed_ofNode kind).recrop ((isClosed_ofNode kind).place hk) hc
    exact .ok ⟨rfl, rfl, hplaced, hplaced, .inl rfl⟩
  · -- The sizes of the crops are read from a part of the layer that neither run has changed yet.
    rw [recrop_eq (hshort b (.inl rfl)), recrop_eq (hshort b' (.inr rfl)), crops_place, crops_place]
    cases crops l with
    | error e => exact .error e
    | ok sizes =>
      have hplaced (source : Option Source) (height : Nat) :
          Placed key ⟨kind, feed, cropTo height sizes (place kind source l)⟩ := by
        constructor
        · exact (isClosed_name key).cropTo sizes ((isClosed_name key).place hname)
        · exact (isClosed_ofNode kind).cropTo sizes ((isClosed_ofNode kind).place hk)
      exact .ok ⟨rfl, rfl, hplaced _ _, hplaced _ _,
        .inr ⟨hd, hQ.cropTo sizes (hQ.place hl), hQ.cropTo sizes (hQ.place hl)⟩⟩

theorem sameFate_rebindLayer (hname : l.name = key)
    (h : ∀ kind, LayerKind.ofNode l = .ok kind → kind.isData = true →
      SameFate (Alike key Q) (rebindData b kind l) (rebindData b' kind l)) :
    SameFate (Alike key Q) (rebindLayer b l) (rebindLayer b' l) := by
  unfold rebindLayer
  apply SameFate.bind_self
  intro kind hk
  split
  · next hd => exact h kind hk hd
  · have hplaced : Placed key ⟨kind, none, l⟩ := ⟨hname, hk⟩
    exact .ok ⟨rfl, rfl, hplaced, hplaced, .inl rfl⟩

theorem Alike.setBatch (hQ : IsClosed Q) (h : Alike key Q r r') (size : Int) :
    Alike key Q (r.setBatch size) (r'.setBatch size) := by
  have hside : KeepsSide fun block => block.setValue "batch_size" (toString size) (some .numeric) :=
    keepsSide_setValue (by decide) _ _
  have hclosed {P : Node → Prop} (hP : IsClosed P) {s : Rebound} (hs : P s.layer) :
      P (s.setBatch size).layer := hP _ _ _ hside (isInner_sourceBlockName s.kind) hs
  constructor
  · exact h.kind
  · exact h.feed
  · exact ⟨h.left.name, hclosed (isClosed_ofNode r.kind) h.left.ofKind⟩
  · exact ⟨h.right.name, hclosed (isClosed_ofNode r'.kind) h.right.ofKind⟩
  · rcases h.layer with he | ⟨hd, hl, hl'⟩
    · left
      rw [Rebound.setBatch, Rebound.setBatch, h.kind, he]
    · exact .inr ⟨hd, hclosed hQ hl, hclosed hQ hl'⟩

theorem forall₂_raiseBatch (hQ : IsClosed Q) (h : List.Forall₂ (Alike key Q) rs rs') :
    List.Forall₂ (Alike key Q) (raiseBatch rs) (raiseBatch rs') := by
  have hreverse : List.Forall₂ (Alike key Q) rs.reverse rs'.reverse := List.forall₂_reverse_iff.mpr h
  have hbatch (slot : Phase) : ∀ r r', Alike key Q r r' → r.batch? slot = r'.batch? slot := by
    intro r r' hr
    rw [Rebound.batch?, Rebound.batch?, hr.feed]
  have hlast (slot : Phase) : rs.reverse.findSome? (Rebound.batch? slot) =
      rs'.reverse.findSome? (Rebound.batch? slot) := forall₂_findSome? hreverse (hbatch slot)
  unfold raiseBatch
  dsimp only
  rw [hlast .train, hlast .test]
  split
  · split
    · apply List.forall₂_reverse_iff.mpr
      apply forall₂_modifyFirst hreverse
      · intro r r' hr
        rw [hbatch .train r r' hr]
      · intro r r' hr
        exact hr.setBatch hQ _
    · exact h
  · exact h

def AlikeBefore (key : String) (Q : Node → Prop) (s s' : Rebound × Bool) : Prop :=
  Alike key Q s.1 s'.1 ∧ s.2 = s'.2

theorem forall₂_beforeLoss (h : List.Forall₂ (Alike key Q) rs rs') :
    List.Forall₂ (AlikeBefore key Q) (beforeLoss rs) (beforeLoss rs') := by
  induction h with
  | nil => exact .nil
  | @cons r r' rs rs' hr hs ih =>
    refine .cons ⟨hr, ?_⟩ ih
    cases hs with
    | nil => rfl
    | cons hs _ => simp only [List.head?_cons, Option.any_some, hs.kind]

theorem ofKind_of_isResized {s : Rebound × Bool} (h : isResized s = true) :
    s.1.kind = .innerProduct := by
  rw [isResized, Rebound.hasOutput, Bool.and_eq_true, Bool.and_eq_true] at h
  exact of_decide_eq_true h.2.1

theorem AlikeBefore.layer_of_isResized {s s' : Rebound × Bool} (h : AlikeBefore key Q s s')
    (hs : isResized s = true) : s.1.layer = s'.1.layer := by
  rcases h.1.layer with he | ⟨hd, -⟩
  · exact he
  · rw [ofKind_of_isResized hs] at hd
    cases hd

theorem AlikeBefore.symm {s s' : Rebound × Bool} (h : AlikeBefore key Q s s') :
    AlikeBefore key Q s' s := by
  obtain ⟨hr, hflag⟩ := h
  refine ⟨⟨hr.kind.symm, hr.feed.symm, hr.right, hr.left, ?_⟩, hflag.symm⟩
  rcases hr.layer with he | ⟨hd, hl, hl'⟩
  · exact .inl he.symm
  · exact .inr ⟨hr.kind ▸ hd, hl', hl⟩

theorem AlikeBefore.isResized_eq {s s' : Rebound × Bool} (h : AlikeBefore key Q s s') :
    isResized s = isResized s' := by
  have himp {s s' : Rebound × Bool} (h : AlikeBefore key Q s s') (hs : isResized s = true) :
      isResized s' = true := by
    have hlayer := h.layer_of_isResized hs
    rwa [isResized, Rebound.hasOutput, h.2, h.1.kind, hlayer] at hs
  rw [Bool.eq_iff_iff]
  exact ⟨himp h, himp h.symm⟩

end Runs

def outputCount? (b : Binding) (resize : Bool) : Option Nat :=
  if resize && 0 < b.training.labelCount then some b.training.labelCount else none

def withOutput (count? : Option Nat) (s : Rebound × Bool) : Rebound :=
  match count? with
  | some count => if isResized s then s.1.setOutput count else s.1
  | none => s.1

def finish (count? : Option Nat) (n : Node) (rs : List (Rebound × Bool)) : Result (Node × Bool) :=
  if count?.any Decimal.isTooLong && rs.any isResized then .error (.badLiteral .unwritten)
  else .ok (withLayers n (rs.map fun s => some (withOutput count? s).layer),
    count?.isSome && rs.any isResized)

theorem rebind_eq (b : Binding) (resize : Bool) (n : Node) : rebind b resize n =
    (layers n).mapM (rebindLayer b) >>= fun rs =>
      finish (outputCount? b resize) n (beforeLoss (raiseBatch rs)) := by
  unfold rebind outputCount? finish
  congr 1
  funext rs
  dsimp only
  split
  · simp only [Option.any_some, Option.isSome_some, Bool.true_and, List.map_map, withOutput]
    split <;> rfl
  · simp only [Option.any_none, Option.isSome_none, Bool.false_and, withOutput]
    rfl

section Whole

variable {Q : Node → Prop} {R : Node → Node → Prop} {key : String} {b b' : Binding} {resize : Bool}
  {n : Node}

def UnderKey (key : String) (R : Node → Node → Prop) (l l' : Node) : Prop :=
  l.name = key ∧ l'.name = key ∧ R l l'

theorem name_of_forall₂ {ls ls' : List Node} (h : List.Forall₂ (UnderKey key R) ls ls') :
    (∀ l ∈ ls, l.name = key) ∧ ∀ l ∈ ls', l.name = key := by
  induction h with
  | nil => simp
  | cons h _ ih =>
    rw [List.forall_mem_cons, List.forall_mem_cons]
    exact ⟨⟨h.1, ih.1⟩, h.2.1, ih.2⟩

theorem aroundLayers_withLayers {ls ls' : List Node}
    (h : List.Forall₂ (UnderKey (layerKey n) R) ls ls') (hl : ls.length = (layers n).length) :
    AroundLayers R (withLayers n (ls.map some)) (withLayers n (ls'.map some)) := by
  obtain ⟨hname, hname'⟩ := name_of_forall₂ h
  have hl' : ls'.length = (layers n).length := h.length_eq ▸ hl
  constructor
  · rw [layers_withLayers hname' hl', withLayers_withLayers _ hname hl]
  · rw [layers_withLayers hname hl, layers_withLayers hname' hl']
    exact h.imp fun _ _ hll => hll.2.2

theorem withOutput_of_not {s : Rebound × Bool} (h : isResized s = false) (count? : Option Nat) :
    withOutput count? s = s.1 := by
  cases count? with
  | none => rfl
  | some count => rw [withOutput, h, if_neg (by decide)]

theorem keepsSide_numOutput (count : Nat) : KeepsSide fun p => p.modifyChild "num_output" fun c =>
    c.withValue (toString count) .numeric :=
  keepsSide_modifyChild (by decide) fun c => rfl

theorem Placed.withOutput {s : Rebound × Bool} (h : Placed key s.1) (count? : Option Nat) :
    (withOutput count? s).layer.name = key ∧
      LayerKind.ofNode (withOutput count? s).layer = .ok s.1.kind := by
  cases count? with
  | none => exact ⟨h.name, h.ofKind⟩
  | some count =>
    rw [Network.withOutput]
    split
    · exact ⟨h.name, isClosed_ofNode _ _ _ _ (keepsSide_numOutput count) (by simp [IsInner]) h.ofKind⟩
    · exact ⟨h.name, h.ofKind⟩

theorem AlikeBefore.equalOrSecondary {s s' : Rebound × Bool} (h : AlikeBefore key IsSecondary s s')
    (count? : Option Nat) :
    UnderKey key EqualOrSecondary (withOutput count? s).layer (withOutput count? s').layer := by
  refine ⟨(h.1.left.withOutput count?).1, (h.1.right.withOutput count?).1, ?_⟩
  by_cases hs : isResized s = true
  · left
    have hs' : isResized s' = true := h.isResized_eq.symm.trans hs
    cases count? with
    | none => exact h.layer_of_isResized hs
    | some count =>
      rw [withOutput, withOutput, if_pos hs, if_pos hs', Rebound.setOutput, Rebound.setOutput,
        h.layer_of_isResized hs]
  · rw [Bool.not_eq_true] at hs
    rw [withOutput_of_not hs, withOutput_of_not (h.isResized_eq.symm.trans hs)]
    rcases h.1.layer with he | ⟨-, hl, hl'⟩
    · exact .inl he
    · exact .inr ⟨hl, hl'⟩

theorem AlikeBefore.equalIfSecondary {s s' : Rebound × Bool}
    (h : AlikeBefore key (fun l => ¬ IsSecondary l) s s') (count? count?' : Option Nat) :
    UnderKey key EqualIfSecondary (withOutput count? s).layer (withOutput count?' s').layer := by
  obtain ⟨hname, hkind⟩ := h.1.left.withOutput count?
  obtain ⟨hname', hkind'⟩ := h.1.right.withOutput count?'
  refine ⟨hname, hname', ?_⟩
  intro hsecondary
  by_cases hs : isResized s = true
  · -- The counts may differ, but a layer with a count of outputs is no data layer.
    have hinner := ofKind_of_isResized hs
    rw [← h.1.kind, hinner] at hkind'
    rw [hinner] at hkind
    rcases hsecondary with hl | hl
    · exact absurd hl (not_isSecondary hkind rfl)
    · exact absurd hl (not_isSecondary hkind' rfl)
  · rw [Bool.not_eq_true] at hs
    rw [withOutput_of_not hs, withOutput_of_not (h.isResized_eq.symm.trans hs)] at hsecondary ⊢
    rcases h.1.layer with he | ⟨-, hl, hl'⟩
    · exact he
    · rcases hsecondary with hsec | hsec
      · exact absurd hsec hl
      · exact absurd hsec hl'

theorem sameFate_rebind {S : Node × Bool → Node × Bool → Prop} (hQ : IsClosed Q)
    (h : ∀ l ∈ layers n, SameFate (Alike (layerKey n) Q) (rebindLayer b l) (rebindLayer b' l))
    (hfinish : ∀ ss ss', List.Forall₂ (AlikeBefore (layerKey n) Q) ss ss' →
      ss.length = (layers n).length →
      SameFate S (finish (outputCount? b resize) n ss) (finish (outputCount? b' resize) n ss')) :
    SameFate S (rebind b resize n) (rebind b' resize n) := by
  rw [rebind_eq, rebind_eq]
  apply SameFate.bind (SameFate.mapM h)
  rintro rs rs' ⟨hlength, hrs⟩
  apply hfinish
  · exact forall₂_beforeLoss (forall₂_raiseBatch hQ hrs)
  · rw [← List.length_map Prod.fst, map_beforeLoss, length_raiseBatch, hlength]

theorem aroundLayers_finish {ss ss' : List (Rebound × Bool)} {count? count?' : Option Nat}
    (h : List.Forall₂ (AlikeBefore (layerKey n) Q) ss ss') (hl : ss.length = (layers n).length)
    (hR : ∀ s s', AlikeBefore (layerKey n) Q s s' →
      UnderKey (layerKey n) R (withOutput count? s).layer (withOutput count?' s').layer) :
    AroundLayers R (withLayers n (ss.map fun s => some (withOutput count? s).layer))
      (withLayers n (ss'.map fun s => some (withOutput count?' s).layer)) := by
  have hlayers : List.Forall₂ (UnderKey (layerKey n) R) (ss.map fun s => (withOutput count? s).layer)
      (ss'.map fun s => (withOutput count?' s).layer) := by
    rw [List.forall₂_map_left_iff, List.forall₂_map_right_iff]
    exact h.imp hR
  have hwith := aroundLayers_withLayers hlayers (by rw [List.length_map, hl])
  rwa [List.map_map, List.map_map] at hwith

theorem sameFate_rebind_of_target (t : Option Binding)
    (hshort : ∀ d, b.target = some d ∨ t = some d → HasShortHeights d) :
    SameFate (fun x y => x.2 = y.2 ∧ AroundLayers EqualOrSecondary x.1 y.1)
      (rebind b resize n) (rebind { b with target := t } resize n) := by
  apply sameFate_rebind isClosed_isSecondary
  · intro l hl
    apply sameFate_rebindLayer (name_of_mem_layers hl)
    intro kind hk hd
    apply sameFate_rebindData isClosed_isSecondary (name_of_mem_layers hl) hk hd
    intro feed hf
    cases feed with
    | none => exact .inl rfl
    | some f =>
      cases hp : f.primary with
      | true =>
        left
        rw [Option.bind_some, Option.bind_some, Feed.source?, Feed.source?, hp]
        rfl
      | false =>
        right
        refine ⟨(isSecondary_of_feed? hk hd hf).mpr hp, ?_⟩
        intro c hc
        rw [Option.bind_some, Feed.source?, hp, if_neg (by decide)]
        cases ht : c.target with
        | none => exact Decimal.isTooLong_zero
        | some d =>
          apply hshort d
          rcases hc with rfl | rfl
          · exact .inl ht
          · exact .inr ht
  · intro ss ss' hss hl
    have hany := forall₂_any hss fun s s' h => h.isResized_eq
    have hcount : outputCount? { b with target := t } resize = outputCount? b resize := rfl
    rw [hcount, finish, finish, ← hany]
    split
    · exact .error _
    · exact .ok ⟨rfl, aroundLayers_finish hss hl fun s s' h => h.equalOrSecondary _⟩

theorem isTooLong_outputCount? (h : Decimal.isTooLong b.training.labelCount = false) :
    (outputCount? b resize).any Decimal.isTooLong = false := by
  unfold outputCount?
  split
  · simpa only [Option.any_some] using h
  · exact Option.any_none

theorem sameFate_rebind_of_primary (ht : b.target = b'.target)
    (hshort : ∀ c, c = b ∨ c = b' →
      HasShortHeights c ∧ Decimal.isTooLong c.training.labelCount = false) :
    SameFate (fun x y => AroundLayers EqualIfSecondary x.1 y.1)
      (rebind b resize n) (rebind b' resize n) := by
  apply sameFate_rebind isClosed_not_isSecondary
  · intro l hl
    apply sameFate_rebindLayer (name_of_mem_layers hl)
    intro kind hk hd
    apply sameFate_rebindData isClosed_not_isSecondary (name_of_mem_layers hl) hk hd
    intro feed hf
    cases feed with
    | none => exact .inl rfl
    | some f =>
      cases hp : f.primary with
      | false =>
        left
        rw [Option.bind_some, Option.bind_some, Feed.source?, Feed.source?, hp, if_neg (by decide),
          if_neg (by decide), ht]
      | true =>
        right
        constructor
        · rw [isSecondary_of_feed? hk hd hf, hp]
          decide
        · intro c hc
          rw [Option.bind_some, Feed.source?, hp, if_pos rfl]
          exact (hshort c hc).1 f.slot
  · intro ss ss' hss hl
    rw [finish, finish, isTooLong_outputCount? (hshort b (.inl rfl)).2,
      isTooLong_outputCount? (hshort b' (.inr rfl)).2]
    exact .ok (aroundLayers_finish hss hl fun s s' h => h.equalIfSecondary _ _)

theorem isSecondary_of_use {l : Node} {u : SourceUse} (h : sourceUse? l = .ok (some u)) :
    IsSecondary l ↔ u.primary = false := by
  obtain ⟨block, source, hfed, -, hp, -⟩ := sourceUse?_eq_some h
  rw [isSecondary_iff hfed.ofKind hfed.isData hfed.hasBlock, hp, Except.ok.injEq]

theorem isSecondary_writeName {l : Node} {u : SourceUse} (h : sourceUse? l = .ok (some u)) :
    IsSecondary (writeName b (some u) l) ↔ u.primary = false :=
  isSecondary_of_use (u := u.renamed b) (sourceUse?_writeName h)

theorem sameFate_applySources
    (h : ∀ l ∈ layers n, ∀ use, sourceUse? l = .ok use → R (writeName b use l) (writeName b' use l)) :
    SameFate (AroundLayers R) (applySources b n) (applySources b' n) := by
  have hlayer (c : Binding) (l : Node) : applyToLayer c l = sourceUse? l >>= fun use =>
      .ok (writeName c use l) := by
    cases hu : sourceUse? l with
    | error e => rw [applyToLayer, hu, error_bind, error_bind]
    | ok use => rw [applyToLayer_eq hu, ok_bind]
  have hlayers : ∀ l ∈ layers n,
      SameFate (UnderKey (layerKey n) R) (applyToLayer b l) (applyToLayer b' l) := by
    intro l hl
    rw [hlayer, hlayer]
    apply SameFate.bind_self
    intro use hu
    have hname := name_of_mem_layers hl
    exact .ok ⟨(name_writeName b use l).trans hname, (name_writeName b' use l).trans hname,
      h l hl use hu⟩
  apply SameFate.bind (SameFate.mapM hlayers)
  rintro ls ls' ⟨hlength, hls⟩
  exact .ok (aroundLayers_withLayers hls hlength)

theorem sameFate_applySources_of_target (t : Option Binding) :
    SameFate (AroundLayers EqualOrSecondary) (applySources b n)
      (applySources { b with target := t } n) := by
  apply sameFate_applySources
  intro l _ use hu
  cases use with
  | none => exact .inl rfl
  | some u =>
    cases hp : u.primary with
    | true =>
      left
      have hbound : boundName? { b with target := t } u = boundName? b u := by
        rw [boundName?_eq, boundName?_eq, hp]
        rfl
      rw [writeName, writeName, hbound]
    | false => exact .inr ⟨(isSecondary_writeName hu).mpr hp, (isSecondary_writeName hu).mpr hp⟩

theorem sameFate_applySources_of_primary (ht : b.target = b'.target) :
    SameFate (AroundLayers EqualIfSecondary) (applySources b n) (applySources b' n) := by
  apply sameFate_applySources
  intro l _ use hu
  cases use with
  | none => exact fun _ => rfl
  | some u =>
    intro hsecondary
    have hp : u.primary = false := by
      rcases hsecondary with hl | hl
      · exact (isSecondary_writeName hu).mp hl
      · exact (isSecondary_writeName hu).mp hl
    have hbound : boundName? b u = boundName? b' u := by
      rw [boundName?_eq, boundName?_eq, hp, if_neg (by decide), if_neg (by decide), ht]
    rw [writeName, writeName, hbound]

end Whole

/-- Bindings that differ in their second dataset alone bring a network to the same end, but for the
data layers that read it; bindings with the same second dataset do so for those layers. Numbers that
are written have to be short enough for that. -/
theorem datasets_apart (b b' : Binding) (resize : Bool) (n : Node) :
    (b' = { b with target := b'.target } →
      (∀ d, b.target = some d ∨ b'.target = some d → HasShortHeights d) →
      SameFate (fun x y => x.2 = y.2 ∧ AroundLayers EqualOrSecondary x.1 y.1)
        (rebind b resize n) (rebind b' resize n)) ∧
    (b.target = b'.target → (∀ c, c = b ∨ c = b' →
        HasShortHeights c ∧ Decimal.isTooLong c.training.labelCount = false) →
      SameFate (fun x y => AroundLayers EqualIfSecondary x.1 y.1)
        (rebind b resize n) (rebind b' resize n)) ∧
    (b' = { b with target := b'.target } →
      SameFate (AroundLayers EqualOrSecondary) (applySources b n) (applySources b' n)) ∧
    (b.target = b'.target →
      SameFate (AroundLayers EqualIfSecondary) (applySources b n) (applySources b' n)) := by
  refine ⟨?_, ?_, ?_, ?_⟩
  · intro hb hshort
    rw [hb]
    exact sameFate_rebind_of_target b'.target hshort
  · exact fun ht hshort => sameFate_rebind_of_primary ht hshort
  · intro hb
    rw [hb]
    exact sameFate_applySources_of_target b'.target
  · exact sameFate_applySources_of_primary

def croppedReaders : Node :=
  root [
    block "layer" [leaf "type" "Data" .string, block "include" [leaf "phase" "TRAIN" .unknown],
      block "transform_param" [leaf "crop_size" "8" .numeric],
      block "data_param" [leaf "source" "a" .string]],
    block "layer" [leaf "type" "Data" .string, block "include" [leaf "phase" "TEST" .unknown],
      block "transform_param" [leaf "crop_size" "8" .numeric],
      block "data_param" [leaf "source" "b" .string, leaf "primary_data" "false" .bool]],
    block "layer" [leaf "type" "InnerProduct" .string,
      block "inner_product_param" [leaf "num_output" "2" .numeric]],
    block "layer" [leaf "type" "SoftmaxWithLoss" .string]]

def tenLabels (target : Option Binding) : Binding :=
  { training := { name := "t", imageHeight := 16, labelCount := 10 }, target }

theorem datasets_apart_croppedReaders :
    (∃ r r', rebind (tenLabels none) true croppedReaders = .ok r ∧
      rebind (tenLabels (some { testing := { name := "s", imageHeight := 32 } })) true
        croppedReaders = .ok r' ∧
      r.2 = r'.2 ∧ AroundLayers EqualOrSecondary r.1 r'.1) ∧
    ∃ r r', rebind (tenLabels none) true croppedReaders = .ok r ∧
      rebind {} true croppedReaders = .ok r' ∧ AroundLayers EqualIfSecondary r.1 r'.1 := by
  obtain ⟨r, hr, -⟩ : ∃ r, rebind (tenLabels none) true croppedReaders = .ok r ∧ r.2 = true :=
    exists_ok (by decide +kernel)
  have hsmall : HasShortHeights { testing := { name := "s", imageHeight := 32 } } := by
    intro p
    cases p <;> decide +kernel
  have hten : HasShortHeights (tenLabels none) ∧ HasShortHeights {} := by
    constructor <;> intro p <;> cases p <;> decide +kernel
  constructor
  · have hfate := (datasets_apart (tenLabels none)
      (tenLabels (some { testing := { name := "s", imageHeight := 32 } })) true croppedReaders).1 rfl (by
        rintro d (hd | hd) <;> cases hd
        exact hsmall)
    obtain ⟨r', hr', hflag, haround⟩ := hfate.of_ok hr
    exact ⟨r, r', hr, hr', hflag, haround⟩
  · have hfate := (datasets_apart (tenLabels none) {} true croppedReaders).2.1 rfl (by
      rintro c (rfl | rfl)
      · exact ⟨hten.1, by decide +kernel⟩
      · exact ⟨hten.2, by decide +kernel⟩)
    obtain ⟨r', hr', haround⟩ := hfate.of_ok hr
    exact ⟨r, r', hr, hr', haround⟩

def secondReader : String :=
  "layer \x7b type: \"Data\" include \x7b phase: TEST \x7d " ++
    "transform_param \x7b crop_size: 8 \x7d data_param \x7b source: \"b\" primary_data: false \x7d \x7d"

theorem rebind_tall : ∃ n, parse secondReader = .ok n ∧
    ¬ SameFate (fun x y => x.2 = y.2 ∧ AroundLayers EqualOrSecondary x.1 y.1) (rebind {} false n)
      (rebind { target := some { testing := { imageHeight := Decimal.tenTo 4300 } } } false n) := by
  obtain ⟨n, hn, hd⟩ : ∃ n, parse secondReader = .ok n ∧
      ((rebind {} false n).toOption.isSome &&
        (rebind { target := some { testing := { imageHeight := Decimal.tenTo 4300 } } } false
          n).toOption.isNone) = true := by
    apply exists_parse
    · exact toList_append_of String.toList_ofList String.toList_ofList
    · decide +kernel
  refine ⟨n, hn, fun hfate => ?_⟩
  rw [Bool.and_eq_true] at hd
  obtain ⟨r, hr⟩ := Option.isSome_iff_exists.mp hd.1
  obtain ⟨r', hr', -⟩ := hfate.of_ok (toOption_eq_some.mp hr)
  rw [toOption_eq_some.mpr hr'] at hd
  cases hd.2

end NetDesc.Network
