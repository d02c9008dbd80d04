import NetDesc.Proofs.Record.Fields

namespace NetDesc.Record

open Decimal Value

def firstMember? (faults : List Fault) : Option Fault :=
  faults.find? fun f => f.fault.isNotAMember

def memberFault? {α : Type} : Checked α → Option Fault
  | .ok _ => none
  | .error faults => firstMember? faults

def IsPlain (f : FieldSpec) : Prop :=
  f.isRecord = false ∧ ∀ ch, f.shape = .choice ch → f.occurrence ≠ .repeated

def readTexts (n : Node) (fs : List FieldSpec) : List (String × Checked Value) :=
  fs.flatMap fun f => checkTexts f (n.findValues f.name)

def badChoice? (n : Node) (f : FieldSpec) : Option Fault :=
  match f.shape with
  | .choice ch => ((n.findValues f.name).head?.filter fun t => !ch.members.contains t).map fun t =>
    ⟨[.field f.name], .notAMember t⟩
  | _ => none

section Reading

variable {c : RecordClass} {f : FieldSpec} {fs : List FieldSpec} {texts : List String} {n : Node}

theorem name_of_mem_checkTexts {p : String × Checked Value} (hp : p ∈ checkTexts f texts) :
    p.1 = f.name :=
  (readsFor_checkTexts f texts p hp).1

theorem lookup_readTexts (hn : (fs.map FieldSpec.name).Nodup) (hf : f ∈ fs) :
    (readTexts n fs).lookup f.name = (checkTexts f (n.findValues f.name)).lookup f.name :=
  lookup_flatMap hn (fun _ _ _ hp => name_of_mem_checkTexts hp) hf

theorem lookup_single (ho : f.occurrence ≠ .repeated) :
    (checkTexts f texts).lookup f.name =
      texts.head?.map fun t => oneFault (valueOfText f.shape t) := by
  cases texts with
  | nil =>
    rw [checkTexts_nil]
    rfl
  | cons t ts =>
    rw [checkTexts_of_single ho, List.lookup_cons_self]
    rfl

theorem ofNode_of_plain (hc : ∀ f ∈ c.fields, IsPlain f) (n : Node) :
    ofNode c n = (assemble c (readTexts n c.fields)).mapError (Failure.ofFaults n.name) := by
  obtain ⟨name, value, valueType, children⟩ := n
  have hread : c.fields.mapM (readChildren (knownChildren c children)) = .ok (c.fields.map fun f =>
      checkTexts f ((Node.mk name value valueType children).findValues f.name)) := by
    rw [mapM_eq_ok, List.map_map]
    refine List.map_congr_left fun f hf => ?_
    have hne := FieldSpec.ne_record (hc f hf).1
    rw [readChildren_of_text _ hne, childTexts_knownChildren (c.field?_name hf) hne]
    rfl
  rw [ofNode, ofChildren, hread, ok_bind, readTexts, List.flatMap]

theorem oneFault_eq_ok {α : Type} {r : Except FieldFault α} {x : α} :
    oneFault r = .ok x ↔ r = .ok x := by
  cases r with
  | ok y => exact ⟨fun h => by cases h; rfl, fun h => by cases h; rfl⟩
  | error e => exact ⟨nofun, nofun⟩

def Holds (read : List (String × Checked Value)) (f : FieldSpec) (v : Value) : Prop :=
  (read.lookup f.name = none ∧ v = f.standard) ∨ read.lookup f.name = some (.ok v)

theorem eq_cons_of_collect {read : List (String × Checked Value)} {es : List (Bool × Value)}
    (h : collect read (f :: fs) = .ok es) :
    ∃ given v rest, es = (given, v) :: rest ∧ Holds read f v ∧ collect read fs = .ok rest := by
  rw [collect] at h
  cases hl : read.lookup f.name with
  | none =>
    rw [hl] at h
    cases hrest : collect read fs with
    | ok rest =>
      rw [hrest] at h
      cases h
      exact ⟨false, f.standard, rest, rfl, .inl ⟨hl, rfl⟩, rfl⟩
    | error gs =>
      rw [hrest] at h
      cases h
  | some checked =>
    obtain ⟨v, rfl⟩ := lookup_of_collect (by rw [collect]; exact h) (List.mem_cons_self ..) hl
    rw [hl] at h
    cases hrest : collect read fs with
    | ok rest =>
      rw [hrest] at h
      cases h
      exact ⟨true, v, rest, rfl, .inr hl, rfl⟩
    | error gs =>
      rw [hrest] at h
      cases h

theorem findSome?_of_collect {read : List (String × Checked Value)} {es : List (Bool × Value)}
    (hn : (fs.map FieldSpec.name).Nodup) (h : collect read fs = .ok es) (hf : f ∈ fs) :
    ∃ v, Holds read f v ∧
      ((fs.zip es).findSome? fun (g, e) => if g.name = f.name then some e.2 else none) = some v := by
  induction fs generalizing es with
  | nil => cases hf
  | cons g fs ih =>
    obtain ⟨hg, hn⟩ := List.nodup_cons.mp hn
    obtain ⟨given, v, rest, rfl, hv, hrest⟩ := eq_cons_of_collect h
    rw [List.zip_cons_cons, List.findSome?_cons]
    dsimp only
    rcases List.mem_cons.mp hf with rfl | hf
    · exact ⟨v, hv, by rw [if_pos rfl]⟩
    · have hne : g.name ≠ f.name := fun he => hg (he ▸ List.mem_map_of_mem hf)
      rw [if_neg hne]
      exact ih hn hrest hf

theorem get?_of_ofNode {r : Record} (h : ofNode c n = .ok r) (hf : f ∈ c.fields)
    (hs : ∀ inner, f.shape ≠ .record inner) :
    ∃ v, r.get? f.name = some v ∧ Holds (checkTexts f (n.findValues f.name)) f v := by
  obtain ⟨chunks, es, hread, hes, rfl⟩ := ofNode_eq_ok h
  obtain ⟨v, hv, hget⟩ := findSome?_of_collect c.nodup_fields hes hf
  have htexts : readChildren (knownChildren c n.children) f =
      .ok (checkTexts f (n.findValues f.name)) := by
    rw [readChildren_of_text _ hs, childTexts_knownChildren (c.field?_name hf) hs]
    rfl
  rw [Holds, lookup_readChildren hf hread htexts] at hv
  exact ⟨v, hget, hv⟩

theorem get?_of_plain (hc : ∀ f ∈ c.fields, IsPlain f) {r : Record} (h : ofNode c n = .ok r)
    {name : String} (hf : c.field? name = some f) (ho : f.occurrence ≠ .repeated) :
    ∃ v, r.get? name = some v ∧
      match n.findValues name with
      | [] => v = f.standard
      | t :: _ => valueOfText f.shape t = .ok v := by
  have hbeq := List.find?_some hf
  obtain rfl : f.name = name := LawfulBEq.eq_of_beq hbeq
  have hf := List.mem_of_find?_eq_some hf
  obtain ⟨v, hget, hv⟩ := get?_of_ofNode h hf (FieldSpec.ne_record (hc f hf).1)
  refine ⟨v, hget, ?_⟩
  rw [Holds, lookup_single ho] at hv
  cases ht : n.findValues f.name with
  | nil =>
    rw [ht] at hv
    rcases hv with ⟨-, rfl⟩ | hv
    · rfl
    · cases hv
  | cons t ts =>
    rw [ht] at hv
    rcases hv with ⟨hv, -⟩ | hv
    · cases hv
    · exact oneFault_eq_ok.mp (Option.some.inj hv)

theorem get?_of_cons (hc : ∀ f ∈ c.fields, IsPlain f) {r : Record} (h : ofNode c n = .ok r)
    {name t : String} {ts : List String} (hf : c.field? name = some f)
    (ho : f.occurrence ≠ .repeated) (ht : n.findValues name = t :: ts) :
    ∃ v, valueOfText f.shape t = .ok v ∧ r.get? name = some v := by
  obtain ⟨v, hget, hv⟩ := get?_of_plain hc h hf ho
  rw [ht] at hv
  exact ⟨v, hv, hget⟩

theorem get?_of_nil (hc : ∀ f ∈ c.fields, IsPlain f) {r : Record} (h : ofNode c n = .ok r)
    {name : String} (hf : c.field? name = some f) (ho : f.occurrence ≠ .repeated)
    (ht : n.findValues name = []) : r.get? name = some f.standard := by
  obtain ⟨v, hget, hv⟩ := get?_of_plain hc h hf ho
  rw [ht] at hv
  exact hv ▸ hget

end Reading

section Faults

variable {c : RecordClass} {f : FieldSpec} {fs : List FieldSpec} {texts : List String} {n : Node}

theorem isNotAMember_of_checkInt {b : Bound} {m : Int} {e : FieldFault}
    (h : b.checkInt m = .error e) : e.isNotAMember = false := by
  unfold Bound.checkInt at h
  split at h
  · split at h <;> cases h
    rfl
  · split at h <;> cases h
    rfl
  · cases h

theorem isNotAMember_of_checkFloat {b : Bound} {x : Double} {e : FieldFault}
    (h : b.checkFloat x = .error e) : e.isNotAMember = false := by
  unfold Bound.checkFloat at h
  split at h
  · split at h
    · cases h
      rfl
    · split at h <;> cases h
      rfl
  · cases h

theorem isNotAMember_of_intOfText {t : String} {e : FieldFault} (h : intOfText t = .error e) :
    e.isNotAMember = false := by
  have hint (h : Check.intText t = .error e) : e.isNotAMember = false := by
    unfold Check.intText at h
    split at h <;> cases h <;> rfl
  unfold intOfText at h
  split at h
  · split at h
    · cases h
    · exact hint h
  · exact hint h

theorem isNotAMember_of_valueOfText {s : Shape} {t : String} {e : FieldFault}
    (hs : ∀ ch, s ≠ .choice ch) (h : valueOfText s t = .error e) : e.isNotAMember = false := by
  cases s with
  | int b =>
    rcases bind_eq_error.mp h with h | ⟨m, -, h⟩
    · exact isNotAMember_of_intOfText h
    · rcases bind_eq_error.mp h with h | ⟨k, -, h⟩
      · exact isNotAMember_of_checkInt h
      · cases h
  | float b =>
    have h := map_eq_error.mp h
    rcases bind_eq_error.mp h with h | ⟨x, -, h⟩
    · unfold Check.floatText at h
      split at h <;> cases h
      rfl
    · exact isNotAMember_of_checkFloat h
  | bool =>
    have h := map_eq_error.mp h
    change Check.boolText t = .error e at h
    unfold Check.boolText at h
    dsimp only at h
    split at h
    · cases h
    · split at h <;> cases h
      rfl
  | text => cases h
  | choice ch => exact absurd rfl (hs ch)
  | record inner =>
    cases h
    rfl

theorem firstMember?_append (gs hs : List Fault) :
    firstMember? (gs ++ hs) = (firstMember? gs).or (firstMember? hs) :=
  List.find?_append

theorem firstMember?_inside (s : Step) (gs : List Fault) :
    firstMember? (gs.map (Fault.inside s)) = (firstMember? gs).map (Fault.inside s) :=
  List.find?_map ..

theorem memberFault?_oneFault {α : Type} {r : Except FieldFault α}
    (h : ∀ e, r = .error e → e.isNotAMember = false) : memberFault? (oneFault r) = none := by
  cases r with
  | ok x => rfl
  | error e =>
    have he : ¬ (⟨[], e⟩ : Fault).fault.isNotAMember = true := by
      rw [h e rfl]
      exact Bool.false_ne_true
    exact List.find?_cons_of_neg (p := fun f : Fault => f.fault.isNotAMember) he

theorem memberFault?_addItem {α : Type} {i : Nat} {item : Checked α} {rest : Checked (List α)}
    (hitem : memberFault? item = none) (hrest : memberFault? rest = none) :
    memberFault? (addItem i item rest) = none := by
  cases item with
  | ok x => cases rest <;> exact hrest
  | error gs =>
    have hinside : firstMember? (gs.map (Fault.inside (.index i))) = none := by
      rw [firstMember?_inside]
      exact congrArg (Option.map _) hitem
    cases rest with
    | ok xs => exact hinside
    | error hs =>
      rw [addItem, memberFault?, firstMember?_append, hinside]
      exact hrest

theorem memberFault?_itemsOfTexts {s : Shape} (hs : ∀ ch, s ≠ .choice ch) (i : Nat)
    (texts : List String) : memberFault? (itemsOfTexts s i texts) = none := by
  induction texts generalizing i with
  | nil => rfl
  | cons t ts ih =>
    exact memberFault?_addItem (memberFault?_oneFault fun e => isNotAMember_of_valueOfText hs) (ih _)

theorem memberFault?_of_not_choice {p : String × Checked Value} (hs : ∀ ch, f.shape ≠ .choice ch)
    (hp : p ∈ checkTexts f texts) : memberFault? p.2 = none := by
  cases texts with
  | nil =>
    rw [checkTexts_nil] at hp
    cases hp
  | cons t ts =>
    by_cases ho : f.occurrence = .repeated
    · rw [checkTexts_of_repeated ho, List.mem_singleton] at hp
      subst hp
      have hnone := memberFault?_itemsOfTexts hs 0 (t :: ts)
      dsimp only
      cases hitems : itemsOfTexts f.shape 0 (t :: ts) with
      | ok vs => rfl
      | error gs =>
        rw [hitems] at hnone
        exact hnone
    · rw [checkTexts_of_single ho, List.mem_singleton] at hp
      subst hp
      exact memberFault?_oneFault fun e => isNotAMember_of_valueOfText hs

theorem memberFault?_word (ch : Choice) (t : String) :
    memberFault? (oneFault (valueOfText (.choice ch) t)) =
      if ch.members.contains t then none else some ⟨[], .notAMember t⟩ := by
  simp only [valueOfText, Shape.check, Check.member]
  split <;> rfl

def faultOf (read : List (String × Checked Value)) (f : FieldSpec) : Option Fault :=
  ((read.lookup f.name).bind memberFault?).map (.inside (.field f.name))

theorem memberFault?_collect (read : List (String × Checked Value)) (fs : List FieldSpec) :
    memberFault? (collect read fs) = fs.findSome? (faultOf read) := by
  induction fs with
  | nil => rfl
  | cons f fs ih =>
    rw [List.findSome?_cons, ← ih, collect, faultOf]
    cases read.lookup f.name with
    | none => cases collect read fs <;> rfl
    | some checked =>
      cases checked with
      | ok v => cases collect read fs <;> rfl
      | error gs =>
        rw [Option.bind_some, memberFault?, ← firstMember?_inside]
        cases collect read fs with
        | ok es =>
          dsimp only [memberFault?]
          cases firstMember? (gs.map (Fault.inside (.field f.name))) <;> rfl
        | error hs =>
          dsimp only [memberFault?]
          rw [firstMember?_append]
          cases firstMember? (gs.map (Fault.inside (.field f.name))) <;> rfl

theorem memberFault?_assemble (c : RecordClass) (read : List (String × Checked Value)) :
    memberFault? (assemble c read) = memberFault? (collect read c.fields) := by
  have hunknown (names : List String) :
      firstMember? (unknownFields c names) = none := by
    rw [firstMember?, List.find?_eq_none]
    intro g hg
    obtain ⟨name, -, rfl⟩ := List.mem_map.mp hg
    exact Bool.false_ne_true
  unfold assemble
  dsimp only
  cases collect read c.fields with
  | ok es =>
    dsimp only
    split
    · rfl
    · exact hunknown _
  | error gs =>
    rw [memberFault?, firstMember?_append, hunknown, Option.or_none, memberFault?]

theorem faultOf_readTexts (hn : (fs.map FieldSpec.name).Nodup) (hf : f ∈ fs) (hp : IsPlain f) :
    faultOf (readTexts n fs) f = badChoice? n f := by
  rw [faultOf, lookup_readTexts hn hf]
  by_cases hs : ∃ ch, f.shape = .choice ch
  · obtain ⟨ch, hs⟩ := hs
    rw [lookup_single (hp.2 ch hs), badChoice?, hs]
    cases (n.findValues f.name).head? with
    | none => rfl
    | some t =>
      rw [Option.map_some, Option.bind_some, memberFault?_word]
      cases hm : ch.members.contains t <;> simp only [Option.filter_some, hm] <;> rfl
  · have hnone : ((checkTexts f (n.findValues f.name)).lookup f.name).bind memberFault? = none := by
      cases hl : (checkTexts f (n.findValues f.name)).lookup f.name with
      | none => rfl
      | some checked =>
        obtain ⟨before, after, he, -⟩ := List.lookup_eq_some_iff.mp hl
        exact memberFault?_of_not_choice (fun ch hch => hs ⟨ch, hch⟩) (p := (f.name, checked))
          (by rw [he]; simp)
    rw [hnone, badChoice?]
    split
    · next ch hch => exact absurd ⟨ch, hch⟩ hs
    · rfl

theorem memberFault?_ofTexts (hc : ∀ f ∈ c.fields, IsPlain f) :
    memberFault? (assemble c (readTexts n c.fields)) = c.fields.findSome? (badChoice? n) := by
  have hfields : ∀ f ∈ c.fields, faultOf (readTexts n c.fields) f = badChoice? n f := fun f hf =>
    faultOf_readTexts c.nodup_fields hf (hc f hf)
  have hmap (fault? : FieldSpec → Option Fault) :
      c.fields.findSome? fault? = (c.fields.map fault?).findSome? id := by
    rw [List.findSome?_map]
    rfl
  rw [memberFault?_assemble, memberFault?_collect, hmap, List.map_congr_left hfields, ← hmap]

end Faults

section Failures

variable {c : RecordClass} {n : Node} {place what t : String} {gs : List Fault}

theorem ofFaults_ne_unknown (h : firstMember? gs = none) :
    Failure.ofFaults place gs ≠ .unknown what t := by
  rw [firstMember?] at h
  unfold Failure.ofFaults
  rw [h]
  cases gs <;> exact Failure.noConfusion

theorem ofFaults_of_member {name : String}
    (h : firstMember? gs = some ⟨[.field name], .notAMember t⟩) :
    Failure.ofFaults place gs = .unknown (if name.isEmpty then place else place ++ "." ++ name) t := by
  rw [firstMember?] at h
  unfold Failure.ofFaults
  rw [h]
  rfl

theorem badChoice?_eq_some {f : FieldSpec} {g : Fault} (h : badChoice? n f = some g) :
    ∃ t, g = ⟨[.field f.name], .notAMember t⟩ := by
  unfold badChoice? at h
  split at h
  · obtain ⟨t, -, rfl⟩ := Option.map_eq_some_iff.mp h
    exact ⟨t, rfl⟩
  · cases h

theorem ofNode_unknown_iff (hc : ∀ f ∈ c.fields, IsPlain f) :
    ofNode c n = .error (.unknown what t) ↔
      ∃ name, c.fields.findSome? (badChoice? n) = some ⟨[.field name], .notAMember t⟩ ∧
        what = if name.isEmpty then n.name else n.name ++ "." ++ name := by
  have hfirst := memberFault?_ofTexts (n := n) hc
  rw [ofNode_of_plain hc]
  cases hread : assemble c (readTexts n c.fields) with
  | ok r =>
    rw [hread] at hfirst
    rw [← hfirst]
    constructor
    · intro h
      cases h
    · rintro ⟨name, h, -⟩
      cases h
  | error gs =>
    rw [hread, memberFault?] at hfirst
    rw [← hfirst]
    change Except.error (Failure.ofFaults n.name gs) = _ ↔ _
    rw [Except.error.injEq]
    -- A fault about a member makes the failure, wherever it stands among the others.
    cases hm : firstMember? gs with
    | none => simp [ofFaults_ne_unknown hm]
    | some g =>
      obtain ⟨f, -, hg⟩ := List.exists_of_findSome?_eq_some (hfirst.symm.trans hm)
      obtain ⟨text, rfl⟩ := badChoice?_eq_some hg
      rw [ofFaults_of_member hm, Failure.unknown.injEq]
      constructor
      · rintro ⟨rfl, rfl⟩
        exact ⟨f.name, rfl, rfl⟩
      · rintro ⟨name, he, rfl⟩
        cases he
        exact ⟨rfl, rfl⟩

end Failures

end NetDesc.Record
