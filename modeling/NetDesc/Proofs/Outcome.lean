namespace NetDesc

variable {ε α β : Type}

@[simp]
theorem ok_bind (a : α) (f : α → Except ε β) : Except.ok a >>= f = f a := rfl

@[simp]
theorem error_bind (e : ε) (f : α → Except ε β) : Except.error e >>= f = .error e := rfl

theorem map_eq_ok {f : α → β} {x : Except ε α} {b : β} :
    x.map f = .ok b ↔ ∃ a, x = .ok a ∧ f a = b := by
  cases x <;> simp [Except.map]

theorem bind_eq_ok {f : α → Except ε β} {x : Except ε α} {b : β} :
    x >>= f = .ok b ↔ ∃ a, x = .ok a ∧ f a = .ok b := by
  cases x <;> simp [bind, Except.bind]

theorem map_eq_error {f : α → β} {x : Except ε α} {e : ε} : x.map f = .error e ↔ x = .error e := by
  cases x <;> simp [Except.map]

theorem bind_eq_error {f : α → Except ε β} {x : Except ε α} {e : ε} :
    x >>= f = .error e ↔ x = .error e ∨ ∃ a, x = .ok a ∧ f a = .error e := by
  cases x <;> simp

theorem map_of_bind {γ : Type} (x : Except ε α) (f : α → Except ε β) (g : β → γ) :
    (x >>= f).map g = x >>= fun a => (f a).map g := by
  cases x <;> rfl

theorem bind_of_map {γ : Type} (x : Except ε α) (g : α → β) (f : β → Except ε γ) :
    x.map g >>= f = x >>= fun a => f (g a) := by
  cases x <;> rfl

theorem mapM_eq_ok {f : α → Except ε β} {xs : List α} {ys : List β} :
    xs.mapM f = .ok ys ↔ xs.map f = ys.map .ok := by
  induction xs generalizing ys with
  | nil => cases ys <;> simp [pure, Except.pure]
  | cons x xs ih =>
    rw [List.mapM_cons, bind_eq_ok]
    cases ys with
    | nil =>
      simp only [List.map_cons, List.map_nil, reduceCtorEq, iff_false, not_exists, not_and]
      intro y _ h
      obtain ⟨zs, _, hz⟩ := bind_eq_ok.mp h
      cases hz
    | cons y ys =>
      simp only [List.map_cons, List.cons.injEq]
      constructor
      · rintro ⟨z, hz, h⟩
        obtain ⟨zs, hzs, he⟩ := bind_eq_ok.mp h
        cases he
        exact ⟨hz, ih.mp hzs⟩
      · rintro ⟨hx, hxs⟩
        exact ⟨y, hx, bind_eq_ok.mpr ⟨ys, ih.mpr hxs, rfl⟩⟩

theorem flatten_of_mapM {f : α → Except ε (List β)} {xs : List α} {yss : List (List β)}
    (h : xs.mapM f = .ok yss) : yss.flatten = xs.flatMap fun x => (f x).toOption.getD [] := by
  have hread : yss = (yss.map (Except.ok (ε := ε))).map fun r => r.toOption.getD [] := by
    rw [List.map_map]
    exact (List.map_id yss).symm
  rw [hread, ← mapM_eq_ok.mp h, List.map_map]
  rfl

theorem mapM_of_map_eq {γ : Type} {f : α → Except ε β} {g : γ → Except ε β} {xs : List α}
    {ys : List γ} (h : xs.map f = ys.map g) : xs.mapM f = ys.mapM g := by
  have hf : xs.mapM f = (xs.map f).mapM id := by
    rw [List.mapM_map]
    rfl
  rw [hf, h, List.mapM_map]
  rfl

theorem mapM_map_of_ok {γ : Type} {f : α → Except ε β} {g : γ → α} {h : γ → β} {xs : List γ}
    (hf : ∀ x ∈ xs, f (g x) = .ok (h x)) : (xs.map g).mapM f = .ok (xs.map h) := by
  rw [mapM_eq_ok, List.map_map, List.map_map]
  exact List.map_congr_left hf

theorem mapM_of_commutes {γ δ : Type} {f : α → Except ε β} {f' : γ → Except ε δ} {g : α → γ}
    {h : β → δ} (hf : ∀ x, f' (g x) = (f x).map h) (xs : List α) :
    (xs.map g).mapM f' = (xs.mapM f).map (List.map h) := by
  induction xs with
  | nil => rfl
  | cons x xs ih =>
    rw [List.map_cons, List.mapM_cons, List.mapM_cons, hf, ih, bind_of_map, map_of_bind]
    congr 1
    funext y
    rw [bind_of_map, map_of_bind]
    rfl

theorem of_mapM {f : α → Except ε β} {xs : List α} {ys : List β} (h : xs.mapM f = .ok ys) :
    ys.length = xs.length ∧ ∀ y ∈ ys, ∃ x ∈ xs, f x = .ok y := by
  rw [mapM_eq_ok] at h
  constructor
  · have hlength := congrArg List.length h
    rw [List.length_map, List.length_map] at hlength
    exact hlength.symm
  · intro y hy
    apply List.mem_map.mp
    rw [h]
    exact List.mem_map_of_mem hy

theorem getElem?_of_mapM {f : α → Except ε β} {xs : List α} {ys : List β} (h : xs.mapM f = .ok ys)
    (i : Nat) : xs[i]?.map f = ys[i]?.map .ok := by
  rw [← List.getElem?_map, ← List.getElem?_map, mapM_eq_ok.mp h]

theorem eq_nil_iff_of_mapM {f : α → Except ε β} {xs : List α} {ys : List β}
    (h : xs.mapM f = .ok ys) : ys = [] ↔ xs = [] := by
  rw [← List.length_eq_zero_iff, (of_mapM h).1, List.length_eq_zero_iff]

theorem map_eq_of_mapM {f : α → Except ε β} {g : β → α} {P : β → Prop}
    (hf : ∀ x y, f x = .ok y → g y = x ∧ P y) {xs : List α} {ys : List β}
    (h : xs.mapM f = .ok ys) : ys.map g = xs ∧ ∀ y ∈ ys, P y := by
  rw [mapM_eq_ok] at h
  induction xs generalizing ys with
  | nil =>
    obtain rfl := List.map_eq_nil_iff.mp h.symm
    simp
  | cons x xs ih =>
    cases ys with
    | nil => cases h
    | cons y ys =>
      obtain ⟨hy, hys⟩ := List.cons.inj h
      obtain ⟨hx, hp⟩ := hf x y hy
      obtain ⟨hm, hall⟩ := ih hys
      refine ⟨by rw [List.map_cons, hx, hm], ?_⟩
      rw [List.forall_mem_cons]
      exact ⟨hp, hall⟩

theorem zip_of_mapM {f : α → Except ε β} {xs : List α} {ys : List β} (h : xs.mapM f = .ok ys) :
    ∃ ps : List (α × β), ps.map Prod.fst = xs ∧ ps.map Prod.snd = ys ∧ ∀ p ∈ ps, f p.1 = .ok p.2 := by
  rw [mapM_eq_ok] at h
  induction xs generalizing ys with
  | nil =>
    obtain rfl := List.map_eq_nil_iff.mp h.symm
    exact ⟨[], rfl, rfl, by simp⟩
  | cons x xs ih =>
    cases ys with
    | nil => cases h
    | cons y ys =>
      obtain ⟨hy, hys⟩ := List.cons.inj h
      obtain ⟨ps, hfst, hsnd, hall⟩ := ih hys
      refine ⟨(x, y) :: ps, by rw [List.map_cons, hfst], by rw [List.map_cons, hsnd], ?_⟩
      rw [List.forall_mem_cons]
      exact ⟨hy, hall⟩

theorem mapM_isOk_iff {f : α → Except ε β} {xs : List α} :
    (∃ ys, xs.mapM f = .ok ys) ↔ ∀ x ∈ xs, ∃ y, f x = .ok y := by
  induction xs with
  | nil => exact iff_of_true ⟨[], rfl⟩ (List.forall_mem_nil _)
  | cons x xs ih =>
    rw [List.forall_mem_cons, ← ih]
    constructor
    · rintro ⟨ys, h⟩
      rw [List.mapM_cons] at h
      obtain ⟨y, hy, h⟩ := bind_eq_ok.mp h
      obtain ⟨rest, hrest, -⟩ := bind_eq_ok.mp h
      exact ⟨⟨y, hy⟩, rest, hrest⟩
    · rintro ⟨⟨y, hy⟩, rest, hrest⟩
      exact ⟨y :: rest, by rw [List.mapM_cons, hy, ok_bind, hrest]; rfl⟩

theorem exists_of_foldlM_error {σ : Type} {f : σ → α → Except ε σ} {s : σ} {xs : List α} {e : ε}
    (h : xs.foldlM f s = .error e) : ∃ before x after t, xs = before ++ x :: after ∧
      before.foldlM f s = .ok t ∧ f t x = .error e := by
  induction xs generalizing s with
  | nil => cases h
  | cons x xs ih =>
    rw [List.foldlM_cons] at h
    cases hx : f s x with
    | error e' =>
      rw [hx] at h
      cases h
      exact ⟨[], x, xs, s, rfl, rfl, hx⟩
    | ok t =>
      rw [hx] at h
      obtain ⟨before, y, after, u, rfl, hb, hy⟩ := ih h
      exact ⟨x :: before, y, after, u, rfl, by rw [List.foldlM_cons, hx]; exact hb, hy⟩

theorem toOption_eq_some {x : Except ε α} {a : α} : x.toOption = some a ↔ x = .ok a := by
  cases x <;> simp [Except.toOption]

instance decidableOk {x : Except ε α} {P : α → Prop} [DecidablePred P] :
    Decidable (∃ a, x = .ok a ∧ P a) :=
  match x with
  | .ok a => decidable_of_iff (P a) (by simp)
  | .error _ => isFalse (by simp)

instance decidableError {x : Except ε α} {P : ε → Prop} [DecidablePred P] :
    Decidable (∃ e, x = .error e ∧ P e) :=
  match x with
  | .ok _ => isFalse (by simp)
  | .error e => decidable_of_iff (P e) (by simp)

theorem exists_ok {x : Except ε α} {p : α → Bool} (h : x.toOption.any p = true) :
    ∃ a, x = .ok a ∧ p a = true := by
  cases x with
  | error e => cases h
  | ok a => exact ⟨a, rfl, h⟩

theorem toOption_map (f : α → β) (x : Except ε α) : (x.map f).toOption = x.toOption.map f := by
  cases x <;> rfl

section Actions

variable {σ : Type} {s : σ}

theorem run_bind (x : EStateM ε σ α) (f : α → EStateM ε σ β) :
    (x >>= f).run s = match x.run s with
      | .ok a t => (f a).run t
      | .error e t => .error e t := by
  cases h : x s <;> simp only [EStateM.run, bind, EStateM.bind, h]

theorem run_modify (f : σ → σ) : (modify f : EStateM ε σ Unit).run s = .ok () (f s) := rfl

theorem run_get : (get : EStateM ε σ σ).run s = .ok s s := rfl

theorem run_pure (a : α) : (pure a : EStateM ε σ α).run s = .ok a s := rfl

variable {x : EStateM ε σ α} {p : α → σ → Bool} {q : ε → σ → Bool}

def runsTo (x : EStateM ε σ α) (s : σ) (p : α → σ → Bool) : Bool :=
  match x.run s with
  | .ok a t => p a t
  | .error _ _ => false

def failsWith (x : EStateM ε σ α) (s : σ) (q : ε → σ → Bool) : Bool :=
  match x.run s with
  | .ok _ _ => false
  | .error e t => q e t

theorem exists_of_runsTo (h : runsTo x s p = true) : ∃ a t, x.run s = .ok a t ∧ p a t = true := by
  unfold runsTo at h
  split at h
  · next a t hr => exact ⟨a, t, hr, h⟩
  · cases h

theorem exists_of_failsWith (h : failsWith x s q = true) :
    ∃ e t, x.run s = .error e t ∧ q e t = true := by
  unfold failsWith at h
  split at h
  · cases h
  · next e t hr => exact ⟨e, t, hr, h⟩

end Actions

end NetDesc
