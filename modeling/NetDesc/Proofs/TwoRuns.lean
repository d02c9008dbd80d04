import Mathlib.Data.List.Forall2
import NetDesc.Proofs.Outcome
import NetDesc.Tree.Edit

namespace NetDesc

variable {ε α β γ δ : Type}

inductive SameFate (R : α → β → Prop) : Except ε α → Except ε β → Prop
  | ok {a : α} {b : β} (h : R a b) : SameFate R (.ok a) (.ok b)
  | error (e : ε) : SameFate R (.error e) (.error e)

namespace SameFate

variable {R : α → β → Prop} {S : γ → δ → Prop}

theorem of_ok {x : Except ε α} {y : Except ε β} {a : α} (h : SameFate R x y) (hx : x = .ok a) :
    ∃ b, y = .ok b ∧ R a b := by
  cases h with
  | error e => cases hx
  | ok hab =>
    cases hx
    exact ⟨_, rfl, hab⟩

theorem bind {x : Except ε α} {y : Except ε β} {f : α → Except ε γ} {g : β → Except ε δ}
    (h : SameFate R x y) (hfg : ∀ a b, R a b → SameFate S (f a) (g b)) :
    SameFate S (x >>= f) (y >>= g) := by
  cases h with
  | error e => exact .error e
  | ok hab => exact hfg _ _ hab

theorem bind_self {x : Except ε α} {f : α → Except ε γ} {g : α → Except ε δ}
    (hfg : ∀ a, x = .ok a → SameFate S (f a) (g a)) : SameFate S (x >>= f) (x >>= g) := by
  cases x with
  | error e => exact .error e
  | ok a => exact hfg a rfl

theorem mapM {f : α → Except ε γ} {g : α → Except ε δ} {xs : List α}
    (h : ∀ x ∈ xs, SameFate S (f x) (g x)) :
    SameFate (fun as bs => as.length = xs.length ∧ List.Forall₂ S as bs) (xs.mapM f) (xs.mapM g) := by
  induction xs with
  | nil => exact .ok ⟨rfl, .nil⟩
  | cons x xs ih =>
    rw [List.mapM_cons, List.mapM_cons]
    apply bind (h x (List.mem_cons_self ..))
    intro a b hab
    apply bind (ih fun y hy => h y (List.mem_cons_of_mem x hy))
    rintro as bs ⟨hlength, hs⟩
    exact .ok ⟨by rw [List.length_cons, List.length_cons, hlength], .cons hab hs⟩

end SameFate

section Lists

variable {R : α → β → Prop} {p : α → Bool} {q : β → Bool} {f : α → α} {g : β → β}
  {xs : List α} {ys : List β}

theorem forall₂_modifyFirst (h : List.Forall₂ R xs ys) (hp : ∀ x y, R x y → p x = q y)
    (hf : ∀ x y, R x y → R (f x) (g y)) :
    List.Forall₂ R (modifyFirst p f xs) (modifyFirst q g ys) := by
  induction h with
  | nil => exact .nil
  | @cons x y xs ys hxy hs ih =>
    rw [modifyFirst, modifyFirst, hp x y hxy]
    split
    · exact .cons (hf x y hxy) hs
    · exact .cons hxy ih

theorem forall₂_any (h : List.Forall₂ R xs ys) (hp : ∀ x y, R x y → p x = q y) :
    (xs.any p) = ys.any q := by
  induction h with
  | nil => rfl
  | @cons x y xs ys hxy hs ih => rw [List.any_cons, List.any_cons, hp x y hxy, ih]

theorem forall₂_findSome? {r : α → Option γ} {s : β → Option γ} (h : List.Forall₂ R xs ys)
    (hr : ∀ x y, R x y → r x = s y) : xs.findSome? r = ys.findSome? s := by
  induction h with
  | nil => rfl
  | @cons x y xs ys hxy hs ih => rw [List.findSome?_cons, List.findSome?_cons, hr x y hxy, ih]

end Lists

end NetDesc
