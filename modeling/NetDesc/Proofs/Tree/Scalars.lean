import NetDesc.Proofs.Outcome
import NetDesc.Tree.Description

namespace NetDesc.Node

variable {α : Type} {what name : String} {read : String → Option α} {n : Node} {xs : List α}

theorem readScalars_eq_ok :
    n.readScalars what read name = .ok xs ↔ (n.findValues name).map read = xs.map some := by
  rw [readScalars, mapM_eq_ok]
  generalize n.findValues name = texts
  induction texts generalizing xs with
  | nil => cases xs <;> simp
  | cons text texts ih =>
    cases xs with
    | nil => simp
    | cons x xs =>
      rw [List.map_cons, List.map_cons, List.map_cons, List.map_cons, List.cons.injEq,
        List.cons.injEq, ih]
      cases read text <;> simp

theorem readScalars_isOk_iff :
    (∃ xs, n.readScalars what read name = .ok xs) ↔
      ∀ text ∈ n.findValues name, ∃ x, read text = some x := by
  rw [readScalars, mapM_isOk_iff]
  refine forall₂_congr fun text _ => ?_
  cases read text <;> simp

theorem text_of_readScalars (h : n.readScalars what read name = .ok xs) :
    ∀ x ∈ xs, ∃ text ∈ n.findValues name, read text = some x := by
  intro x hx
  have hmem : some x ∈ (n.findValues name).map read :=
    readScalars_eq_ok.mp h ▸ List.mem_map_of_mem hx
  exact List.mem_map.mp hmem

theorem head?_readScalars (h : n.readScalars what read name = .ok xs) :
    (n.findValues name).head?.bind read = xs.head? := by
  have hread := readScalars_eq_ok.mp h
  cases hv : n.findValues name with
  | nil =>
    rw [hv] at hread
    rw [List.map_eq_nil_iff.mp hread.symm]
    rfl
  | cons text texts =>
    rw [hv] at hread
    obtain ⟨x, rest, rfl, hx, -⟩ := List.map_eq_cons_iff.mp hread.symm
    exact hx.symm

theorem readScalars_cons {x : α} (h : n.readScalars what read name = .ok (x :: xs)) :
    ∃ text rest, n.findValues name = text :: rest ∧ read text = some x := by
  obtain ⟨text, rest, hvalues, htext, -⟩ := List.map_eq_cons_iff.mp (readScalars_eq_ok.mp h)
  exact ⟨text, rest, hvalues, htext⟩

end NetDesc.Node
