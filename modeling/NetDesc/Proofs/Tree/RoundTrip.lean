import NetDesc.Proofs.Tree.Image
import NetDesc.Proofs.Tree.Written
import NetDesc.Tree.Description

namespace NetDesc

theorem toList_append_of {s t : String} {cs ds : List Char} (hs : s.toList = cs)
    (ht : t.toList = ds) : (s ++ t).toList = cs ++ ds := by
  rw [String.toList_append, hs, ht]

-- The kernel takes a long text apart slowly, so it is handed the characters.
theorem exists_parse {text : String} {cs : List Char} {p : Node → Bool} (ht : text.toList = cs)
    (h : ((Token.scan .start cs).toOption.any fun ts =>
      (Reader.readTokens ts).toOption.any p) = true) :
    ∃ n, NetDesc.parse text = .ok n ∧ p n = true := by
  obtain ⟨ts, hs, hn⟩ := exists_ok h
  obtain ⟨n, hn, hp⟩ := exists_ok hn
  refine ⟨n, ?_, hp⟩
  rw [NetDesc.parse, Node.parse, ht, hs]
  exact congrArg (Except.mapError _) hn

namespace Node

theorem serialize_root (cs : List Node) :
    serialize (.root cs) = (linesList 0 cs).map ofLines := by
  rw [serialize, if_pos ⟨rfl, rfl⟩]
  rfl

theorem parse_serialize {n : Node} (h : IsDescription n) :
    ∃ text, serialize n = .ok text ∧ Node.parse text = .ok n := by
  obtain ⟨cs, rfl, hc⟩ := h
  obtain ⟨ls, hl, hp⟩ := parse_ofLines fun c hm => (hc c hm).isWritable
  refine ⟨ofLines ls, by rw [serialize_root, hl]; rfl, ?_⟩
  rw [hp, List.map_congr_left fun c hm => (hc c hm).reread_eq, List.map_id']

theorem serialize_of_ne_root {n : Node} (hn : n.name ≠ rootName) :
    serialize n = (linesList 0 [n]).map ofLines := by
  rw [serialize, if_neg fun h => hn h.1, linesList, linesList]
  cases lines 0 n with
  | error e => rfl
  | ok ls =>
    change Except.ok (ofLines ls) = .ok (ofLines (ls ++ []))
    rw [List.append_nil]

theorem IsWritable.parse_serialize {n : Node} (h : IsWritable n) (hn : n.name ≠ rootName) :
    ∃ text, NetDesc.serialize n = .ok text ∧ NetDesc.parse text = .ok (.root [n.reread]) := by
  have hw : ∀ c ∈ [n], IsWritable c := by
    intro c hc
    rwa [List.mem_singleton.mp hc]
  obtain ⟨ls, hl, hp⟩ := parse_ofLines hw
  refine ⟨ofLines ls, ?_, ?_⟩
  · rw [NetDesc.serialize, serialize_of_ne_root hn, hl]
    rfl
  · rw [NetDesc.parse, hp]
    rfl

theorem isDescription_of_text {text : String} {n : Node} (h : NetDesc.parse text = .ok n) :
    IsDescription n := by
  rw [NetDesc.parse] at h
  cases hp : Node.parse text with
  | error e =>
    rw [hp] at h
    cases h
  | ok m =>
    rw [hp] at h
    cases h
    exact isDescription_of_parse hp

theorem IsDescription.parse_serialize {n : Node} (h : IsDescription n) :
    ∃ text, NetDesc.serialize n = .ok text ∧ NetDesc.parse text = .ok n := by
  obtain ⟨text, hs, hp⟩ := Node.parse_serialize h
  refine ⟨text, ?_, ?_⟩
  · rw [NetDesc.serialize, hs]
    rfl
  · rw [NetDesc.parse, hp]
    rfl

/-- A text that is read holds a description; of the trees whose top is a block named `root` the
descriptions are read back from their own text, and no others; so the text of a description is
written again when it is read. -/
theorem roundTrip_iff_isDescription :
    (∀ text n, Node.parse text = .ok n → IsDescription n) ∧
      (∀ n : Node, n.name = rootName → n.value = none →
        ((∃ text, serialize n = .ok text ∧ Node.parse text = .ok n) ↔ IsDescription n)) ∧
      (∀ n, IsDescription n → ∃ text m, serialize n = .ok text ∧ Node.parse text = .ok m ∧
        serialize m = .ok text) := by
  refine ⟨fun text n h => isDescription_of_parse h, fun n _ _ => ⟨?_, parse_serialize⟩,
    fun n h => ?_⟩
  · rintro ⟨text, -, hp⟩
    exact isDescription_of_parse hp
  · obtain ⟨text, hs, hp⟩ := parse_serialize h
    exact ⟨text, n, hs, hp, hs⟩

theorem roundTrip_escapes :
    ∃ text, serialize (.root [.block "layer" [.leaf "name" "a\\\"\n" .string,
        .leaf "loss_weight" "1e3" .numeric, .block "include" []]]) = .ok text ∧
      Node.parse text = .ok (.root [.block "layer" [.leaf "name" "a\\\"\n" .string,
        .leaf "loss_weight" "1e3" .numeric, .block "include" []]]) := by
  refine (roundTrip_iff_isDescription.2.1 _ rfl rfl).mpr ⟨_, rfl, ?_⟩
  simp only [List.mem_singleton, forall_eq]
  refine .block (by decide) ?_
  simp only [List.forall_mem_cons, List.not_mem_nil, false_implies, implies_true, and_true]
  exact ⟨.string _ (by decide), .word (by decide) (by decide), .block (by decide) (by simp)⟩

end Node

end NetDesc
