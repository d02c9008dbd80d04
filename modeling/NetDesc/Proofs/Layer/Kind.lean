import NetDesc.Layer.Tree
import NetDesc.Proofs.Record.Fits

namespace NetDesc

theorem LayerKind.mem_every (k : LayerKind) : k ∈ LayerKind.every := by
  cases k <;> decide

theorem LayerKind.nodup_lowerNames :
    (every.map fun k => Text.lowerAfter [] k.name.toList).Nodup := by
  decide +kernel

theorem LayerKind.trim_name :
    ∀ k ∈ every, Text.trim Text.isBlank k.name.toList = k.name.toList := by
  decide +kernel

theorem LayerKind.parse?_name (k : LayerKind) : parse? k.name = some k := by
  have hsame (j : LayerKind) : (Text.lower j.name == Text.lower k.name) =
      (Text.lowerAfter [] j.name.toList == Text.lowerAfter [] k.name.toList) := by
    rw [Bool.eq_iff_iff, beq_iff_eq, beq_iff_eq, Text.lower, Text.lower, String.ofList_inj]
  have hfind := find?_of_nodup nodup_lowerNames k.mem_every
  rw [parse?, trim_name k k.mem_every, String.ofList_toList]
  simp only [hsame, hfind]

theorem LayerKind.parse_name (k : LayerKind) : parse k.name = .ok k := by
  rw [parse, k.parse?_name]

theorem LayerKind.ofNode_of_findValue {n : Node} {k : LayerKind}
    (h : n.findValue "type" = some k.name) : LayerKind.ofNode n = .ok k := by
  rw [LayerKind.ofNode, h]
  exact k.parse_name

theorem Phase.parse?_name (p : Phase) : Phase.parse? p.name = some p := by
  cases p <;> rfl

theorem parsePhase_name (p : Phase) : parsePhase p.name = .ok p := by
  rw [parsePhase, Phase.parse?_name]

theorem LayerKind.isData_iff {k : LayerKind} :
    k.isData = true ↔ k = .data ∨ k = .batchData ∨ k = .tripletData := by
  cases k <;> simp [isData]

end NetDesc
