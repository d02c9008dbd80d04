import NetDesc.Proofs.Layer.Stream
import NetDesc.Proofs.Stream.Truncation

namespace NetDesc.Layer

open Reader Writer

theorem steady_readTag {α : Type} (table : List α) (what : String) : (readTag table what).Steady := by
  refine steady_int.bind fun tag => ?_
  split
  · exact steady_pure _
  · exact steady_throw _

theorem steady_readPhase : readPhase.Steady := by
  refine steady_text?.bind fun text => ?_
  cases text with
  | none => exact steady_pure none
  | some text => exact steady_result _

theorem steady_readLimit : readLimit.Steady :=
  (steady_readTag _ _).bind fun p => steady_int.map fun n => (p, n)

theorem steady_readParam (kind : LayerKind) : (readParam kind).Steady := by
  refine (steady_readTag _ _).bind fun s => ?_
  split
  · exact (steady_throw _).bind fun _ => (steady_record _).map fun r => (s, r)
  · exact (steady_record _).map fun r => (s, r)

theorem steady_read : read.Steady := by
  refine (steady_readTag _ _).bind fun kind => ?_
  refine steady_text.bind fun name => ?_
  refine steady_text.list.bind fun bottom => ?_
  refine steady_text.list.bind fun top => ?_
  refine steady_readPhase.bind fun phase => ?_
  refine steady_double.list.bind fun lossWeight => ?_
  refine (steady_record _).list.bind fun parameters => ?_
  refine (steady_record _).list.bind fun blobs => ?_
  refine steady_bool.list.bind fun propagateDown => ?_
  refine (steady_record _).list.bind fun includeRules => ?_
  refine (steady_record _).list.bind fun excludeRules => ?_
  refine steady_readLimit.list.bind fun limits => ?_
  exact (steady_readParam kind).list.bind fun params => steady_pure _

theorem spans_param (kind : LayerKind) (p : Slot × Record) :
    Spans (writeParam p) (readParam kind) := by
  refine (mirrors_slot p.1 _).spans_bind ?_
  split
  · intro _ rest x left hr
    cases hr
  · exact (spans_record _ p.2).map fun r => (p.1, r)

theorem spans_write (l : Layer) : Spans l.write read := by
  refine (mirrors_kind l.kind _).spans_bind ?_
  refine (mirrors_text l.name).spans_bind ?_
  refine (mirrors_texts l.bottom).spans_bind ?_
  refine (mirrors_texts l.top).spans_bind ?_
  refine (mirrors_phase l.phase).spans_bind ?_
  refine (mirrors_doubles l.lossWeight).spans_bind ?_
  refine (spans_records _ l.parameters).bind fun parameters => ?_
  refine (spans_records _ l.blobs).bind fun blobs => ?_
  refine (mirrors_bools l.propagateDown).spans_bind ?_
  refine (spans_records _ l.includeRules).bind fun includeRules => ?_
  refine (spans_records _ l.excludeRules).bind fun excludeRules => ?_
  refine (mirrors_limits l.maxBottomCount).spans_bind ?_
  exact (spans_list fun p _ => spans_param l.kind p).map _

theorem run_read_toBytes {l m : Layer} {bs : Bytes} (hw : l.toBytes = .ok bs)
    (hr : ofBytes bs = .ok m) : Reader.run read bs = (.ok m, []) := by
  obtain ⟨u, he, rfl⟩ := map_eq_ok.mp hw
  -- What is read need not be what was written, but it takes all of the bytes.
  have hleft := spans_write l he [] m (Reader.run read l.write.bytes).2
  rw [List.append_nil] at hleft
  have hread : Reader.run read l.write.bytes = (.ok m, (Reader.run read l.write.bytes).2) :=
    Prod.ext hr rfl
  rw [hleft hread] at hread
  exact hread

theorem ofBytes_truncated {l m : Layer} {bs first : Bytes} (hw : l.toBytes = .ok bs)
    (hr : ofBytes bs = .ok m) (hp : first <+: bs) (hne : first ≠ bs) :
    ∃ wanted got, got < wanted ∧ ofBytes first = .error (.undecodable (.truncated wanted got)) :=
  steady_read.isCut (run_read_toBytes hw hr) hp hne

theorem ofBytes_truncated_filler :
    ∃ bs first, gaussianConvolution.toBytes = .ok bs ∧
      first ++ Bytes.ofText "ssian\",\"std\":0.01\x7d\x7d" = bs ∧
      ∃ wanted got, got < wanted ∧
        ofBytes first = .error (.undecodable (.truncated wanted got)) := by
  have hok : (gaussianConvolution.toBytes.toOption.any fun bs =>
      bs.take 314 ++ Bytes.ofText "ssian\",\"std\":0.01\x7d\x7d" == bs) = true := by
    decide +kernel
  obtain ⟨bs, hw, hbs⟩ := exists_ok hok
  have hcut := beq_iff_eq.mp hbs
  have hr := ofBytes_toBytes
    (fits_gaussianConvolution.mono fun _ => Json.isNumeric_of_isWritten) hw
  have hne : bs.take 314 ≠ bs := by
    intro h
    rw [h, List.append_right_eq_self] at hcut
    exact absurd hcut (by decide)
  exact ⟨bs, _, hw, hcut, ofBytes_truncated hw hr (List.take_prefix 314 bs) hne⟩

end NetDesc.Layer
