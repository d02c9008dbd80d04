import NetDesc.Proofs.Outcome
import NetDesc.Tree.Reader

/-!
The blocks that are open while a text is read are the opening braces without their closing ones. So
the braces at which reading fails are told by the tokens alone.
-/

namespace NetDesc.Reader

/-- The braces that are open after one more token; a closing one needs one to close. -/
def brace (opened : List Token) (t : Token) : Option (List Token) :=
  match t.kind, opened with
  | .openBrace, opened => some (t :: opened)
  | .closeBrace, [] => none
  | .closeBrace, _ :: outer => some outer
  | _, opened => some opened

def openBraces (ts : List Token) : Option (List Token) :=
  ts.foldlM brace []

namespace State

variable {s s' : State} {t : Token} {ts opened : List Token} {e : SyntaxError}

theorem step_cases (h : s.step t = .ok s') :
    (t.kind = .openBrace ∧ ∃ name, s' = s.openBlock name t) ∨
      (t.kind = .closeBrace ∧ ∃ b, s.blocks = b :: s'.blocks) ∨
      (t.kind ≠ .openBrace ∧ t.kind ≠ .closeBrace ∧ s'.blocks = s.blocks) := by
  unfold step at h
  split at h
  · split at h
    · next hk =>
      split at h
      · cases h
      · next b blocks hb =>
        cases h
        exact .inr (.inl ⟨hk, b, hb⟩)
    · next hk =>
      split at h
      · cases h
        exact .inr (.inr ⟨by simp [hk], by simp [hk], rfl⟩)
      · cases h
    · cases h
  · next name _ =>
    split at h
    · next hk =>
      cases h
      exact .inr (.inr ⟨by simp [hk], by simp [hk], rfl⟩)
    · next hk =>
      cases h
      exact .inl ⟨hk, name.word, rfl⟩
    · cases h
  · next name _ _ =>
    split at h
    · next hk =>
      cases h
      exact .inl ⟨hk, name.word, rfl⟩
    · next hk =>
      cases h
      exact .inr (.inr ⟨by simp [hk], by simp [hk], rfl⟩)
    · next hk =>
      cases h
      exact .inr (.inr ⟨by simp [hk], by simp [hk], rfl⟩)
    · cases h

theorem step_eq_error (h : s.step t = .error e) :
    ∃ reason, e = ⟨reason, t.position, t.word⟩ ∧ (∀ name, reason ≠ .unterminatedBlock name) ∧
      (reason = .unbalancedBrace → t.kind = .closeBrace ∧ s.blocks = []) := by
  unfold step at h
  split at h
  · split at h
    · next hk =>
      split at h
      · next hb =>
        cases h
        exact ⟨_, rfl, nofun, fun _ => ⟨hk, hb⟩⟩
      · cases h
    · split at h
      · cases h
      · cases h
        exact ⟨_, rfl, nofun, nofun⟩
    · cases h
      exact ⟨_, rfl, nofun, nofun⟩
  · split at h
    · cases h
    · cases h
    · cases h
      exact ⟨_, rfl, nofun, nofun⟩
  · split at h
    · cases h
    · cases h
    · cases h
    · cases h
      exact ⟨_, rfl, nofun, nofun⟩

theorem finish_eq_error (h : s.finish = .error e) :
    e.reason ≠ .unbalancedBrace ∧ ∀ name, e.reason = .unterminatedBlock name →
      ∃ b blocks, s.blocks = b :: blocks ∧ e.position = b.opener ∧ name = b.name := by
  unfold finish at h
  split at h
  · split at h
    · cases h
    · next b blocks hb =>
      cases h
      refine ⟨nofun, ?_⟩
      rintro name ⟨⟩
      exact ⟨b, blocks, hb, rfl, rfl⟩
  · cases h
    exact ⟨nofun, nofun⟩
  · cases h
    exact ⟨nofun, nofun⟩

def Tracks (s : State) (opened : List Token) : Prop :=
  s.blocks.map Frame.opener = opened.map Token.position

theorem Tracks.step (h : Tracks s opened) (hs : s.step t = .ok s') :
    ∃ opened', brace opened t = some opened' ∧ Tracks s' opened' := by
  rcases step_cases hs with ⟨hk, name, rfl⟩ | ⟨hk, b, hb⟩ | ⟨hopen, hclose, hb⟩
  · refine ⟨t :: opened, by simp [brace, hk], ?_⟩
    rw [Tracks, openBlock, List.map_cons, List.map_cons, h]
  · rw [Tracks, hb] at h
    cases opened with
    | nil => cases h
    | cons u outer => exact ⟨outer, by simp [brace, hk], (List.cons.inj h).2⟩
  · refine ⟨opened, ?_, by rw [Tracks, hb, h]⟩
    cases hk : t.kind with
    | openBrace => exact absurd hk hopen
    | closeBrace => exact absurd hk hclose
    | colon => simp [brace, hk]
    | string => simp [brace, hk]
    | word => simp [brace, hk]

theorem Tracks.foldlM (h : Tracks s opened) (hs : ts.foldlM State.step s = .ok s') :
    ∃ opened', ts.foldlM brace opened = some opened' ∧ Tracks s' opened' := by
  induction ts generalizing s opened with
  | nil =>
    cases hs
    exact ⟨opened, rfl, h⟩
  | cons t ts ih =>
    obtain ⟨u, hu, hr⟩ := bind_eq_ok.mp hs
    obtain ⟨next, hn, hnext⟩ := h.step hu
    obtain ⟨opened', ho, ht⟩ := ih hnext hr
    exact ⟨opened', by rw [List.foldlM_cons, hn]; exact ho, ht⟩

theorem tracks_of_foldlM (hs : ts.foldlM State.step start = .ok s) :
    ∃ opened, openBraces ts = some opened ∧ Tracks s opened :=
  Tracks.foldlM (s := start) rfl hs

end State

open State

variable {ts : List Token} {e : SyntaxError}

theorem readTokens_eq_error (h : readTokens ts = .error e) :
    (∃ before t after s, ts = before ++ t :: after ∧ before.foldlM step start = .ok s ∧
      s.step t = .error e) ∨
      ∃ s, ts.foldlM step start = .ok s ∧ s.finish = .error e := by
  rcases bind_eq_error.mp h with h | h
  · exact .inl (exists_of_foldlM_error h)
  · exact .inr h

theorem unbalanced_at (h : readTokens ts = .error e) (he : e.reason = .unbalancedBrace) :
    ∃ before t after, ts = before ++ t :: after ∧ openBraces before = some [] ∧
      t.kind = .closeBrace ∧ e.position = t.position := by
  rcases readTokens_eq_error h with ⟨before, t, after, s, rfl, hs, hstep⟩ | ⟨s, -, hfinish⟩
  · obtain ⟨opened, ho, htracks⟩ := tracks_of_foldlM hs
    obtain ⟨reason, rfl, -, hreason⟩ := step_eq_error hstep
    obtain ⟨hk, hb⟩ := hreason he
    rw [Tracks, hb] at htracks
    obtain rfl := List.map_eq_nil_iff.mp htracks.symm
    exact ⟨before, t, after, rfl, ho, hk, rfl⟩
  · exact absurd he (finish_eq_error hfinish).1

theorem unterminated_at {name : String} (h : readTokens ts = .error e)
    (he : e.reason = .unterminatedBlock name) :
    ∃ opener outer, openBraces ts = some (opener :: outer) ∧ e.position = opener.position := by
  rcases readTokens_eq_error h with ⟨before, t, after, s, -, -, hstep⟩ | ⟨s, hs, hfinish⟩
  · obtain ⟨reason, rfl, hreason, -⟩ := step_eq_error hstep
    exact absurd he (hreason name)
  · obtain ⟨opened, ho, htracks⟩ := tracks_of_foldlM hs
    obtain ⟨b, blocks, hb, hp, -⟩ := (finish_eq_error hfinish).2 name he
    rw [Tracks, hb] at htracks
    cases opened with
    | nil => cases htracks
    | cons opener outer => exact ⟨opener, outer, ho, hp.trans (List.cons.inj htracks).1⟩

end NetDesc.Reader
