import NetDesc.Proofs.Tree.Descent
import NetDesc.Proofs.Tree.Positions
import NetDesc.Proofs.Tree.RoundTrip

/-!
Texts one below the other. A text that is read leaves no block, string or comment open, so what
follows on the next line is read as it would be alone, only further down.
-/

namespace NetDesc

open Text Literal

section Down

variable (n : Nat)

namespace Position

def down (p : Position) : Position :=
  ⟨p.line + n, p.column⟩

theorem next_down (p : Position) (c : Char) : (p.down n).next c = (p.next c).down n := by
  by_cases hc : c = '\n'
  · simp [next, down, hc]
    omega
  · simp [next, down, hc]

theorem after_down (p : Position) (cs : List Char) : (p.down n).after cs = (p.after cs).down n := by
  induction cs generalizing p with
  | nil => rfl
  | cons c cs ih =>
    change ((p.down n).next c).after cs = ((p.next c).after cs).down n
    rw [next_down, ih]

theorem after_append (p : Position) (cs ds : List Char) :
    p.after (cs ++ ds) = (p.after cs).after ds :=
  List.foldl_append

theorem next_after_start (cs : List Char) :
    (start.after cs).next '\n' = start.down (1 + cs.count '\n') := by
  rw [← reached_nil, after_reached, List.nil_append]
  simp [next, reached, down]
  omega

end Position

namespace Token

def down (t : Token) : Token :=
  ⟨t.kind, t.text, t.position.down n⟩

def Unclosed.down (u : Unclosed) : Unclosed :=
  ⟨u.position.down n, u.rest⟩

theorem scan_down (p : Position) (cs : List Char) :
    scan (p.down n) cs = ((scan p cs).map (List.map (Token.down n))).mapError (Unclosed.down n) := by
  induction cs using scan_induction generalizing p with
  | nil =>
    rw [scan_nil, scan_nil]
    rfl
  | unclosed c cs hl =>
    rw [scan_unclosed hl, scan_unclosed hl]
    rfl
  | lexeme c cs l hl ih =>
    rw [scan_lexeme hl, scan_lexeme hl, Position.after_down, ih]
    cases scan (p.after l.text) l.rest with
    | error u => rfl
    | ok ts => cases l.kind <;> rfl

end Token

def SyntaxError.down (e : SyntaxError) : SyntaxError :=
  ⟨e.reason, e.position.down n, e.snippet⟩

namespace Reader

def Frame.down (b : Frame) : Frame :=
  ⟨b.name, b.opener.down n, b.before⟩

def Expecting.down : Expecting → Expecting
  | .field => .field
  | .colon name => .colon (name.down n)
  | .value name mark => .value (name.down n) (mark.down n)

def State.down (s : State) : State :=
  ⟨s.blocks.map (Frame.down n), s.fields, s.expecting.down n⟩

theorem State.step_down (s : State) (t : Token) :
    (s.down n).step (t.down n) = ((s.step t).map (State.down n)).mapError (SyntaxError.down n) := by
  obtain ⟨blocks, fields, expecting⟩ := s
  obtain ⟨kind, text, position⟩ := t
  cases expecting with
  | field =>
    cases kind with
    | closeBrace => cases blocks <;> rfl
    | word =>
      by_cases hname : isName text = true
      · simp only [State.step, if_pos hname]
        exact if_pos hname
      · simp only [State.step, if_neg hname]
        exact if_neg hname
    | openBrace => rfl
    | colon => rfl
    | string => rfl
  | colon name => cases kind <;> rfl
  | value name colon => cases kind <;> rfl

theorem State.finish_down (s : State) :
    (s.down n).finish = s.finish.mapError (SyntaxError.down n) := by
  obtain ⟨blocks, fields, expecting⟩ := s
  cases expecting with
  | field => cases blocks <;> rfl
  | colon name => rfl
  | value name colon => rfl

theorem run_down (s : State) (ts : List Token) :
    Grammar.run (s.down n) (ts.map (Token.down n)) =
      (Grammar.run s ts).mapError (SyntaxError.down n) := by
  induction ts generalizing s with
  | nil => exact State.finish_down n s
  | cons t ts ih =>
    rw [List.map_cons, Grammar.run_cons, Grammar.run_cons, State.step_down]
    cases s.step t with
    | error e => rfl
    | ok u => exact ih u

theorem readTokens_down (ts : List Token) :
    readTokens (ts.map (Token.down n)) = (readTokens ts).mapError (SyntaxError.down n) :=
  run_down n start ts

end Reader

end Down

namespace Token

variable {p : Position} {c : Char} {cs : List Char} {l : Lexeme} {ts : List Token}

theorem lexeme_append_line (hc : isBlank c = false) (h : lexeme c cs = some l) (ds : List Char) :
    lexeme c (cs ++ '\n' :: ds) = some ⟨l.kind, l.text, l.rest ++ '\n' :: ds⟩ := by
  have hline : breaksWord '\n' = true := by decide
  have hcomment := takeWhile_append_cons (p := (· != '\n')) (y := '\n') (by simp) cs ds
  have hword := takeWhile_append_cons (p := fun d => !breaksWord d) (y := '\n') (by simp [hline]) cs ds
  unfold lexeme at h ⊢
  rw [if_neg (by simp [hc])] at h ⊢
  split_ifs at h ⊢ with hhash hopen hclose hcolon hquote
  · cases h
    rw [hcomment.1, hcomment.2]
  · cases h
    rfl
  · cases h
    rfl
  · cases h
    rfl
  · obtain ⟨r, hr, rfl⟩ := Option.map_eq_some_iff.mp h
    rw [← stringTail_append hr, List.append_assoc,
      stringTail_of_closes hquote (closes_of_stringTail hr)]
    rfl
  · cases h
    rw [hword.1, hword.2]

theorem scan_append_line (h : scan p cs = .ok ts) (ds : List Char) :
    scan p (cs ++ '\n' :: ds) = (scan ((p.after cs).next '\n') ds).map (ts ++ ·) := by
  induction cs using scan_induction generalizing p ts with
  | nil =>
    rw [scan_nil] at h
    cases h
    rw [List.nil_append, scan_blank (by decide)]
    exact (congrFun Except.map_id _).symm
  | unclosed c cs hl =>
    rw [scan_unclosed hl] at h
    cases h
  | lexeme c cs l hl ih =>
    have htext := lexeme_append hl
    by_cases hc : isBlank c = true
    · have hblank : l.kind = none ∧ ∀ d ∈ l.text, isBlank d = true := by
        rw [lexeme, if_pos hc] at hl
        cases hl
        refine ⟨rfl, ?_⟩
        rw [List.forall_mem_cons]
        exact ⟨hc, fun d hd => List.mem_takeWhile_imp hd⟩
      -- The line end joins the blanks before it, so they are read one by one.
      rw [← htext, scan_blanks hblank.2] at h
      rw [← htext, List.append_assoc, scan_blanks hblank.2, ih h, Position.after_append]
    · rw [scan_lexeme hl] at h
      obtain ⟨us, hs, rfl⟩ := map_eq_ok.mp h
      rw [List.cons_append, scan_lexeme (lexeme_append_line (by simpa using hc) hl ds), ih hs,
        ← htext, Position.after_append]
      cases scan (((p.after l.text).after l.rest).next '\n') ds with
      | error u => rfl
      | ok vs => exact congrArg Except.ok (List.append_assoc ..).symm

end Token

namespace Reader

open Descent Grammar

theorem lift_injective {x y : Except SyntaxError Node} (h : lift x = lift y) : x = y := by
  cases x with
  | error e =>
    cases y with
    | error e' =>
      cases h
      rfl
    | ok n => cases h
  | ok n =>
    cases y with
    | error e => cases h
    | ok n' =>
      cases h
      rfl

theorem lift_map (f : Node → Node) (x : Except SyntaxError Node) :
    lift (x.map f) = (lift x).map f := by
  cases x <;> rfl

theorem run_fields (fields : List Node) (ts : List Token) :
    Grammar.run ⟨[], fields, .field⟩ ts =
      (readTokens ts).map fun n => .root (fields.reverse ++ n.children) := by
  have hbody := fun fields =>
    simulates_body (ts.length + 1) [] fields ts (Nat.lt_succ_self _)
  have hread : readTokens ts = Grammar.run ⟨[], [], .field⟩ ts := rfl
  apply lift_injective
  rw [lift_map, hread, hbody, hbody]
  cases body (ts.length + 1) (innermost []) ts with
  | error e => rfl
  | ok r => simp [leave, lift, Except.map, Except.mapError, Node.root, Node.block]

theorem readTokens_append {ts us : List Token} {n : Node} (h : readTokens ts = .ok n) :
    readTokens (ts ++ us) = (readTokens us).map fun m => .root (n.children ++ m.children) := by
  obtain ⟨fs, rfl, rfl⟩ := exists_derivation h
  change Grammar.run ⟨[], [], .field⟩ (bodyTokens fs ++ us) = _
  rw [run_bodyTokens, run_fields, List.append_nil, List.reverse_reverse]
  rfl

end Reader

namespace Node

theorem parse_append {t₁ t₂ : String} {n₁ : Node} (h : Node.parse t₁ = .ok n₁) :
    Node.parse (t₁ ++ "\n" ++ t₂) =
      ((Node.parse t₂).map fun n₂ => .root (n₁.children ++ n₂.children)).mapError
        (SyntaxError.down (1 + t₁.toList.count '\n')) := by
  rw [Node.parse] at h
  cases hs : Token.scan .start t₁.toList with
  | error u =>
    rw [hs] at h
    cases h
  | ok ts =>
    rw [hs] at h
    have htext : (t₁ ++ "\n" ++ t₂).toList = t₁.toList ++ '\n' :: t₂.toList := by simp
    rw [Node.parse, Node.parse, htext, Token.scan_append_line hs, Position.next_after_start,
      Token.scan_down]
    cases Token.scan .start t₂.toList with
    | error u => rfl
    | ok us =>
      change Reader.readTokens (ts ++ us.map _) = ((Reader.readTokens us).map _).mapError _
      rw [Reader.readTokens_append h, Reader.readTokens_down]
      cases Reader.readTokens us <;> rfl

theorem linesList_append (depth : Nat) (cs ds : List Node) :
    linesList depth (cs ++ ds) = do
      let ls ← linesList depth cs
      let ms ← linesList depth ds
      return ls ++ ms := by
  induction cs with
  | nil =>
    rw [List.nil_append, linesList, ok_bind]
    cases linesList depth ds <;> rfl
  | cons c cs ih =>
    rw [List.cons_append, linesList, linesList, ih]
    cases lines depth c with
    | error e => rfl
    | ok first =>
      cases linesList depth cs with
      | error e => rfl
      | ok ls =>
        cases linesList depth ds with
        | error e => rfl
        | ok ms => exact congrArg Except.ok (List.append_assoc ..).symm

theorem ofLines_append (ls ms : List String) : ofLines (ls ++ ms) = ofLines ls ++ ofLines ms := by
  rw [← String.toList_inj, toList_ofLines_append, String.toList_append]

theorem serialize_append (c₁ c₂ : List Node) :
    serialize (.root (c₁ ++ c₂)) = do
      let t₁ ← serialize (.root c₁)
      let t₂ ← serialize (.root c₂)
      return t₁ ++ t₂ := by
  rw [serialize_root, serialize_root, serialize_root, linesList_append]
  cases linesList 0 c₁ with
  | error e => rfl
  | ok ls =>
    cases linesList 0 c₂ with
    | error e => rfl
    | ok ms => exact congrArg Except.ok (ofLines_append ls ms)

/-- A text that is read and a text below it are read one after the other: what the second one holds
follows what the first one holds, and if it is malformed it is so for the same reason, at the same
column and as many lines further down as stand above it. A tree of nodes is written one node after the
other. -/
theorem parse_lines (t₁ t₂ : String) (c₁ c₂ : List Node) :
    (∀ n₁, Node.parse t₁ = .ok n₁ →
      (∀ n₂, Node.parse t₂ = .ok n₂ →
        Node.parse (t₁ ++ "\n" ++ t₂) = .ok (.root (n₁.children ++ n₂.children))) ∧
      ∀ e, Node.parse t₂ = .error e →
        Node.parse (t₁ ++ "\n" ++ t₂) = .error ⟨e.reason,
          ⟨e.position.line + (1 + t₁.toList.count '\n'), e.position.column⟩, e.snippet⟩) ∧
    serialize (.root (c₁ ++ c₂)) = do
      let s₁ ← serialize (.root c₁)
      let s₂ ← serialize (.root c₂)
      return s₁ ++ s₂ := by
  refine ⟨?_, serialize_append c₁ c₂⟩
  intro n₁ h₁
  constructor
  · intro n₂ h₂
    rw [parse_append h₁, h₂]
    rfl
  · intro e h₂
    rw [parse_append h₁, h₂]
    rfl

def endsInComment : String :=
  "name: \"a\"\n# \x7b"

theorem parse_lines_endsInComment :
    Node.parse (endsInComment ++ "\n" ++ "layer \x7b \x7d") =
        .ok (.root [.leaf "name" "a" .string, .block "layer" []]) ∧
      Node.parse (endsInComment ++ "\n" ++ "b: \x7b\n \x7d \x7d") =
        .error ⟨.unbalancedBrace, ⟨4, 4⟩, "\x7d"⟩ := by
  have hfirst : Node.parse endsInComment = .ok (.root [.leaf "name" "a" .string]) := by
    decide +kernel
  have hblock : Node.parse "layer \x7b \x7d" = .ok (.root [.block "layer" []]) := by
    decide +kernel
  have hbrace : Node.parse "b: \x7b\n \x7d \x7d" = .error ⟨.unbalancedBrace, ⟨2, 4⟩, "\x7d"⟩ := by
    decide +kernel
  have hlines : endsInComment.toList.count '\n' = 1 := by decide +kernel
  obtain ⟨hread, -⟩ := (parse_lines endsInComment "layer \x7b \x7d" [] []).1 _ hfirst
  obtain ⟨-, herror⟩ := (parse_lines endsInComment "b: \x7b\n \x7d \x7d" [] []).1 _ hfirst
  refine ⟨hread _ hblock, (herror _ hbrace).trans ?_⟩
  rw [hlines]

end Node

end NetDesc
