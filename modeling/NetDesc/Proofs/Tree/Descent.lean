import NetDesc.Proofs.Tree.Grammar
import NetDesc.Tree.Description

/-!
Reading by recursive descent: each block is read by a call of its own, and a token is looked at before
it is taken. What is read derives from the grammar, and a run over the tokens gives the same.
-/

namespace NetDesc.Descent

open Literal Reader Grammar

inductive Fault where
  | malformed (e : SyntaxError)
  | pastEnd
  | outOfCalls

def fail {α : Type} (reason : SyntaxReason) (t : Token) : Except Fault α :=
  .error (.malformed ⟨reason, t.position, t.word⟩)

def take : List Token → Except Fault (Token × List Token)
  | [] => .error .pastEnd
  | t :: ts => .ok (t, ts)

abbrev BodyReader :=
  Option (String × Position) → List Token → Except Fault (List Node × List Token)

def block (body : BodyReader) (name : String) (ts : List Token) : Except Fault (Node × List Token) := do
  let (opener, ts) ← take ts
  let (children, ts) ← body (some (name, opener.position)) ts
  .ok (.block name children, ts)

def value (body : BodyReader) (name colon : Token) (ts : List Token) :
    Except Fault (Node × List Token) :=
  match ts.head? with
  | none => .error (.malformed ⟨.missingValue name.word, colon.position, name.word⟩)
  | some next =>
    match next.kind with
    | .openBrace => block body name.word ts
    | .string => do
      let (t, ts) ← take ts
      .ok (.leaf name.word (String.ofList (unquote (t.text.drop 1).dropLast)) .string, ts)
    | .word => do
      let (t, ts) ← take ts
      .ok (.leaf name.word t.word (.classify t.word), ts)
    | _ => fail (.expectedValue name.word) next

def field (body : BodyReader) (ts : List Token) : Except Fault (Node × List Token) := do
  let (name, ts) ← take ts
  if name.kind = .word ∧ isName name.text = true then
    match ts.head? with
    | none => fail (.endAfter name.word) name
    | some next =>
      match next.kind with
      | .colon => do
        let (colon, ts) ← take ts
        value body name colon ts
      | .openBrace => block body name.word ts
      | _ => fail (.expectedColon name.word) next
  else fail .expectedName name

/-- Each field and each block inside takes one of the calls. -/
def body : Nat → BodyReader
  | 0, _, _ => .error .outOfCalls
  | calls + 1, opener, ts =>
    match ts.head? with
    | none =>
      match opener with
      | none => .ok ([], ts)
      | some (name, position) => .error (.malformed ⟨.unterminatedBlock name, position, name⟩)
    | some t =>
      if t.kind = .closeBrace then
        match opener with
        | none => fail .unbalancedBrace t
        | some _ => do
          let (_, ts) ← take ts
          .ok ([], ts)
      else do
        let (n, ts) ← field (body calls) ts
        let (ns, ts) ← body calls opener ts
        .ok (n :: ns, ts)

def read (ts : List Token) : Except Fault Node :=
  (body (ts.length + 1) none ts).map fun r => .root r.1

def parse (text : String) : Except Fault Node :=
  match Token.scan .start text.toList with
  | .error u => .error (.malformed u.error)
  | .ok ts => read ts

section Sound

variable {inner : BodyReader} {ts : List Token}

def Closes (opener : Option (String × Position)) (ts rest : List Token) : Prop :=
  match opener with
  | none => ts = [] ∧ rest = []
  | some _ => ∃ closer : Terminal .closeBrace, ts = closer.1 :: rest

def IsSound (inner : BodyReader) : Prop :=
  ∀ opener ts r, inner opener ts = .ok r →
    ∃ fs us, ts = bodyTokens fs ++ us ∧ Closes opener us r.2 ∧ r.1 = denoteBody fs

theorem of_block (hi : IsSound inner) (name : FieldName) (colon : Option (Terminal .colon))
    {t : Token} (ht : t.kind = .openBrace) {r : Node × List Token}
    (h : block inner name.1.word (t :: ts) = .ok r) :
    ∃ f, opening name colon ⟨t, ht⟩ ++ ts = tokens f ++ r.2 ∧ r.1 = denote f := by
  simp only [block, take, ok_bind] at h
  obtain ⟨s, hs, h⟩ := bind_eq_ok.mp h
  cases h
  obtain ⟨fs, us, rfl, ⟨closer, rfl⟩, hd⟩ := hi _ _ _ hs
  refine ⟨.block name colon ⟨t, ht⟩ fs closer, ?_, ?_⟩
  · simp [tokens]
  · simp [denote, hd]

theorem of_value (hi : IsSound inner) (name : FieldName) (colon : Terminal .colon)
    {r : Node × List Token} (h : value inner name.1 colon.1 ts = .ok r) :
    ∃ f, name.1 :: colon.1 :: ts = tokens f ++ r.2 ∧ r.1 = denote f := by
  cases ts with
  | nil => cases h
  | cons t ts =>
    simp only [value, List.head?_cons] at h
    cases hk : t.kind with
    | openBrace =>
      rw [hk] at h
      exact of_block hi name (some colon) hk h
    | string =>
      rw [hk] at h
      cases h
      exact ⟨.scalar name colon (.string ⟨t, hk⟩), rfl, rfl⟩
    | word =>
      rw [hk] at h
      cases h
      exact ⟨.scalar name colon (.word ⟨t, hk⟩), rfl, rfl⟩
    | closeBrace =>
      rw [hk] at h
      cases h
    | colon =>
      rw [hk] at h
      cases h

theorem of_field (hi : IsSound inner) {r : Node × List Token} (h : field inner ts = .ok r) :
    ∃ f, ts = tokens f ++ r.2 ∧ r.1 = denote f := by
  cases ts with
  | nil => cases h
  | cons name ts =>
    simp only [field, take, ok_bind] at h
    by_cases hn : name.kind = .word ∧ isName name.text = true
    · rw [if_pos hn] at h
      cases ts with
      | nil => cases h
      | cons t ts =>
        simp only [List.head?_cons] at h
        cases hk : t.kind with
        | colon =>
          rw [hk] at h
          exact of_value hi ⟨name, hn⟩ ⟨t, hk⟩ h
        | openBrace =>
          rw [hk] at h
          exact of_block hi ⟨name, hn⟩ none hk h
        | closeBrace =>
          rw [hk] at h
          cases h
        | string =>
          rw [hk] at h
          cases h
        | word =>
          rw [hk] at h
          cases h
    · rw [if_neg hn] at h
      cases h

theorem isSound_body (calls : Nat) : IsSound (body calls) := by
  induction calls with
  | zero =>
    intro opener ts r h
    cases h
  | succ calls ih =>
    intro opener ts r h
    cases ts with
    | nil =>
      cases opener with
      | none =>
        cases h
        exact ⟨[], [], rfl, ⟨rfl, rfl⟩, rfl⟩
      | some o => cases h
    | cons t ts =>
      simp only [body, List.head?_cons] at h
      by_cases hk : t.kind = .closeBrace
      · rw [if_pos hk] at h
        cases opener with
        | none => cases h
        | some o =>
          cases h
          exact ⟨[], t :: ts, rfl, ⟨⟨t, hk⟩, rfl⟩, rfl⟩
      · rw [if_neg hk] at h
        obtain ⟨⟨n, rest⟩, hf, h⟩ := bind_eq_ok.mp h
        obtain ⟨⟨ns, rest'⟩, hb, h⟩ := bind_eq_ok.mp h
        cases h
        obtain ⟨f, hts, rfl⟩ := of_field ih hf
        obtain ⟨fs, us, rfl, hc, rfl⟩ := ih _ _ _ hb
        refine ⟨f :: fs, us, ?_, hc, ?_⟩
        · rw [hts, bodyTokens, List.append_assoc]
        · rw [denoteBody]

end Sound

section Simulation

variable {inner : BodyReader} {n : Nat} {blocks : List Frame} {fields : List Node}

def lift {α : Type} (x : Except SyntaxError α) : Except Fault α :=
  x.mapError .malformed

def leave : List Frame → List Node → List Token → Except SyntaxError Node
  | [], fields, _ => .ok (.root fields.reverse)
  | b :: blocks, fields, ts => run ⟨blocks, .block b.name fields.reverse :: b.before, .field⟩ ts

def innermost (blocks : List Frame) : Option (String × Position) :=
  blocks.head?.map fun b => (b.name, b.opener)

/-- A run reads a body as the reader does, as long as fewer tokens are left than the bound. -/
def Simulates (n : Nat) (inner : BodyReader) : Prop :=
  ∀ blocks fields ts, ts.length < n →
    lift (run ⟨blocks, fields, .field⟩ ts) =
      inner (innermost blocks) ts >>= fun r => lift (leave blocks (r.1.reverse ++ fields) r.2)

theorem run_block (hi : Simulates n inner) (name : String) (t : Token) {ts : List Token}
    (hn : ts.length < n) :
    lift (run ⟨⟨name, t.position, fields⟩ :: blocks, [], .field⟩ ts) =
      block inner name (t :: ts) >>= fun r => lift (run ⟨blocks, r.1 :: fields, .field⟩ r.2) := by
  rw [hi _ _ _ hn, innermost]
  simp only [block, take, ok_bind, List.head?_cons, Option.map_some]
  cases inner (some (name, t.position)) ts with
  | error e => rfl
  | ok r => simp [leave]

theorem run_value (hi : Simulates n inner) (name colon : Token) {ts : List Token}
    (hn : ts.length ≤ n) :
    lift (run ⟨blocks, fields, .value name colon⟩ ts) =
      value inner name colon ts >>= fun r => lift (run ⟨blocks, r.1 :: fields, .field⟩ r.2) := by
  cases ts with
  | nil => rfl
  | cons t ts =>
    rw [List.length_cons] at hn
    rw [run_cons]
    simp only [value, List.head?_cons, State.step]
    cases hk : t.kind with
    | openBrace => exact run_block hi name.word t (by omega)
    | string => rfl
    | word => rfl
    | closeBrace => rfl
    | colon => rfl

theorem run_field (hi : Simulates n inner) {t : Token} {ts : List Token} (hn : ts.length ≤ n)
    (ht : t.kind ≠ .closeBrace) :
    lift (run ⟨blocks, fields, .field⟩ (t :: ts)) =
      field inner (t :: ts) >>= fun r => lift (run ⟨blocks, r.1 :: fields, .field⟩ r.2) := by
  simp only [field, take, ok_bind]
  by_cases hname : t.kind = .word ∧ isName t.text = true
  · have hrun : run ⟨blocks, fields, .field⟩ (t :: ts) = run ⟨blocks, fields, .colon t⟩ ts :=
      run_name blocks fields ts ⟨t, hname⟩
    rw [hrun, if_pos hname]
    cases ts with
    | nil => rfl
    | cons u ts =>
      rw [List.length_cons] at hn
      rw [run_cons]
      simp only [List.head?_cons, State.step, ok_bind]
      cases hk : u.kind with
      | colon => exact run_value hi t u (by omega)
      | openBrace => exact run_block hi t.word u (by omega)
      | closeBrace => rfl
      | string => rfl
      | word => rfl
  · rw [run_cons, if_neg hname]
    simp only [State.step]
    cases hk : t.kind with
    | word =>
      have hnot : ¬ isName t.text = true := fun h => hname ⟨hk, h⟩
      simp [hnot]
      rfl
    | closeBrace => exact absurd hk ht
    | openBrace => rfl
    | colon => rfl
    | string => rfl

theorem simulates_body (calls : Nat) : Simulates calls (body calls) := by
  induction calls with
  | zero =>
    intro blocks fields ts hn
    omega
  | succ calls ih =>
    intro blocks fields ts hn
    cases ts with
    | nil =>
      cases blocks with
      | nil => rfl
      | cons b blocks => rfl
    | cons t ts =>
      rw [List.length_cons] at hn
      simp only [body, List.head?_cons]
      by_cases hk : t.kind = .closeBrace
      · rw [if_pos hk, run_cons]
        cases blocks with
        | nil => simp [State.step, hk, innermost]; rfl
        | cons b blocks => simp [State.step, hk, innermost, take, leave]
      · rw [if_neg hk, run_field ih (by omega) hk]
        cases hf : field (body calls) (t :: ts) with
        | error e => rfl
        | ok r =>
          obtain ⟨n, rest⟩ := r
          -- The field took a token, so that the calls that are left are enough for the rest.
          have hrest : rest.length < calls := by
            obtain ⟨f, hts, -⟩ := of_field (isSound_body calls) hf
            obtain ⟨name, us, hname⟩ := tokens_eq_cons f
            rw [hname] at hts
            have hlen := congrArg List.length hts
            simp only [List.length_cons, List.cons_append, List.length_append] at hlen
            omega
          rw [ok_bind, ih _ _ _ hrest]
          simp only [ok_bind]
          cases body calls (innermost blocks) rest with
          | error e => rfl
          | ok s => simp

end Simulation

theorem read_eq (ts : List Token) : read ts = lift (readTokens ts) := by
  have h := simulates_body (ts.length + 1) [] [] ts (Nat.lt_succ_self _)
  change lift (readTokens ts) = _ at h
  rw [h, read, innermost]
  simp only [List.head?_nil, Option.map_none]
  cases body (ts.length + 1) none ts with
  | error e => rfl
  | ok r =>
    simp [leave, lift, Except.map]
    rfl

theorem parse_eq (text : String) : parse text = lift (Node.parse text) := by
  rw [parse, Node.parse]
  cases Token.scan .start text.toList with
  | error u => rfl
  | ok ts => exact read_eq ts

theorem exists_derivation {ts : List Token} {n : Node} (h : readTokens ts = .ok n) :
    ∃ fs, bodyTokens fs = ts ∧ n = .root (denoteBody fs) := by
  have hr : read ts = .ok n := by
    rw [read_eq, h]
    rfl
  obtain ⟨r, hb, rfl⟩ := map_eq_ok.mp hr
  obtain ⟨fs, us, hts, ⟨rfl, -⟩, hd⟩ := isSound_body _ _ _ _ hb
  rw [List.append_nil] at hts
  exact ⟨fs, hts.symm, by rw [hd]⟩

/-- A text with a derivation is read as what the derivation stands for, and it has no other one; each
other text is malformed, and so it is for the reader by descent, which runs out of neither tokens nor
calls. -/
theorem parse_iff_derivation (text : String) :
    (∀ ts fs, Token.scan .start text.toList = .ok ts → bodyTokens fs = ts →
      NetDesc.parse text = .ok (.root (denoteBody fs)) ∧ ∀ gs, bodyTokens gs = ts → gs = fs) ∧
    ((¬ ∃ ts fs, Token.scan .start text.toList = .ok ts ∧ bodyTokens fs = ts) →
      ∃ e, NetDesc.parse text = .error (.malformed e)) ∧
    parse text = lift (Node.parse text) := by
  refine ⟨?_, ?_, parse_eq text⟩
  · intro ts fs hs hfs
    constructor
    · rw [NetDesc.parse, Node.parse, hs, ← hfs]
      simp only [readTokens_bodyTokens]
      rfl
    · intro gs hgs
      exact bodyTokens_injective (hgs.trans hfs.symm)
  · intro hnone
    rw [NetDesc.parse]
    cases hp : Node.parse text with
    | error e => exact ⟨e, rfl⟩
    | ok n =>
      rw [Node.parse] at hp
      cases hs : Token.scan .start text.toList with
      | error u =>
        rw [hs] at hp
        cases hp
      | ok ts =>
        rw [hs] at hp
        obtain ⟨fs, hfs, -⟩ := exists_derivation hp
        exact absurd ⟨ts, fs, hs, hfs⟩ hnone

def nested : String :=
  "a: \x7b b: \"\\n\" \x7d c \x7b \x7d"

def unclosed : String :=
  "a: \"b"

def inLine (k : TokenKind) (text : String) (column : Nat) : Terminal k :=
  ⟨⟨k, text.toList, ⟨1, column⟩⟩, rfl⟩

def nestedBody : List Field :=
  [.block ⟨(inLine .word "a" 1).1, by decide⟩ (some (inLine .colon ":" 2)) (inLine .openBrace "\x7b" 4)
      [.scalar ⟨(inLine .word "b" 6).1, by decide⟩ (inLine .colon ":" 7)
        (.string (inLine .string "\"\\n\"" 9))]
      (inLine .closeBrace "\x7d" 14),
    .block ⟨(inLine .word "c" 16).1, by decide⟩ none (inLine .openBrace "\x7b" 18) []
      (inLine .closeBrace "\x7d" 20)]

theorem parse_iff_derivation_nested :
    (∃ ts, Token.scan .start nested.toList = .ok ts ∧ bodyTokens nestedBody = ts ∧
      NetDesc.parse nested =
        .ok (.root [.block "a" [.leaf "b" "\n" .string], .block "c" []]) ∧
      ∀ gs, bodyTokens gs = ts → gs = nestedBody) ∧
    (¬ ∃ ts fs, Token.scan .start unclosed.toList = .ok ts ∧ bodyTokens fs = ts) ∧
      ∃ e, NetDesc.parse unclosed = .error (.malformed e) := by
  have hnested : Token.scan .start nested.toList = .ok (bodyTokens nestedBody) :=
    toOption_eq_some.mp (by decide +kernel)
  have hunclosed : ¬ ∃ ts fs, Token.scan .start unclosed.toList = .ok ts ∧ bodyTokens fs = ts := by
    rintro ⟨ts, fs, hs, -⟩
    have hnone : (Token.scan .start unclosed.toList).toOption = none := by
      decide +kernel
    rw [hs] at hnone
    cases hnone
  obtain ⟨hp, hunique⟩ := (parse_iff_derivation nested).1 _ nestedBody hnested rfl
  exact ⟨⟨_, hnested, rfl, hp, hunique⟩, hunclosed, (parse_iff_derivation unclosed).2.1 hunclosed⟩

end NetDesc.Descent
