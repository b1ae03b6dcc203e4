import Unwind.Proofs.ClauseOrder

/-!
# What the mode of a body changes

Lowering is told what `rethrow` means in a body, and this shows in two things only: in what a
`rethrow` becomes and in the mark of a nested block. All modes make the same code with these two
left open (`OpenCode`, `tokens_eq_emit`), and a `rethrow` in it is the only thing that can be
refused. So a block that has been read and checked is refused because of its body or not at all,
since its clauses own what they handle.
-/

namespace Unwind

open Token

/-- Lowered code in which two things are left open: the method by which a `rethrow` sends on what is
handled, and the mark of a nested block. -/
inductive OpenCode where
  | token (t : Token)
  | group (d : Delimiter) (inner : List OpenCode)
  /-- A return that sends on what is handled. -/
  | rethrow
  /-- The expansion of a nested block with these tokens. -/
  | nested (inner : List Token)

namespace OpenCode

mutual

/-- The code with a method and a mark filled in. -/
def fill (handling method marker : String) : OpenCode → List Token
  | .token t => [t]
  | .group d inner => [.group d (fillAll handling method marker inner)]
  | .rethrow => Lowering.failingReturn handling method
  | .nested inner => path ["raise_this", "raise_this_macros", "__guarded_proc"] ++
      [mark '!', parens (.ident marker :: .ident handling :: inner)]

def fillAll (handling method marker : String) : List OpenCode → List Token
  | [] => []
  | p :: code => fill handling method marker p ++ fillAll handling method marker code

end

mutual

/-- Whether there is a generated `rethrow` in code, at any depth. -/
def rethrows : OpenCode → Bool
  | .token _ | .nested _ => false
  | .group _ inner => anyRethrows inner
  | .rethrow => true

def anyRethrows : List OpenCode → Bool
  | [] => false
  | p :: code => rethrows p || anyRethrows code

end

variable {handling method marker : String} {mode : RethrowMode} {code code' : List OpenCode}

theorem fillAll_append (code code' : List OpenCode) :
    fillAll handling method marker (code ++ code') =
      fillAll handling method marker code ++ fillAll handling method marker code' := by
  induction code with
  | nil => rfl
  | cons p code ih => rw [List.cons_append, fillAll, fillAll, ih, List.append_assoc]

theorem anyRethrows_append (code code' : List OpenCode) :
    anyRethrows (code ++ code') = (anyRethrows code || anyRethrows code') := by
  induction code with
  | nil => rfl
  | cons p code ih => rw [List.cons_append, anyRethrows, anyRethrows, ih, Bool.or_assoc]

theorem fillAll_tokens (ts : List Token) :
    fillAll handling method marker (ts.map .token) = ts := by
  induction ts with
  | nil => rfl
  | cons t ts ih =>
    rw [List.map_cons, fillAll, ih]
    rfl

theorem anyRethrows_tokens (ts : List Token) : anyRethrows (ts.map .token) = false := by
  induction ts with
  | nil => rfl
  | cons t ts ih => exact ih

theorem fill_ne_nil (p : OpenCode) : fill handling method marker p ≠ [] := by
  cases p <;> exact List.cons_ne_nil _ _

theorem length_fill (method' : String) (p : OpenCode) :
    (fill handling method marker p).length = (fill handling method' marker p).length := by
  cases p <;> rfl

mutual

/-- The method that is filled in can be seen just if there is a `rethrow`. -/
theorem fill_eq_iff (handling marker : String) : (p : OpenCode) →
    (fill handling "rethrow" marker p = fill handling "rethrow_ref" marker p ↔ rethrows p = false)
  | .token _ | .nested _ => iff_of_true rfl rfl
  | .group d inner => by
    rw [fill, fill, rethrows, ← fillAll_eq_iff handling marker inner, List.cons.injEq,
      Token.group.injEq, and_iff_right rfl, and_iff_left rfl]
  | .rethrow => by
    refine iff_of_false (fun h => ?_) Bool.noConfusion
    simp [fill, Lowering.failingReturn, parens] at h

theorem fillAll_eq_iff (handling marker : String) : (code : List OpenCode) →
    (fillAll handling "rethrow" marker code = fillAll handling "rethrow_ref" marker code ↔
      anyRethrows code = false)
  | [] => iff_of_true rfl rfl
  | p :: code => by
    rw [fillAll, fillAll, anyRethrows, Bool.or_eq_false_iff, ← fill_eq_iff handling marker p,
      ← fillAll_eq_iff handling marker code]
    constructor
    · exact fun h => List.append_inj h (length_fill _ p)
    · rintro ⟨hp, hcode⟩
      rw [hp, hcode]

end

/-! ## Modes -/

/-- The method by which a `rethrow` sends on what is handled. -/
def methodOf : RethrowMode → String
  | .refused | .owning => "rethrow"
  | .sharing => "rethrow_ref"

/-- The code in a mode. A `rethrow` is refused where there is nothing to send on. -/
def emit (handling : String) (mode : RethrowMode) (code : List OpenCode) :
    Except BlockError (List Token) :=
  if mode.isAllowed || !anyRethrows code then
    .ok (fillAll handling (methodOf mode) (Lowering.nestedMarker mode) code)
  else
    .error .rethrowOutsideClause

theorem emit_append (code code' : List OpenCode) :
    emit handling mode (code ++ code') = do
      let first ← emit handling mode code
      let second ← emit handling mode code'
      return first ++ second := by
  rw [emit, emit, emit, anyRethrows_append, fillAll_append]
  cases mode.isAllowed <;> cases anyRethrows code <;> cases anyRethrows code' <;> rfl

theorem emit_cons (p : OpenCode) (code : List OpenCode) :
    emit handling mode (p :: code) = do
      let first ← emit handling mode [p]
      let second ← emit handling mode code
      return first ++ second :=
  emit_append [p] code

theorem emit_tokens (ts : List Token) : emit handling mode (ts.map .token) = .ok ts := by
  rw [emit, anyRethrows_tokens, fillAll_tokens, Bool.not_false, Bool.or_true, if_pos rfl]

theorem emit_nested (inner : List Token) :
    emit handling mode [.nested inner] = .ok (Lowering.nestedExpansion mode handling inner) := by
  cases mode <;> rfl

theorem emit_rethrow : emit handling mode [.rethrow] = Lowering.rethrowReturn handling mode := by
  cases mode <;> rfl

theorem emit_group (d : Delimiter) (inner : List OpenCode) :
    emit handling mode [.group d inner] = do
      let inner' ← emit handling mode inner
      return [.group d inner'] := by
  have hany : anyRethrows [.group d inner] = anyRethrows inner := Bool.or_false _
  rw [emit, emit, hany]
  cases mode.isAllowed <;> cases anyRethrows inner <;> rfl

theorem emit_eq_error_iff {e : BlockError} :
    emit handling mode code = .error e ↔
      mode = .refused ∧ anyRethrows code = true ∧ e = .rethrowOutsideClause := by
  rw [emit]
  cases mode with
  | refused =>
    cases anyRethrows code with
    | false =>
      constructor
      · intro h
        cases h
      · rintro ⟨-, h, -⟩
        cases h
    | true =>
      constructor
      · intro h
        cases h
        exact ⟨rfl, rfl, rfl⟩
      · rintro ⟨-, -, rfl⟩
        rfl
  | owning | sharing =>
    constructor
    · intro h
      cases h
    · rintro ⟨h, -⟩
      cases h

/-- Only from no code come no tokens. -/
theorem isEmpty_of_emit {ts : List Token} (h : emit handling mode code = .ok ts) :
    ts.isEmpty = code.isEmpty := by
  rw [emit] at h
  split at h
  next =>
    cases h
    cases code with
    | nil => rfl
    | cons p code =>
      exact List.isEmpty_eq_false_iff.2 (List.append_ne_nil_of_left_ne_nil (fill_ne_nil p) _)
  next => cases h

/-- A return that carries out a value. -/
def leave (value : List OpenCode) : List OpenCode :=
  (.ident "return" :: path ["core", "result", "Result", "Ok"]).map .token ++
    [.group .parenthesis ((path ["raise_this", "Outcome", "Return"]).map .token ++
      [.group .parenthesis (if value.isEmpty then [.token (parens [])] else value)])]

theorem emit_leave (value : List OpenCode) :
    emit handling mode (leave value) = do
      let value' ← emit handling mode value
      return Lowering.earlyReturn value' := by
  have horUnit : emit handling mode (if value.isEmpty then [.token (parens [])] else value) = do
      let value' ← emit handling mode value
      return if value'.isEmpty then [parens []] else value' := by
    cases hvalue : emit handling mode value with
    | error e =>
      cases value with
      | nil => cases hvalue.symm.trans (emit_tokens [])
      | cons p value => exact hvalue
    | ok ts =>
      change _ = Except.ok (if ts.isEmpty then [parens []] else ts)
      rw [isEmpty_of_emit hvalue]
      cases value with
      | nil => exact emit_tokens [parens []]
      | cons p value => exact hvalue
  rw [leave, emit_append, emit_tokens, emit_group, emit_append, emit_tokens, emit_group, horUnit]
  cases emit handling mode value <;> rfl

end OpenCode

open OpenCode

/-- Lowering makes one code in all modes. -/
theorem tokens_eq_emit (handling : String) (prev : Option Token) (ts : List Token) :
    ∃ code, ∀ mode, Lowering.tokens handling mode prev ts = emit handling mode code := by
  induction prev, ts using Lowering.tokens_induction with
  | nil prev =>
    refine ⟨[], fun mode => ?_⟩
    rw [Lowering.tokens]
    exact (emit_tokens []).symm
  | nested prev t rest inner hnested ih =>
    obtain ⟨tail, htail⟩ := ih
    refine ⟨.nested inner :: tail, fun mode => ?_⟩
    rw [Lowering.tokens_nested hnested, htail, emit_cons, emit_nested]
    rfl
  | untouched prev t rest n hnested hspan ih =>
    obtain ⟨tail, htail⟩ := ih
    refine ⟨(t :: rest.take (n - 1)).map .token ++ tail, fun mode => ?_⟩
    rw [Lowering.tokens_untouched hnested hspan, htail, emit_append, emit_tokens]
    rfl
  | leave prev rest hi ihvalue ihtail =>
    obtain ⟨value, hvalue⟩ := ihvalue
    obtain ⟨tail, htail⟩ := ihtail
    refine ⟨leave value ++ tail, fun mode => ?_⟩
    rw [Lowering.tokens_return hi, hvalue, htail, emit_append, emit_leave]
    cases emit handling mode value <;> rfl
  | rethrow prev rest hrethrow ih =>
    obtain ⟨tail, htail⟩ := ih
    refine ⟨.rethrow :: tail, fun mode => ?_⟩
    rw [Lowering.tokens_rethrow hrethrow, htail, emit_cons, emit_rethrow]
  | group prev d inner rest ihinner ihtail =>
    obtain ⟨inner', hinner⟩ := ihinner
    obtain ⟨tail, htail⟩ := ihtail
    refine ⟨.group d inner' :: tail, fun mode => ?_⟩
    rw [Lowering.tokens_group, hinner, htail, emit_cons, emit_group]
    cases emit handling mode inner' <;> rfl
  | token prev t rest ht hreturn hnested huntouched hrethrow ih =>
    obtain ⟨tail, htail⟩ := ih
    refine ⟨.token t :: tail, fun mode => ?_⟩
    have ht' : emit handling mode [.token t] = .ok [t] := emit_tokens [t]
    rw [Lowering.tokens_token ht hreturn hnested huntouched hrethrow, htail, emit_cons, ht']
    rfl

/-- The clauses of a block are never refused. -/
theorem exists_clauseCalls (names : Expansion.Names) (clauses : List BlockClause) :
    ∃ calls, Expansion.clauseCalls names clauses = .ok calls := by
  induction clauses with
  | nil => exact ⟨[], rfl⟩
  | cons c clauses ih =>
    obtain ⟨code, hcode⟩ := tokens_eq_emit names.handling none c.body
    obtain ⟨calls, hcalls⟩ := ih
    rw [clauseCalls_cons, hcalls, lowerBody, hcode .owning]
    exact ⟨_, rfl⟩

theorem bodyMode_eq_refused_iff {placement : Placement} :
    placement.bodyMode = .refused ↔ placement ≠ .inClause := by
  cases placement <;> decide

/-- A block that has been read and checked is refused just if its body is. -/
theorem ofTokens_eq_error_iff {placement : Placement} {given : Option String} {ts : List Token}
    {b : GuardedBlock} (hb : Parser.block ts = .ok b) (hcheck : b.check = .ok ()) (e : BlockError) :
    Expansion.ofTokens placement given ts = .error e ↔
      lowerBody (given.getD Expansion.defaultHandling) placement.bodyMode b.body = .error e := by
  obtain ⟨calls, hcalls⟩ :=
    exists_clauseCalls ⟨b.runtime, given.getD Expansion.defaultHandling⟩ b.clauses
  rw [ofTokens_eq hb hcheck rfl, hcalls]
  cases lowerBody (given.getD Expansion.defaultHandling) placement.bodyMode b.body with
  | error e' => exact Iff.rfl
  | ok body =>
    refine iff_of_false ?_ ?_ <;> intro h <;> cases h

/-- The mode of a body shows in what a `rethrow` becomes and in the marks of nested blocks, and in
nothing else.

There is one code for a body. If the body owns what is handled, its `rethrow`s are filled in with
one method, and if it shares it, with another one, which shows just if there is a `rethrow`. If
there is nothing to send on, any `rethrow` is refused, and without one the code differs in the marks
only. So a block that can be read and passes the check of its clauses is refused just if it is in no
clause itself and lowering comes to a `rethrow` in its body. -/
theorem mode_shows_in_rethrows_and_marks (handling : String) (body : List Token) :
    ∃ code : List OpenCode,
      lowerBody handling .owning body =
        .ok (fillAll handling "rethrow" "NESTED_HANDLER" code) ∧
      lowerBody handling .sharing body =
        .ok (fillAll handling "rethrow_ref" "NESTED_HANDLER" code) ∧
      lowerBody handling .refused body =
        (if anyRethrows code then .error .rethrowOutsideClause
        else .ok (fillAll handling "rethrow" "NESTED" code)) ∧
      (anyRethrows code = true ↔
        lowerBody handling .owning body ≠ lowerBody handling .sharing body) ∧
      ∀ placement given ts b, Parser.block ts = .ok b → b.check = .ok () → b.body = body →
        given.getD Expansion.defaultHandling = handling →
        ∀ e, Expansion.ofTokens placement given ts = .error e ↔
          placement ≠ .inClause ∧ anyRethrows code = true ∧ e = .rethrowOutsideClause := by
  obtain ⟨code, hcode⟩ := tokens_eq_emit handling none body
  have howning := hcode .owning
  have hsharing := hcode .sharing
  have hrefused : lowerBody handling .refused body =
      if anyRethrows code then .error .rethrowOutsideClause
      else .ok (fillAll handling "rethrow" "NESTED" code) := by
    rw [lowerBody, hcode .refused, emit]
    cases anyRethrows code <;> rfl
  refine ⟨code, howning, hsharing, hrefused, ?_, ?_⟩
  · rw [lowerBody, lowerBody, howning, hsharing, ne_eq, ← Bool.not_eq_false,
      ← fillAll_eq_iff handling "NESTED_HANDLER"]
    exact not_congr ⟨congrArg Except.ok, Except.ok.inj⟩
  · rintro placement given ts b hb hcheck rfl rfl e
    rw [ofTokens_eq_error_iff hb hcheck, lowerBody, hcode, emit_eq_error_iff,
      bodyMode_eq_refused_iff]

/-- In `return rethrow; guarded! { .. }` the `rethrow` ends what is returned. Both methods show in
it, and a block with this body is refused in a body and not in a clause. -/
theorem mode_shows_in_rethrows_and_marks_in_return :
    let inner := catchAllTokens [] []
    let body : List Token :=
      [.ident "return", .ident "rethrow", mark ';', .ident "guarded", mark '!', braces inner]
    let lowered (method : String) : List Token :=
      Lowering.earlyReturn (Lowering.failingReturn "__handling" method) ++
        mark ';' :: Lowering.nestedExpansion .owning "__handling" inner
    ∃ code : List OpenCode, anyRethrows code = true ∧
      fillAll "__handling" "rethrow" "NESTED_HANDLER" code = lowered "rethrow" ∧
      fillAll "__handling" "rethrow_ref" "NESTED_HANDLER" code = lowered "rethrow_ref" ∧
      Expansion.ofTokens .inBody none (catchAllTokens body body) = .error .rethrowOutsideClause ∧
      ∀ e, Expansion.ofTokens .inClause none (catchAllTokens body body) ≠ .error e := by
  intro inner body lowered
  obtain ⟨code, howning, hsharing, -, hdiffer, hblock⟩ :=
    mode_shows_in_rethrows_and_marks "__handling" body
  have hrethrow : lowerBody "__handling" .owning body = .ok (lowered "rethrow") := by cbv
  have hrethrowRef : lowerBody "__handling" .sharing body = .ok (lowered "rethrow_ref") := by cbv
  have hany : anyRethrows code = true := by
    refine hdiffer.2 fun h => ?_
    have hsame := Except.ok.inj (hrethrow.symm.trans (h.trans hrethrowRef))
    simp [lowered, Lowering.earlyReturn, Lowering.failingReturn, parens] at hsame
  have hrefused (placement : Placement) :=
    hblock placement none _ _ (block_catchAllTokens body body) rfl rfl rfl
  refine ⟨code, hany, Except.ok.inj (howning.symm.trans hrethrow),
    Except.ok.inj (hsharing.symm.trans hrethrowRef), ?_, fun e h => ?_⟩
  · exact (hrefused .inBody _).2 ⟨by decide, hany, rfl⟩
  · exact ((hrefused .inClause e).1 h).1 rfl

end Unwind
