import Unwind.Block.Expansion

/-!
# Expanding to the end

The expansion of a block holds calls of the expander for the blocks in its bodies, to be expanded in
their turn. `expandFully` does so down to a given depth. Calls are found by their tokens alone, so
the work is to see where there are none: the code of a block has no exclamation mark outside the
bodies, and `Turns` is the effect of replacing calls on code that is put together in this way.
-/

namespace Unwind

namespace Token

def isParens : Token → Bool
  | .group .parenthesis _ => true
  | _ => false

end Token

namespace Expansion

open Token

/-- The tokens of a call of the expander, up to its arguments in parentheses. -/
def callShape : List (Token → Bool) :=
  [isPunct ':', isPunct ':', isIdent "raise_this", isPunct ':', isPunct ':',
    isIdent "raise_this_macros", isPunct ':', isPunct ':', isIdent "__guarded_proc", isPunct '!',
    isParens]

theorem bang_mem_callShape : isPunct '!' ∈ callShape := by
  simp [callShape]

theorem name_mem_callShape : isIdent "__guarded_proc" ∈ callShape := by
  simp [callShape]

/-- Whether tokens start with some that pass tests. -/
def startsAs : List (Token → Bool) → List Token → Bool
  | [], _ => true
  | _ :: _, [] => false
  | test :: tests, t :: ts => test t && startsAs tests ts

/-- The arguments of the call that stands here. -/
def callArgs? (ts : List Token) : Option (List Token) :=
  match startsAs callShape ts, ts.drop 10 with
  | true, .group _ args :: _ => some args
  | _, _ => none

/-- Put the result of `f` in the place of every call. -/
def replaceCalls (f : List Token → Except BlockError (List Token)) (ts : List Token) :
    Except BlockError (List Token) :=
  match ts with
  | [] => .ok []
  | t :: rest =>
    match callArgs? (t :: rest) with
    | some args => do
      let code ← f args
      let tail ← replaceCalls f (rest.drop 10)
      return code ++ tail
    | none =>
      match t with
      | .group d inner => do
        let inner' ← replaceCalls f inner
        let tail ← replaceCalls f rest
        return .group d inner' :: tail
      | t => do
        let tail ← replaceCalls f rest
        return t :: tail
termination_by sizeOf ts
decreasing_by
  · have := sizeOf_le_of_sublist (List.drop_sublist 10 rest)
    simp only [List.cons.sizeOf_spec]; omega
  · simp only [List.cons.sizeOf_spec, Token.group.sizeOf_spec]; omega
  · simp only [List.cons.sizeOf_spec, Token.group.sizeOf_spec]; omega
  · simp only [List.cons.sizeOf_spec]; omega

/-- Expand the calls in some code and those in what comes out, down to a depth. -/
def complete : (depth : Nat) → List Token → Except BlockError (List Token)
  | 0, ts => .ok ts
  | n + 1, ts => replaceCalls (fun args => expand args >>= complete n) ts

/-- Expand tokens by the mark that they start with, and then all calls that come out. -/
def expandFully (depth : Nat) (ts : List Token) : Except BlockError (List Token) :=
  expand ts >>= complete depth

/-! ## Where calls are found -/

section

variable {f : List Token → Except BlockError (List Token)} {t : Token} {rest : List Token}

theorem startsAs_forall {tests : List (Token → Bool)} {ts : List Token}
    (h : startsAs tests ts = true) : ∀ test ∈ tests, ∃ t ∈ ts, test t = true := by
  induction tests generalizing ts with
  | nil => exact List.forall_mem_nil _
  | cons test tests ih =>
    cases ts with
    | nil => cases h
    | cons t ts =>
      obtain ⟨ht, hts⟩ := Bool.and_eq_true_iff.1 h
      refine List.forall_mem_cons.2 ⟨⟨t, List.mem_cons_self, ht⟩, fun test' hmem => ?_⟩
      obtain ⟨t', ht', htest⟩ := ih hts test' hmem
      exact ⟨t', List.mem_cons_of_mem t ht', htest⟩

theorem callArgs?_eq_none {ts : List Token} (h : startsAs callShape ts = false) :
    callArgs? ts = none := by
  rw [callArgs?, h]

theorem replaceCalls_of_callArgs? {args : List Token} (h : callArgs? (t :: rest) = some args) :
    replaceCalls f (t :: rest) = do
      let code ← f args
      let tail ← replaceCalls f (rest.drop 10)
      return code ++ tail := by
  rw [replaceCalls.eq_def]
  simp only [h]

theorem replaceCalls_group (d : Delimiter) (inner rest : List Token) :
    replaceCalls f (.group d inner :: rest) = do
      let inner' ← replaceCalls f inner
      let tail ← replaceCalls f rest
      return .group d inner' :: tail := by
  have hnone : callArgs? (.group d inner :: rest) = none := callArgs?_eq_none rfl
  rw [replaceCalls.eq_def]
  simp only [hnone]

theorem replaceCalls_token (ht : t.isGroup = false) (h : callArgs? (t :: rest) = none) :
    replaceCalls f (t :: rest) = do
      let tail ← replaceCalls f rest
      return t :: tail := by
  rw [replaceCalls.eq_def]
  simp only [h]
  cases t with
  | group => cases ht
  | _ => rfl

end

theorem callArgs?_eq_none_of_lacks {test : Token → Bool} (htest : test ∈ callShape)
    {ts : List Token} (h : ∀ t ∈ ts, test t = false) : callArgs? ts = none := by
  refine callArgs?_eq_none (Bool.eq_false_iff.2 fun hstarts => ?_)
  obtain ⟨t, ht, hpass⟩ := startsAs_forall hstarts test htest
  rw [h t ht] at hpass
  cases hpass

/-- Tokens among which no exclamation mark stands, so that no call does. -/
def NoBang (ts : List Token) : Prop :=
  ∀ t ∈ ts, t.isPunct '!' = false

theorem NoBang.callArgs?_eq_none {ts : List Token} (h : NoBang ts) : callArgs? ts = none :=
  callArgs?_eq_none_of_lacks bang_mem_callShape h

theorem replaceCalls_append (f : List Token → Except BlockError (List Token)) {ts ts' : List Token}
    (h : NoBang ts) (h' : NoBang ts') :
    replaceCalls f (ts ++ ts') = do
      let code ← replaceCalls f ts
      let code' ← replaceCalls f ts'
      return code ++ code' := by
  induction ts with
  | nil =>
    rw [List.nil_append, replaceCalls]
    cases replaceCalls f ts' <;> rfl
  | cons t ts ih =>
    have ih := ih (List.forall_mem_cons.1 h).2
    have hall : NoBang (t :: (ts ++ ts')) := List.forall_mem_append.2 ⟨h, h'⟩
    cases hg : t.isGroup with
    | false =>
      rw [List.cons_append, replaceCalls_token hg hall.callArgs?_eq_none, ih,
        replaceCalls_token hg h.callArgs?_eq_none]
      simp
    | true =>
      cases t with
      | group d inner =>
        rw [List.cons_append, replaceCalls_group, ih, replaceCalls_group]
        simp
      | _ => cases hg

/-! ## Code with bodies in it -/

/-- A result that is a value if something is allowed, and is refused otherwise. -/
def Verdict {α : Type} (allowed : Prop) (a : α) (result : Except BlockError α) : Prop :=
  (allowed ∧ result = .ok a) ∨ (¬allowed ∧ result = .error .rethrowOutsideClause)

namespace Verdict

variable {α β : Type} {P Q : Prop} {a : α} {b : β} {x : Except BlockError α}

theorem ok (a : α) : Verdict True a (.ok a) :=
  .inl ⟨trivial, rfl⟩

theorem refused (h : ¬P) (a : α) : Verdict P a (.error .rethrowOutsideClause) :=
  .inr ⟨h, rfl⟩

theorem bind {next : α → Except BlockError β} (h : Verdict P a x) (h' : Verdict Q b (next a)) :
    Verdict (P ∧ Q) b (x >>= next) := by
  rcases h with ⟨hP, rfl⟩ | ⟨hP, rfl⟩
  · rcases h' with ⟨hQ, hb⟩ | ⟨hQ, hb⟩
    · exact .inl ⟨⟨hP, hQ⟩, hb⟩
    · exact .inr ⟨fun h => hQ h.2, hb⟩
  · exact .inr ⟨fun h => hP h.1, rfl⟩

theorem congr (h : Verdict P a x) (hPQ : P ↔ Q) : Verdict Q a x := by
  rwa [← propext hPQ]

theorem map (h : Verdict P a x) (g : α → β) : Verdict P (g a) (x >>= fun a => pure (g a)) :=
  (h.bind (.ok (g a))).congr (by rw [and_true])

end Verdict

mutual

/-- Whether a token and all that are in it pass a test. -/
def throughout (test : Token → Bool) : Token → Bool
  | .group d inner => test (.group d inner) && allThroughout test inner
  | t => test t

def allThroughout (test : Token → Bool) : List Token → Bool
  | [] => true
  | t :: ts => throughout test t && allThroughout test ts

end

theorem allThroughout_append (test : Token → Bool) (ts ts' : List Token) :
    allThroughout test (ts ++ ts') = (allThroughout test ts && allThroughout test ts') := by
  induction ts with
  | nil => rfl
  | cons t ts ih => simp only [List.cons_append, allThroughout, ih, Bool.and_assoc]

theorem test_of_throughout {test : Token → Bool} {t : Token} (h : throughout test t = true) :
    test t = true := by
  cases t with
  | group => exact (Bool.and_eq_true_iff.1 h).1
  | _ => exact h

theorem forall_of_allThroughout {test : Token → Bool} {ts : List Token}
    (h : allThroughout test ts = true) : ∀ t ∈ ts, test t = true := by
  induction ts with
  | nil => exact List.forall_mem_nil _
  | cons t ts ih =>
    obtain ⟨ht, hts⟩ := Bool.and_eq_true_iff.1 h
    exact List.forall_mem_cons.2 ⟨test_of_throughout ht, ih hts⟩

theorem allThroughout_imp {test test' : Token → Bool}
    (himp : ∀ t, test t = true → test' t = true) :
    (ts : List Token) → allThroughout test ts = true → allThroughout test' ts = true
  | [], _ => rfl
  | .group d inner :: ts, h => by
    simp only [allThroughout, throughout, Bool.and_eq_true] at h ⊢
    obtain ⟨⟨hgroup, hinner⟩, hts⟩ := h
    exact ⟨⟨himp _ hgroup, allThroughout_imp himp inner hinner⟩, allThroughout_imp himp ts hts⟩
  | .ident _ :: ts, h | .punct _ _ :: ts, h | .literal _ :: ts, h => by
    obtain ⟨ht, hts⟩ := Bool.and_eq_true_iff.1 h
    exact Bool.and_eq_true_iff.2 ⟨himp _ ht, allThroughout_imp himp ts hts⟩

/-- There is nothing to replace where one of the tokens of a call is missing. -/
theorem replaceCalls_of_lacks (f : List Token → Except BlockError (List Token))
    {test : Token → Bool} (htest : test ∈ callShape) :
    (ts : List Token) → allThroughout (!test ·) ts = true → replaceCalls f ts = .ok ts
  | [], _ => by rw [replaceCalls]
  | .group d inner :: ts, h => by
    obtain ⟨hgroup, hts⟩ := Bool.and_eq_true_iff.1 h
    obtain ⟨_, hinner⟩ := Bool.and_eq_true_iff.1 hgroup
    rw [replaceCalls_group, replaceCalls_of_lacks f htest inner hinner,
      replaceCalls_of_lacks f htest ts hts]
    rfl
  | .ident _ :: ts, h | .punct _ _ :: ts, h | .literal _ :: ts, h => by
    obtain ⟨_, hts⟩ := Bool.and_eq_true_iff.1 h
    have hnone := callArgs?_eq_none_of_lacks htest
      fun t ht => Bool.not_eq_true' _ ▸ forall_of_allThroughout h t ht
    rw [replaceCalls_token rfl hnone, replaceCalls_of_lacks f htest ts hts]
    rfl

/-- Whether no exclamation mark is in tokens, at any depth. -/
def allStill (ts : List Token) : Bool :=
  allThroughout (!isPunct '!' ·) ts

theorem allStill_cons (t : Token) (ts : List Token) :
    allStill (t :: ts) = (throughout (!isPunct '!' ·) t && allStill ts) :=
  rfl

theorem allStill_append (ts ts' : List Token) :
    allStill (ts ++ ts') = (allStill ts && allStill ts') :=
  allThroughout_append _ ts ts'

theorem noBang_of_allStill {ts : List Token} (h : allStill ts = true) : NoBang ts :=
  fun t ht => Bool.not_eq_true' _ ▸ forall_of_allThroughout h t ht

theorem allStill_path (segments : List String) : allStill (path segments) = true := by
  induction segments with
  | nil => rfl
  | cons s segments ih =>
    have hpath : path (s :: segments) = pathSep ++ [.ident s] ++ path segments := rfl
    rw [hpath, allStill_append, ih]
    rfl

theorem allStill_typePath (p : TypePath) : allStill p.tokens = true := by
  have hrest : allStill (.ident p.head :: path p.rest) = true := by
    rw [allStill_cons, allStill_path]
    rfl
  rw [TypePath.tokens, allStill_append, hrest]
  cases p.absolute <;> rfl

/-- Tokens without a call among them turn into code when the calls in their groups are replaced, if
something is allowed. -/
structure Turns (f : List Token → Except BlockError (List Token)) (allowed : Prop)
    (ts code : List Token) : Prop where
  noBang : NoBang ts
  verdict : Verdict allowed code (replaceCalls f ts)

section

variable {f : List Token → Except BlockError (List Token)} {P Q : Prop}
  {ts ts' code code' fixed : List Token}

namespace Turns

theorem still (h : allStill ts = true) : Turns f True ts ts := by
  refine ⟨noBang_of_allStill h, ?_⟩
  rw [replaceCalls_of_lacks f bang_mem_callShape ts h]
  exact .ok ts

theorem append (h : Turns f P ts code) (h' : Turns f Q ts' code') :
    Turns f (P ∧ Q) (ts ++ ts') (code ++ code') := by
  refine ⟨List.forall_mem_append.2 ⟨h.noBang, h'.noBang⟩, ?_⟩
  rw [replaceCalls_append f h.noBang h'.noBang]
  exact h.verdict.bind (h'.verdict.map _)

theorem after (h : Turns f P ts code) (hfixed : allStill fixed = true) :
    Turns f P (fixed ++ ts) (fixed ++ code) := by
  have hall := (still hfixed).append h
  rwa [true_and] at hall

theorem before (h : Turns f P ts code) (hfixed : allStill fixed = true) :
    Turns f P (ts ++ fixed) (code ++ fixed) := by
  have hall := h.append (still hfixed)
  rwa [and_true] at hall

end Turns

namespace Verdict

/-- Fixed tokens, and a group with what is allowed or not. -/
theorem hole (h : Verdict P code (replaceCalls f ts)) (hfixed : allStill fixed = true)
    (d : Delimiter) : Turns f P (fixed ++ [.group d ts]) (fixed ++ [.group d code]) := by
  have hgroup : Turns f P [.group d ts] [.group d code] := by
    refine ⟨List.forall_mem_singleton.2 rfl, ?_⟩
    rw [replaceCalls_group, replaceCalls]
    exact h.map _
  exact hgroup.after hfixed

theorem continuing (h : Verdict P code (replaceCalls f ts)) :
    Turns f P (continuing ts) (continuing code) := by
  have hblock := h.hole (show allStill [] = true from rfl) .brace
  have hvalue := hblock.verdict.hole (allStill_path ["raise_this", "Outcome", "Continue"])
    .parenthesis
  exact hvalue.verdict.hole (allStill_path ["core", "result", "Result", "Ok"]) .parenthesis

theorem bodyClosure (h : Verdict P code (replaceCalls f ts)) (names : Names) :
    Turns f P (bodyClosure names ts) (bodyClosure names code) :=
  h.continuing.verdict.hole rfl _

end Verdict

theorem Turns.method (h : Turns f P ts code) (name : String) :
    Turns f P (method name ts) (method name code) :=
  h.verdict.hole (show allStill [mark '.', .ident name] = true from rfl) _

theorem Turns.closure {params : List Token} (h : Turns f P ts code)
    (hparams : allStill params = true) : Turns f P (closure params ts) (closure params code) := by
  refine h.verdict.hole ?_ _
  simp only [allStill_append, allStill_cons, hparams]
  rfl

theorem Verdict.clauseCall (h : Verdict P code (replaceCalls f ts)) (names : Names)
    (head : ClauseHead) : Turns f P (clauseCall names ts head) (clauseCall names code head) := by
  cases head with
  | typed type binding =>
    refine ((h.continuing.after rfl).closure ?_).method "catch"
    simp only [allStill_append, allStill_cons, typed, allStill_typePath]
    rfl
  | all binding =>
    refine ((h.continuing.after ?_).closure rfl).method "catch_all"
    cases binding <;> rfl

theorem Turns.blockCode {calls codes : List (List Token)} (hbody : Turns f P ts code)
    (hcalls : Turns f Q calls.flatten codes.flatten) (placement : Placement) (names : Names) :
    Turns f (P ∧ Q) (blockCode placement names ts calls)
      (blockCode placement names code codes) := by
  have hguard := (hbody.method "guard").after (show allStill [.ident names.runtime] = true from rfl)
  have hchain := (hguard.append hcalls).before
    (show allStill (Expansion.method "end" []) = true from rfl)
  have hlet := (hchain.after (show allStill
    [.ident "let", .ident "__raise_outcome", mark '='] = true from rfl)).before
    (show allStill [mark ';'] = true from rfl)
  have hstatement := hlet.after (show allStill allowance = true from rfl)
  refine (hstatement.before ?_).verdict.hole (show allStill [] = true from rfl) .brace
  cases placement <;> rfl

end

end Expansion

end Unwind
