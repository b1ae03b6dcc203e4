import Unwind.Proofs.FullExpansion

/-!
# Calls in lowered bodies

A lowered body holds tokens of its own next to the calls that lowering has put in. `Mirrors` relates
lowered tokens to those that they come from, which is enough to see that no call is found across
the boundary of two statements. `Lowers` is the effect of lowering a body and replacing its calls,
with a lemma for each kind of statement.
-/

namespace Unwind.Expansion

open Token

/-- How lowered tokens begin, compared with those that they come from: with the same token, with a
group for a group, or with a return or a call. A name that stays is not that of a call. -/
inductive Mirrors : List Token → List Token → Prop where
  | nil : Mirrors [] []
  | token {t : Token} {ts out : List Token} : t.isGroup = false →
    (t.isIdent "__guarded_proc" = true → Span.isInvocation (t :: ts) = false) → Mirrors ts out →
    Mirrors (t :: ts) (t :: out)
  | group {d : Delimiter} {inner inner' ts out : List Token} :
    Mirrors (.group d inner :: ts) (.group d inner' :: out)
  | leaving {t : Token} {ts out : List Token} : Mirrors (t :: ts) (.ident "return" :: out)
  | call {mode : RethrowMode} {handling : String} {t : Token} {args ts out : List Token} :
    Mirrors (t :: ts) (Lowering.nestedExpansion mode handling args ++ out)

namespace Mirrors

variable {ts out : List Token}

theorem exists_group (h : Mirrors ts out) (hstarts : startsAs [isParens] out = true) :
    ∃ d inner ts', ts = .group d inner :: ts' := by
  cases h with
  | nil | leaving | call => cases hstarts
  | @token t _ _ hg =>
    cases t with
    | group => cases hg
    | _ => cases hstarts
  | group => exact ⟨_, _, _, rfl⟩

theorem exists_bang (h : Mirrors ts out) (hstarts : startsAs [isPunct '!', isParens] out = true) :
    ∃ t d inner ts', ts = t :: .group d inner :: ts' ∧ t.isPunct '!' = true := by
  cases h with
  | nil | leaving | call | group => cases hstarts
  | @token t _ _ hg hi h =>
    obtain ⟨ht, hout⟩ := Bool.and_eq_true_iff.1 hstarts
    obtain ⟨d, inner, ts', rfl⟩ := h.exists_group hout
    exact ⟨t, d, inner, ts', rfl, ht⟩

/-- A call whose name is among the lowered tokens was an invocation before. -/
theorem startsAs_name {t : Token} (h : Mirrors ts out)
    (hi : t.isIdent "__guarded_proc" = true → Span.isInvocation (t :: ts) = false)
    (ht : t.isIdent "__guarded_proc" = true) : startsAs [isPunct '!', isParens] out = false := by
  have hi := hi ht
  refine Bool.eq_false_iff.2 fun hstarts => ?_
  obtain ⟨bang, d, inner, ts', rfl, hbang⟩ := h.exists_bang hstarts
  cases t with
  | ident name =>
    rw [Span.isInvocation, hbang] at hi
    cases hi
  | _ => cases ht

/-- Lowered tokens do not begin in the middle of a call. -/
theorem startsAs_drop (h : Mirrors ts out) :
    ∀ k ∈ [1, 2, 3, 4, 5, 6, 7, 8], startsAs (callShape.drop k) out = false := by
  induction h with
  | nil => simp [callShape, startsAs]
  | group => simp [callShape, startsAs, isPunct, isIdent]
  | leaving => simp [callShape, startsAs, isPunct, isIdent]
  | call =>
    simp [callShape, startsAs, isPunct, isIdent, Lowering.nestedExpansion, path, pathSep]
  | @token t ts out hg hi h ih =>
    have hname := h.startsAs_name hi
    simp only [callShape, List.drop_succ_cons, List.drop_zero, List.forall_mem_cons] at ih
    simpa [callShape, startsAs, ih] using hname

theorem callArgs?_cons (h : Mirrors ts out) (t : Token) : callArgs? (t :: out) = none := by
  have hrest := h.startsAs_drop 1 (by simp)
  refine callArgs?_eq_none ?_
  simp only [callShape, List.drop_succ_cons, List.drop_zero] at hrest
  rw [callShape, startsAs, hrest, Bool.and_false]

end Mirrors

section

variable {f : List Token → Except BlockError (List Token)} {P Q : Prop}
  {ts out code code' : List Token}

namespace Verdict

theorem token (h : Verdict Q code' (replaceCalls f out)) (hm : Mirrors ts out) {t : Token}
    (ht : t.isGroup = false) : Verdict Q (t :: code') (replaceCalls f (t :: out)) := by
  rw [replaceCalls_token ht (hm.callArgs?_cons t)]
  exact h.map _

theorem group {inner : List Token} (h : Verdict P code (replaceCalls f inner))
    (h' : Verdict Q code' (replaceCalls f out)) (d : Delimiter) :
    Verdict (P ∧ Q) (.group d code :: code') (replaceCalls f (.group d inner :: out)) := by
  rw [replaceCalls_group]
  exact h.bind (h'.map _)

theorem call {mode : RethrowMode} {handling : String} {args : List Token}
    (h : Verdict P code (f (.ident (Lowering.nestedMarker mode) :: .ident handling :: args)))
    (h' : Verdict Q code' (replaceCalls f out)) :
    Verdict (P ∧ Q) (code ++ code')
      (replaceCalls f (Lowering.nestedExpansion mode handling args ++ out)) := by
  have hcall : replaceCalls f (Lowering.nestedExpansion mode handling args ++ out) = do
      let code ← f (.ident (Lowering.nestedMarker mode) :: .ident handling :: args)
      let tail ← replaceCalls f out
      return code ++ tail := replaceCalls_of_callArgs? rfl
  rw [hcall]
  exact h.bind (h'.map _)

theorem path {segments : List String} (h : Verdict P code (replaceCalls f out))
    (hne : ∀ s ∈ segments, s ≠ "raise_this") :
    Verdict P (Token.path segments ++ code) (replaceCalls f (Token.path segments ++ out)) := by
  induction segments with
  | nil => exact h
  | cons s segments ih =>
    rw [List.forall_mem_cons] at hne
    have hrest := ih hne.2
    have hfirst : startsAs callShape (.punct ':' .joint :: .punct ':' .alone :: .ident s ::
        (Token.path segments ++ out)) = false := by
      simp [callShape, startsAs, isPunct, isIdent, hne.1]
    have hname := hrest.map (.ident s :: ·)
    rw [← replaceCalls_token (t := .ident s) rfl (callArgs?_eq_none rfl)] at hname
    have hsecond := hname.map (.punct ':' .alone :: ·)
    rw [← replaceCalls_token rfl (callArgs?_eq_none rfl)] at hsecond
    have hthird := hsecond.map (.punct ':' .joint :: ·)
    rw [← replaceCalls_token rfl (callArgs?_eq_none hfirst)] at hthird
    exact hthird

theorem returning {variant : String} (hne : variant ≠ "raise_this") {inner : List Token}
    (h : Verdict P code (replaceCalls f inner)) (h' : Verdict Q code' (replaceCalls f out)) :
    Verdict (P ∧ Q)
      (.ident "return" :: Token.path ["core", "result", "Result", variant] ++ parens code :: code')
      (replaceCalls f (.ident "return" :: Token.path ["core", "result", "Result", variant] ++
        parens inner :: out)) := by
  have hsegments : ∀ s ∈ ["core", "result", "Result", variant], s ≠ "raise_this" := by simp [hne]
  have hall := ((h.group h' .parenthesis).path hsegments).map (.ident "return" :: ·)
  rw [← replaceCalls_token rfl (callArgs?_eq_none rfl)] at hall
  exact hall

/-- An expression, or the unit value if there is none. -/
theorem orUnit (h : Verdict P code (replaceCalls f out)) (hm : Mirrors ts out)
    (hempty : code = [] → ts = []) :
    Verdict P (if code.isEmpty then [parens []] else code)
      (replaceCalls f (if out.isEmpty then [parens []] else out)) := by
  cases out with
  | nil =>
    rw [replaceCalls] at h
    rcases h with ⟨hP, hcode⟩ | ⟨_, hcode⟩
    · cases hcode
      exact .inl ⟨hP, replaceCalls_of_lacks f bang_mem_callShape _ rfl⟩
    · cases hcode
  | cons t out =>
    cases code with
    | nil =>
      cases hempty rfl
      cases hm
    | cons => exact h

end Verdict

end

/-- What lowering makes of tokens that stand for some code: tokens that turn into it when calls are
replaced, unless something is not allowed. -/
inductive Lowers (f : List Token → Except BlockError (List Token)) (allowed : Prop)
    (ts code : List Token) : Except BlockError (List Token) → Prop where
  | ok {out : List Token} : Mirrors ts out → Verdict allowed code (replaceCalls f out) →
    Lowers f allowed ts code (.ok out)
  | refused : ¬allowed → Lowers f allowed ts code (.error .rethrowOutsideClause)

namespace Lowers

variable {f : List Token → Except BlockError (List Token)} {P Q : Prop} {t : Token}
  {ts code ts' code' : List Token} {result result' : Except BlockError (List Token)}

theorem congr (h : Lowers f P ts code result) (hPQ : P ↔ Q) : Lowers f Q ts code result := by
  rwa [← propext hPQ]

theorem nil : Lowers f True [] [] (.ok []) := by
  refine .ok .nil ?_
  rw [replaceCalls]
  exact .ok []

theorem token (h : Lowers f P ts code result) (ht : t.isGroup = false)
    (hi : Span.isInvocation (t :: ts) = false) :
    Lowers f P (t :: ts) (t :: code) (do let tail ← result; return t :: tail) := by
  cases h with
  | ok hm h => exact .ok (.token ht (fun _ => hi) hm) (h.token hm ht)
  | refused h => exact .refused h

theorem group (h : Lowers f P ts code result) (h' : Lowers f Q ts' code' result')
    (d : Delimiter) :
    Lowers f (P ∧ Q) (.group d ts :: ts') (.group d code :: code')
      (do let inner ← result; let tail ← result'; return .group d inner :: tail) := by
  cases h with
  | refused h => exact .refused fun hPQ => h hPQ.1
  | ok hm h =>
    cases h' with
    | refused h' => exact .refused fun hPQ => h' hPQ.2
    | ok hm' h' => exact .ok .group (h.group h' d)

/-- A return with a value. That there is none can be seen both from its tokens and from its code. -/
theorem leaving (h : Lowers f P ts code result) (hempty : code = [] → ts = [])
    (h' : Lowers f Q ts' code' result') {rest : List Token} :
    Lowers f (P ∧ Q) (t :: rest) (Lowering.earlyReturn code ++ code')
      (do let value ← result; let tail ← result'; return Lowering.earlyReturn value ++ tail) := by
  cases h with
  | refused h => exact .refused fun hPQ => h hPQ.1
  | ok hm h =>
    cases h' with
    | refused h' => exact .refused fun hPQ => h' hPQ.2
    | ok hm' h' =>
      have hvalue := (h.orUnit hm hempty).hole (allStill_path ["raise_this", "Outcome", "Return"])
        .parenthesis
      exact .ok .leaving (hvalue.verdict.returning (by simp) h')

theorem failing (h : Lowers f P ts code result) (handling method : String) {rest : List Token} :
    Lowers f P (t :: rest) (Lowering.failingReturn handling method ++ code)
      (do let tail ← result; return Lowering.failingReturn handling method ++ tail) := by
  cases h with
  | refused h => exact .refused h
  | ok hm h =>
    have hsend : Turns f True [.ident handling, mark '.', .ident method, parens []] _ := .still rfl
    exact .ok .leaving ((hsend.verdict.returning (by simp) h).congr (by rw [true_and]))

/-- A `rethrow`, from what it means. -/
theorem rethrow {mode : RethrowMode} {handling : String} {rest : List Token}
    (h : Verdict P code (Lowering.rethrowReturn handling mode))
    (h' : Lowers f Q ts' code' result') :
    Lowers f (P ∧ Q) (t :: rest) (code ++ code')
      (do
        let failing ← Lowering.rethrowReturn handling mode
        let tail ← result'
        return failing ++ tail) := by
  rcases h with ⟨hP, hcode⟩ | ⟨hP, herror⟩
  · have hmode : ∃ method, Lowering.failingReturn handling method = code := by
      cases mode with
      | refused => cases hcode
      | owning | sharing => exact ⟨_, Except.ok.inj hcode⟩
    obtain ⟨method, rfl⟩ := hmode
    rw [hcode]
    exact (h'.failing handling method).congr (by simp only [hP, true_and])
  · rw [herror]
    exact .refused fun hPQ => hP hPQ.1

theorem call {mode : RethrowMode} {handling : String} {args rest : List Token}
    (h : Verdict P code (f (.ident (Lowering.nestedMarker mode) :: .ident handling :: args)))
    (h' : Lowers f Q ts' code' result') :
    Lowers f (P ∧ Q) (t :: rest) (code ++ code')
      (do let tail ← result'; return Lowering.nestedExpansion mode handling args ++ tail) := by
  cases h' with
  | refused h' => exact .refused fun hPQ => h' hPQ.2
  | ok hm' h' => exact .ok .call (h.call h')

/-- Tokens that are copied, with no call in them. -/
theorem kept (h : Lowers f P ts code result) {span : List Token}
    (hspan : allThroughout (!isIdent "__guarded_proc" ·) span = true) :
    Lowers f P (span ++ ts) (span ++ code) (do let tail ← result; return span ++ tail) := by
  cases h with
  | refused h => exact .refused h
  | @ok out hm h =>
    induction span with
    | nil => exact .ok hm h
    | cons t span ih =>
      obtain ⟨ht, hspan⟩ := Bool.and_eq_true_iff.1 hspan
      cases ih hspan with
      | ok hm h =>
        cases hg : t.isGroup with
        | false =>
          refine .ok (.token hg (fun hname => ?_) hm) (h.token hm hg)
          have hother := test_of_throughout ht
          rw [hname] at hother
          cases hother
        | true =>
          cases t with
          | group d inner =>
            have hinner : Verdict True inner (replaceCalls f inner) := by
              rw [throughout, Bool.and_eq_true_iff] at ht
              rw [replaceCalls_of_lacks f name_mem_callShape inner ht.2]
              exact .ok inner
            exact .ok .group ((hinner.group h d).congr (by rw [true_and]))
          | _ => cases hg

end Lowers

/-- The same for the calls for clauses. -/
inductive LowersCalls (f : List Token → Except BlockError (List Token)) (allowed : Prop)
    (codes : List (List Token)) : Except BlockError (List (List Token)) → Prop where
  | ok {calls : List (List Token)} : Turns f allowed calls.flatten codes.flatten →
    LowersCalls f allowed codes (.ok calls)
  | refused : ¬allowed → LowersCalls f allowed codes (.error .rethrowOutsideClause)

section

variable {f : List Token → Except BlockError (List Token)} {P Q : Prop} {ts code : List Token}
  {codes : List (List Token)} {body : Except BlockError (List Token)}
  {calls : Except BlockError (List (List Token))}

theorem LowersCalls.nil : LowersCalls f True [] (.ok []) :=
  .ok (.still rfl)

theorem LowersCalls.cons (h : Lowers f P ts code body) (h' : LowersCalls f Q codes calls)
    (names : Names) (head : ClauseHead) :
    LowersCalls f (P ∧ Q) (clauseCall names code head :: codes)
      (do let body ← body; let calls ← calls; return clauseCall names body head :: calls) := by
  cases h with
  | refused h => exact .refused fun hPQ => h hPQ.1
  | ok _ h =>
    cases h' with
    | refused h' => exact .refused fun hPQ => h' hPQ.2
    | ok h' => exact .ok ((h.clauseCall names head).append h')

theorem Lowers.blockCode (h : Lowers f P ts code body) (h' : LowersCalls f Q codes calls)
    (placement : Placement) (names : Names) :
    Verdict (P ∧ Q) (blockCode placement names (bodyClosure names code) codes)
      ((do
        let body ← body
        let calls ← calls
        return blockCode placement names (bodyClosure names body) calls) >>= replaceCalls f) := by
  cases h with
  | refused h => exact .refused (fun hPQ => h hPQ.1) _
  | ok _ h =>
    cases h' with
    | refused h' => exact .refused (fun hPQ => h' hPQ.2) _
    | ok h' => exact ((h.bodyClosure names).blockCode h' placement names).verdict

end

end Unwind.Expansion
