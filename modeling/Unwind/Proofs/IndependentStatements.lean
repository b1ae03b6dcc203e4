import Unwind.Proofs.LoweringSteps

/-!
# Statements are lowered one by one

Lowering looks back at one token and ahead at the next ones, and what it copies or returns can be of
any length. None of this reaches across a `;`, since what stands before one is read in the same way
with and without what comes after it. Only the parameters of a closure and the head of a function go
on beyond a `;`, so these must not start before it.
-/

namespace Unwind

open Token

/-! ## What is recognised before a semicolon -/

namespace Span

variable {prev : Option Token} {t : Token} {rest : List Token} (s : Spacing) (ys : List Token)

theorem isInvocation_semicolon :
    isInvocation (t :: (rest ++ .punct ';' s :: ys)) = isInvocation (t :: rest) := by
  cases h : isInvocation (t :: rest) with
  | false =>
    refine isInvocation_append_eq_false h fun t' ht' => ?_
    cases ht'
    exact ⟨rfl, rfl⟩
  | true =>
    obtain ⟨name, bang, d, inner, after, heq, hbang⟩ := isInvocation_eq_true h
    cases heq
    exact hbang

/-- A nested block is an invocation. -/
theorem nestedBlock?_eq_none {ts : List Token} (h : isInvocation ts = false) :
    nestedBlock? prev ts = none := by
  cases hnested : nestedBlock? prev ts with
  | none => rfl
  | some inner =>
    obtain ⟨bang, d, after, rfl, hbang, -⟩ := nestedBlock?_eq_some hnested
    cases hbang.symm.trans h

theorem nestedBlock?_semicolon :
    nestedBlock? prev (t :: (rest ++ .punct ';' s :: ys)) = nestedBlock? prev (t :: rest) := by
  cases h : isInvocation (t :: rest) with
  | false =>
    rw [nestedBlock?_eq_none h, nestedBlock?_eq_none ((isInvocation_semicolon s ys).trans h)]
  | true =>
    obtain ⟨name, bang, d, inner, after, heq, -⟩ := isInvocation_eq_true h
    cases heq
    rfl

theorem rethrowsHere_semicolon :
    rethrowsHere prev (t :: (rest ++ .punct ';' s :: ys)) = rethrowsHere prev (t :: rest) := by
  cases rest <;> rfl

theorem exprSpan_semicolon : exprSpan (rest ++ .punct ';' s :: ys) = exprSpan rest := by
  induction rest with
  | nil => rfl
  | cons t rest ih =>
    simp only [exprSpan, List.cons_append, List.takeWhile_cons] at ih ⊢
    split
    · exact congrArg (· + 1) ih
    · rfl

/-- Where no closure and no function starts, only invocations are copied as they stand. -/
theorem untouchedSpan?_of_startsNoSpan (ht : startsNoSpan t = true)
    (hrest : rest.head?.all startsNoSpan = true) :
    untouchedSpan? prev (t :: rest) = if isInvocation (t :: rest) then some 3 else none := by
  simp only [startsNoSpan, Bool.and_eq_true, Bool.not_eq_true'] at ht
  have hbar : rest.head?.all (!isPunct '|' ·) = true := by
    cases rest with
    | nil => rfl
    | cons t' rest => exact (Bool.and_eq_true_iff.1 hrest).1
  rw [untouchedSpan?, closureSpan?_of_no_bar ht.1 hbar, fnSpan?,
    if_neg (Bool.eq_false_iff.1 ht.2)]
  rfl

theorem untouchedSpan?_semicolon (ht : startsNoSpan t = true)
    (hrest : rest.head?.all startsNoSpan = true) :
    untouchedSpan? prev (t :: (rest ++ .punct ';' s :: ys)) = untouchedSpan? prev (t :: rest) := by
  have hrest' : (rest ++ .punct ';' s :: ys).head?.all startsNoSpan = true := by
    cases rest with
    | nil => rfl
    | cons t' rest => exact hrest
  rw [untouchedSpan?_of_startsNoSpan ht hrest, untouchedSpan?_of_startsNoSpan ht hrest',
    isInvocation_semicolon]

end Span

/-! ## Lowering before a semicolon -/

namespace Lowering

variable {handling : String} {mode : RethrowMode} {prev : Option Token} {ts : List Token}

/-- Of the token before a place only little is looked at: whether it leads on into a path or to a
member, and whether a closure can start after it. -/
theorem tokens_congr_prev {prev' : Option Token}
    (hcolon : Span.follows prev ':' = Span.follows prev' ':')
    (hdot : Span.follows prev '.' = Span.follows prev' '.')
    (hopen : Span.canOpenClosure prev = Span.canOpenClosure prev') :
    tokens handling mode prev ts = tokens handling mode prev' ts := by
  cases ts with
  | nil => rw [tokens, tokens]
  | cons t rest =>
    have hnested : Span.nestedBlock? prev (t :: rest) = Span.nestedBlock? prev' (t :: rest) := by
      simp only [Span.nestedBlock?, hcolon]
    have huntouched :
        Span.untouchedSpan? prev (t :: rest) = Span.untouchedSpan? prev' (t :: rest) := by
      simp only [Span.untouchedSpan?, Span.closureSpan?, hopen]
    have hrethrow : Span.rethrowsHere prev (t :: rest) = Span.rethrowsHere prev' (t :: rest) := by
      simp only [Span.rethrowsHere, hcolon, hdot]
    rw [tokens.eq_def, tokens.eq_def handling mode prev']
    simp only [hnested, huntouched, hrethrow]

/-- After a semicolon lowering starts afresh. -/
theorem tokens_after_semicolon (s : Spacing) :
    tokens handling mode (some (.punct ';' s)) ts = tokens handling mode none ts :=
  tokens_congr_prev rfl rfl rfl

end Lowering

section

open Lowering

variable {handling : String} {mode : RethrowMode} {xs : List Token}

/-- What comes before a `;` and what comes after it are lowered by themselves. -/
theorem tokens_append_semicolon (h : ∀ t ∈ xs, startsNoSpan t = true) (prev : Option Token)
    (s : Spacing) (ys : List Token) :
    tokens handling mode prev (xs ++ .punct ';' s :: ys) = do
      let first ← tokens handling mode prev xs
      let second ← tokens handling mode none ys
      return first ++ .punct ';' s :: second := by
  have hhead {ts : List Token} (hts : ∀ t ∈ ts, startsNoSpan t = true) :
      ts.head?.all startsNoSpan = true := by
    cases ts with
    | nil => rfl
    | cons t ts => exact hts t List.mem_cons_self
  induction prev, xs using tokens_induction with
  | nil prev =>
    rw [tokens, List.nil_append, tokens_token rfl rfl rfl rfl rfl,
      tokens_after_semicolon]
    rfl
  | nested prev t rest inner hnested ih =>
    obtain ⟨bang, d, rest, heq, -, -⟩ := Span.nestedBlock?_eq_some hnested
    cases heq
    have hwhole := (Span.nestedBlock?_semicolon s ys).trans hnested
    have hrest := (List.forall_mem_cons.1 (List.forall_mem_cons.1 (List.forall_mem_cons.1 h).2).2).2
    rw [List.cons_append, tokens_nested hwhole, tokens_nested hnested]
    simp only [List.cons_append, List.drop_succ_cons, List.drop_zero, List.head?_cons] at ih ⊢
    rw [ih hrest]
    simp only [bind_assoc, pure_bind, List.append_assoc]
  | untouched prev t rest n hnested hspan ih =>
    obtain ⟨hhere, hrest⟩ := List.forall_mem_cons.1 h
    have hnested' := (Span.nestedBlock?_semicolon s ys).trans hnested
    have hspan' := (Span.untouchedSpan?_semicolon s ys hhere (hhead hrest)).trans hspan
    rw [List.cons_append, tokens_untouched hnested' hspan', tokens_untouched hnested hspan]
    rw [Span.untouchedSpan?_of_startsNoSpan hhere (hhead hrest)] at hspan
    -- What is copied is an invocation, which ends before the semicolon.
    obtain ⟨hi, hn⟩ := Option.ite_none_right_eq_some.1 hspan
    obtain ⟨name, bang, d, inner, rest, heq, -⟩ := Span.isInvocation_eq_true hi
    cases heq
    cases hn
    have hafter := (List.forall_mem_cons.1 (List.forall_mem_cons.1 hrest).2).2
    simp only [List.cons_append, Nat.reduceSub, List.take_succ_cons, List.take_zero,
      List.drop_succ_cons, List.drop_zero] at ih ⊢
    rw [ih hafter]
    simp only [bind_assoc, pure_bind, List.cons_append, List.nil_append]
  | leave prev rest hi ihvalue ihtail =>
    have hrest := (List.forall_mem_cons.1 h).2
    rw [List.cons_append, tokens_return ((Span.isInvocation_semicolon s ys).trans hi),
      tokens_return hi, Span.exprSpan_semicolon, List.take_append_of_le_length (Span.exprSpan_le _),
      List.drop_append_of_le_length (Span.exprSpan_le _),
      ihtail fun t ht => hrest t (List.mem_of_mem_drop ht)]
    simp only [bind_assoc, pure_bind, List.append_assoc]
  | rethrow prev rest hrethrow ih =>
    rw [List.cons_append, tokens_rethrow ((Span.rethrowsHere_semicolon s ys).trans hrethrow),
      tokens_rethrow hrethrow, ih (List.forall_mem_cons.1 h).2]
    simp only [bind_assoc, pure_bind, List.append_assoc]
  | group prev d inner rest ihinner ihtail =>
    rw [List.cons_append, tokens_group, tokens_group, ihtail (List.forall_mem_cons.1 h).2]
    simp only [bind_assoc, pure_bind, List.cons_append]
  | token prev t rest ht hreturn hnested huntouched hrethrow ih =>
    obtain ⟨hhere, hrest⟩ := List.forall_mem_cons.1 h
    rw [List.cons_append, tokens_token ht hreturn ((Span.nestedBlock?_semicolon s ys).trans hnested)
      ((Span.untouchedSpan?_semicolon s ys hhere (hhead hrest)).trans huntouched)
      ((Span.rethrowsHere_semicolon s ys).trans hrethrow),
      tokens_token ht hreturn hnested huntouched hrethrow, ih hrest]
    simp only [bind_assoc, pure_bind, List.cons_append]

/-- Statements are lowered one by one: a body that a `;` divides is lowered just if both parts are,
and the code is that of the parts with the `;` between them. Neither a bar nor the word `fn` may
stand before the `;` outside of groups. -/
theorem statements_lowered_one_by_one (h : ∀ t ∈ xs, t.isPunct '|' = false ∧ t.isIdent "fn" = false)
    (s : Spacing) (ys code : List Token) :
    lowerBody handling mode (xs ++ .punct ';' s :: ys) = .ok code ↔
      ∃ first second, lowerBody handling mode xs = .ok first ∧
        lowerBody handling mode ys = .ok second ∧ code = first ++ .punct ';' s :: second := by
  have hxs : ∀ t ∈ xs, startsNoSpan t = true := by
    intro t ht
    rw [startsNoSpan, (h t ht).1, (h t ht).2]
    rfl
  rw [lowerBody, tokens_append_semicolon hxs, bind_eq_ok_iff]
  constructor
  · rintro ⟨first, hfirst, hrest⟩
    obtain ⟨second, hsecond, heq⟩ := bind_eq_ok_iff.1 hrest
    exact ⟨first, second, hfirst, hsecond, (Except.ok.inj heq).symm⟩
  · rintro ⟨first, second, hfirst, hsecond, rfl⟩
    exact ⟨first, hfirst, bind_eq_ok_iff.2 ⟨second, hsecond, rfl⟩⟩

-- A function goes on beyond the semicolon to the next braces, and what it takes is copied.
example :
    let body : List Token := [.ident "fn", mark ';', .ident "return", braces []]
    lowerBody "__handling" .refused body = .ok body ∧
      lowerBody "__handling" .refused [.ident "return", braces []] =
        .ok (earlyReturn [braces []]) := by
  exact ⟨by cbv, by cbv⟩

/-- In `return f(rethrow); |x| x` the value that is returned ends at the semicolon, and a closure
starts after it. -/
theorem statements_lowered_one_by_one_closure :
    let value : List Token := [.ident "f", parens [.ident "rethrow"]]
    let closure : List Token := [mark '|', .ident "x", mark '|', .ident "x"]
    let sent : List Token := [.ident "f", parens (failingReturn "__handling" "rethrow_ref")]
    lowerBody "__handling" .sharing (.ident "return" :: value ++ mark ';' :: closure) =
      .ok (earlyReturn sent ++ mark ';' :: closure) := by
  intro value closure sent
  have hvalue : lowerBody "__handling" .sharing (.ident "return" :: value) =
      .ok (earlyReturn sent) := by cbv
  have hclosure : lowerBody "__handling" .sharing closure = .ok closure := by cbv
  exact (statements_lowered_one_by_one (by decide) .alone closure _).2
    ⟨_, _, hvalue, hclosure, rfl⟩

end

end Unwind
