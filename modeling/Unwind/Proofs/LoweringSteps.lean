import Mathlib.Data.List.Basic
import Unwind.Block.Lowering

/-!
# The steps of lowering

What lowering can meet at a place in a body and what it does there, said once. `Untouched` is what
it copies as it stands, and `Lowered` is the lowering of a whole body, with a rule for each kind of
step. The recognisers of spans appear in it only where no shape of tokens says the same. Proofs that
lowering succeeds go by `tokens_induction`, those about lowered code by induction on `Lowered`.
-/

namespace Unwind

open Token

/-! ## Spans -/

/-- Whether no closure and no function starts with a token. -/
def startsNoSpan (t : Token) : Bool :=
  !t.isPunct '|' && !t.isIdent "fn"

namespace Span

theorem isInvocation_of_untouchedSpan? {prev : Option Token} {ts : List Token}
    (h : untouchedSpan? prev ts = none) : isInvocation ts = false := by
  refine Bool.eq_false_iff.2 fun hi => ?_
  rw [untouchedSpan?, if_pos hi] at h
  cases h

theorem nestedBlock?_ident {name : String} (h : name ≠ "guarded") (prev : Option Token)
    (rest : List Token) : nestedBlock? prev (.ident name :: rest) = none := by
  unfold nestedBlock?
  split
  next name' _ _ _ _ heq =>
    cases heq
    simp [h]
  next => rfl

theorem untouchedSpan?_ident {name : String} {rest : List Token} (hmove : name ≠ "move")
    (hfn : name ≠ "fn") (hi : isInvocation (.ident name :: rest) = false) (prev : Option Token) :
    untouchedSpan? prev (.ident name :: rest) = none := by
  simp [untouchedSpan?, hi, closureSpan?, fnSpan?, isIdent, isPunct, hmove, hfn]

theorem eq_of_isIdent {name : String} {t : Token} (h : t.isIdent name = true) :
    t = .ident name := by
  cases t with
  | ident text => rw [of_decide_eq_true h]
  | _ => cases h

theorem rethrowsHere_eq_true {prev : Option Token} {t : Token} {rest : List Token}
    (h : rethrowsHere prev (t :: rest) = true) :
    t = .ident "rethrow" ∧ isInvocation (t :: rest) = false := by
  simp only [rethrowsHere, Bool.and_eq_true] at h
  obtain ⟨⟨⟨ht, -⟩, -⟩, hrest⟩ := h
  cases eq_of_isIdent ht
  refine ⟨rfl, ?_⟩
  unfold isInvocation
  split
  next _ bang _ _ _ heq =>
    cases heq
    cases bang with
    | punct c _ =>
      simp only [List.head?_cons, Option.all_some, endsExpr, isPunct, Bool.or_eq_true,
        decide_eq_true_eq] at hrest
      rcases hrest with rfl | rfl <;> rfl
    | _ => rfl
  next => rfl

theorem exprSpan_le (ts : List Token) : exprSpan ts ≤ ts.length :=
  (List.takeWhile_sublist _).length_le

theorem take_exprSpan (ts : List Token) : ts.take (exprSpan ts) = ts.takeWhile (!endsExpr ·) := by
  conv => lhs; arg 2; rw [← List.takeWhile_append_dropWhile (p := (!endsExpr ·)) (l := ts)]
  exact List.take_left

theorem drop_exprSpan (ts : List Token) : ts.drop (exprSpan ts) = ts.dropWhile (!endsExpr ·) := by
  conv => lhs; arg 2; rw [← List.takeWhile_append_dropWhile (p := (!endsExpr ·)) (l := ts)]
  exact List.drop_left

theorem braceSpan?_eq_some {ts : List Token} {n : Nat} (h : braceSpan? ts = some n) :
    ∃ before brace after, ts = before ++ brace :: after ∧ before.length + 1 = n ∧
      (∀ t ∈ before, t.isBrace = false) ∧ brace.isBrace = true := by
  obtain ⟨i, hi, rfl⟩ := Option.map_eq_some_iff.1 h
  obtain ⟨hlt, hbrace, hbefore⟩ := List.findIdx?_eq_some_iff_getElem.1 hi
  refine ⟨ts.take i, ts[i], ts.drop (i + 1), ?_, ?_, ?_, hbrace⟩
  · rw [← List.drop_eq_getElem_cons hlt, List.take_append_drop]
  · rw [List.length_take_of_le (Nat.le_of_lt hlt)]
  · intro t ht
    obtain ⟨j, hj, rfl⟩ := List.mem_take_iff_getElem.1 ht
    exact Bool.eq_false_iff.2 (hbefore j (by omega))

theorem braceSpan?_getD_le (ts : List Token) : (braceSpan? ts).getD ts.length ≤ ts.length := by
  cases h : braceSpan? ts with
  | none => exact Nat.le_refl _
  | some n =>
    obtain ⟨before, brace, after, rfl, rfl, -, -⟩ := braceSpan?_eq_some h
    simp only [Option.getD_some, List.length_append, List.length_cons]
    omega

theorem closureBodySpan_le (ts : List Token) : closureBodySpan ts ≤ ts.length := by
  unfold closureBodySpan
  split
  next =>
    split
    next => exact braceSpan?_getD_le _
    next => exact exprSpan_le _
  next => exact exprSpan_le _

theorem closureRestSpan_le (ts : List Token) : closureRestSpan ts ≤ ts.length := by
  have hdrop : (ts.dropWhile (!isPunct '|' ·)).length ≤ ts.length :=
    (List.dropWhile_sublist _).length_le
  unfold closureRestSpan
  split
  next => exact Nat.le_refl _
  next bar body hbody =>
    have := closureBodySpan_le body
    rw [hbody, List.length_cons] at hdrop
    omega

theorem closureSpan?_bounds {prev : Option Token} {ts : List Token} {n : Nat}
    (h : closureSpan? prev ts = some n) : 0 < n ∧ n ≤ ts.length := by
  unfold closureSpan? at h
  split at h
  next => cases h
  next t rest =>
    split at h
    next =>
      split at h
      next bar rest' =>
        have := closureRestSpan_le rest'
        split at h <;> cases h
        simp only [List.length_cons]
        omega
      next => cases h
    next =>
      have := closureRestSpan_le rest
      split at h <;> cases h
      simp only [List.length_cons]
      omega

theorem closureSpan?_of_no_bar {t : Token} {rest : List Token} (ht : t.isPunct '|' = false)
    (hrest : rest.head?.all (!isPunct '|' ·) = true) (prev : Option Token) :
    closureSpan? prev (t :: rest) = none := by
  simp only [closureSpan?, ht, Bool.false_and, Bool.false_eq_true, if_false]
  split
  next =>
    cases rest with
    | nil => rfl
    | cons bar rest => exact if_neg (Bool.eq_false_iff.1 (Bool.not_eq_true' _ ▸ hrest))
  next => rfl

/-- Without bars there are no closures. -/
theorem closureSpan?_eq_none {ts : List Token} (h : ∀ t ∈ ts, t.isPunct '|' = false)
    (prev : Option Token) : closureSpan? prev ts = none := by
  cases ts with
  | nil => rfl
  | cons t rest =>
    rw [List.forall_mem_cons] at h
    refine closureSpan?_of_no_bar h.1 ?_ prev
    cases rest with
    | nil => rfl
    | cons t' rest => exact Bool.not_eq_true' _ ▸ h.2 t' List.mem_cons_self

end Span

/-- Tokens that are copied as they stand after the token `prev` and before `rest`: an invocation, a
closure, or a function through its body. Any word counts as the name of an invocation, and after
`fn` anything up to braces as a function. -/
inductive Untouched (prev : Option Token) : List Token → List Token → Prop where
  | invocation {name : String} {bang : Token} {d : Delimiter} {inner rest : List Token} :
    bang.isPunct '!' = true → Untouched prev [.ident name, bang, .group d inner] rest
  | closure {span rest : List Token} :
    Span.closureSpan? prev (span ++ rest) = some span.length → Untouched prev span rest
  | function {head rest : List Token} {brace : Token} :
    (∀ t ∈ head, t.isBrace = false) → brace.isBrace = true →
    Untouched prev (.ident "fn" :: head ++ [brace]) rest

/-- What is copied starts with a word or a bar. -/
theorem Untouched.exists_cons {prev : Option Token} {span rest : List Token}
    (h : Untouched prev span rest) :
    ∃ t span', span = t :: span' ∧ t.isGroup = false ∧ t.isPunct '!' = false := by
  cases h with
  | invocation | function => exact ⟨_, _, rfl, rfl, rfl⟩
  | closure hclosure =>
    obtain ⟨hpos, -⟩ := Span.closureSpan?_bounds hclosure
    cases span with
    | nil => cases hpos
    | cons t span =>
      refine ⟨t, span, rfl, ?_⟩
      cases t with
      | ident | literal => exact ⟨rfl, rfl⟩
      | punct c s =>
        refine ⟨rfl, decide_eq_false ?_⟩
        rintro rfl
        cases hclosure
      | group => cases hclosure

namespace Span

theorem isInvocation_eq_true {ts : List Token} (h : isInvocation ts = true) :
    ∃ name bang d inner rest, ts = .ident name :: bang :: .group d inner :: rest ∧
      bang.isPunct '!' = true := by
  unfold isInvocation at h
  split at h
  next => exact ⟨_, _, _, _, _, rfl, h⟩
  next => cases h

/-- No invocation comes about where a part follows that could not go on with it. -/
theorem isInvocation_append_eq_false {t : Token} {xs ys : List Token}
    (hi : isInvocation (t :: xs) = false)
    (hys : ∀ t ∈ ys.head?, t.isGroup = false ∧ t.isPunct '!' = false) :
    isInvocation (t :: (xs ++ ys)) = false := by
  refine Bool.eq_false_iff.2 fun h => ?_
  obtain ⟨name, bang, d, inner, rest, heq, hbang⟩ := isInvocation_eq_true h
  rw [List.cons.injEq] at heq
  obtain ⟨rfl, heq⟩ := heq
  rcases xs with _ | ⟨t, _ | ⟨t', xs⟩⟩
  · rw [List.nil_append] at heq
    subst heq
    cases hbang.symm.trans (hys bang rfl).2
  · cases heq
    cases (hys (.group d inner) rfl).1
  · cases heq
    cases hbang.symm.trans hi

theorem nestedBlock?_eq_some {prev : Option Token} {ts inner : List Token}
    (h : nestedBlock? prev ts = some inner) :
    ∃ bang d rest, ts = .ident "guarded" :: bang :: .group d inner :: rest ∧
      bang.isPunct '!' = true ∧ follows prev ':' = false := by
  unfold nestedBlock? at h
  split at h
  next name bang d inner' rest =>
    split at h
    next hguarded =>
      simp only [Bool.and_eq_true, decide_eq_true_eq, Bool.not_eq_true'] at hguarded
      obtain ⟨⟨rfl, hbang⟩, hprev⟩ := hguarded
      cases h
      exact ⟨bang, d, rest, rfl, hbang, hprev⟩
    next => cases h
  next => cases h

theorem fnSpan?_eq_some {ts : List Token} {n : Nat} (h : fnSpan? ts = some n) :
    ∃ head brace rest, ts = .ident "fn" :: head ++ brace :: rest ∧ head.length + 2 = n ∧
      (∀ t ∈ head, t.isBrace = false) ∧ brace.isBrace = true := by
  unfold fnSpan? at h
  split at h
  next => cases h
  next t rest =>
    split at h
    next hfn =>
      cases eq_of_isIdent hfn
      obtain ⟨before, brace, after, hts, rfl, hbefore, hbrace⟩ := braceSpan?_eq_some h
      cases before with
      | nil =>
        cases hts
        cases hbrace
      | cons t' head =>
        cases hts
        exact ⟨head, brace, after, rfl, rfl, (List.forall_mem_cons.1 hbefore).2, hbrace⟩
    next => cases h

/-- An `fn` with braces after it is not left to itself. -/
theorem isBrace_of_untouchedSpan? {prev : Option Token} {rest : List Token}
    (h : untouchedSpan? prev (.ident "fn" :: rest) = none) : ∀ t ∈ rest, t.isBrace = false := by
  unfold untouchedSpan? at h
  split at h
  next => cases h
  next =>
    have hfn : fnSpan? (.ident "fn" :: rest) = none := (Option.or_eq_none_iff.1 h).2
    have hnone := List.findIdx?_eq_none_iff.1 (Option.map_eq_none_iff.1 hfn)
    exact (List.forall_mem_cons.1 hnone).2

/-- A span that is found is a beginning of the tokens. -/
theorem untouchedSpan?_eq_some {prev : Option Token} {ts : List Token} {n : Nat}
    (h : untouchedSpan? prev ts = some n) :
    ∃ span rest, ts = span ++ rest ∧ span.length = n ∧ 0 < n ∧ Untouched prev span rest := by
  unfold untouchedSpan? at h
  split at h
  next hi =>
    cases h
    obtain ⟨name, bang, d, inner, rest, rfl, hbang⟩ := isInvocation_eq_true hi
    exact ⟨[_, _, _], rest, rfl, rfl, Nat.zero_lt_succ _, .invocation hbang⟩
  next =>
    rcases Option.or_eq_some_iff.1 h with hclosure | ⟨-, hfn⟩
    · obtain ⟨hpos, hle⟩ := closureSpan?_bounds hclosure
      refine ⟨ts.take n, ts.drop n, (List.take_append_drop n ts).symm, List.length_take_of_le hle,
        hpos, .closure ?_⟩
      rw [List.take_append_drop, List.length_take_of_le hle, hclosure]
    · obtain ⟨head, brace, rest, rfl, rfl, hhead, hbrace⟩ := fnSpan?_eq_some hfn
      refine ⟨.ident "fn" :: head ++ [brace], rest, ?_, ?_, Nat.zero_lt_succ _,
        .function hhead hbrace⟩
      · rw [List.append_assoc, List.singleton_append]
      · rw [List.length_append, List.length_cons, List.length_singleton]

end Span

/-! ## Lowering -/

namespace Lowering

section

variable {handling : String} {mode : RethrowMode} {prev : Option Token} {t : Token}
  {rest : List Token}

theorem tokens_nested {inner : List Token} (h : Span.nestedBlock? prev (t :: rest) = some inner) :
    tokens handling mode prev (t :: rest) = do
      let tail ← tokens handling mode (rest.drop 1).head? (rest.drop 2)
      return nestedExpansion mode handling inner ++ tail := by
  rw [tokens.eq_def]
  simp only [h]

theorem tokens_untouched {n : Nat} (h : Span.nestedBlock? prev (t :: rest) = none)
    (h' : Span.untouchedSpan? prev (t :: rest) = some n) :
    tokens handling mode prev (t :: rest) = do
      let tail ← tokens handling mode (t :: rest.take (n - 1)).getLast? (rest.drop (n - 1))
      return t :: rest.take (n - 1) ++ tail := by
  rw [tokens.eq_def]
  simp only [h, h']

theorem tokens_return (h : Span.isInvocation (.ident "return" :: rest) = false) :
    tokens handling mode prev (.ident "return" :: rest) = do
      let value ← tokens handling mode none (rest.take (Span.exprSpan rest))
      let tail ← tokens handling mode (.ident "return" :: rest.take (Span.exprSpan rest)).getLast?
        (rest.drop (Span.exprSpan rest))
      return earlyReturn value ++ tail := by
  have hnested := Span.nestedBlock?_ident (show "return" ≠ "guarded" by decide) prev rest
  have huntouched := Span.untouchedSpan?_ident (by decide) (by decide) h prev
  rw [tokens.eq_def]
  simp only [hnested, huntouched, isIdent, decide_true, if_true]

theorem tokens_rethrow (h : Span.rethrowsHere prev (t :: rest) = true) :
    tokens handling mode prev (t :: rest) = do
      let failing ← rethrowReturn handling mode
      let tail ← tokens handling mode (some t) rest
      return failing ++ tail := by
  obtain ⟨rfl, hi⟩ := Span.rethrowsHere_eq_true h
  have hnested := Span.nestedBlock?_ident (show "rethrow" ≠ "guarded" by decide) prev rest
  have huntouched := Span.untouchedSpan?_ident (by decide) (by decide) hi prev
  have hreturn : Token.isIdent "return" (.ident "rethrow") = false := rfl
  rw [tokens.eq_def]
  simp only [hnested, huntouched, h, hreturn]
  rfl

theorem tokens_group (d : Delimiter) (inner : List Token) :
    tokens handling mode prev (.group d inner :: rest) = do
      let inner' ← tokens handling mode none inner
      let tail ← tokens handling mode (some (.group d inner)) rest
      return .group d inner' :: tail := by
  have hnested : Span.nestedBlock? prev (.group d inner :: rest) = none := rfl
  have huntouched : Span.untouchedSpan? prev (.group d inner :: rest) = none := rfl
  rw [tokens.eq_def]
  simp only [hnested, huntouched]
  rfl

theorem tokens_token (ht : t.isGroup = false) (hreturn : t.isIdent "return" = false)
    (hnested : Span.nestedBlock? prev (t :: rest) = none)
    (huntouched : Span.untouchedSpan? prev (t :: rest) = none)
    (hrethrow : Span.rethrowsHere prev (t :: rest) = false) :
    tokens handling mode prev (t :: rest) = do
      let tail ← tokens handling mode (some t) rest
      return t :: tail := by
  rw [tokens.eq_def]
  simp only [hnested, huntouched, hreturn, hrethrow]
  cases t with
  | group => cases ht
  | _ => rfl

end

/-- Induction along the places that lowering comes to, with a case for each kind of step. -/
theorem tokens_induction {motive : Option Token → List Token → Prop}
    (nil : ∀ prev, motive prev [])
    (nested : ∀ prev t rest inner, Span.nestedBlock? prev (t :: rest) = some inner →
      motive (rest.drop 1).head? (rest.drop 2) → motive prev (t :: rest))
    (untouched : ∀ prev t rest n, Span.nestedBlock? prev (t :: rest) = none →
      Span.untouchedSpan? prev (t :: rest) = some n →
      motive (t :: rest.take (n - 1)).getLast? (rest.drop (n - 1)) → motive prev (t :: rest))
    (leave : ∀ prev rest, Span.isInvocation (.ident "return" :: rest) = false →
      motive none (rest.take (Span.exprSpan rest)) →
      motive (.ident "return" :: rest.take (Span.exprSpan rest)).getLast?
        (rest.drop (Span.exprSpan rest)) →
      motive prev (.ident "return" :: rest))
    (rethrow : ∀ prev rest, Span.rethrowsHere prev (.ident "rethrow" :: rest) = true →
      motive (some (.ident "rethrow")) rest → motive prev (.ident "rethrow" :: rest))
    (group : ∀ prev d inner rest, motive none inner → motive (some (.group d inner)) rest →
      motive prev (.group d inner :: rest))
    (token : ∀ prev t rest, t.isGroup = false → t.isIdent "return" = false →
      Span.nestedBlock? prev (t :: rest) = none → Span.untouchedSpan? prev (t :: rest) = none →
      Span.rethrowsHere prev (t :: rest) = false → motive (some t) rest → motive prev (t :: rest))
    (prev : Option Token) (ts : List Token) : motive prev ts := by
  induction hsize : sizeOf ts using Nat.strongRecOn generalizing prev ts with
  | ind size ih =>
    subst hsize
    cases ts with
    | nil => exact nil prev
    | cons t rest =>
      -- All that is left after a step is part of what comes after the first token, or inside it.
      have hrest {prev : Option Token} {ts : List Token} (hts : ts.Sublist rest) :
          motive prev ts := by
        refine ih _ ?_ _ _ rfl
        have := sizeOf_le_of_sublist hts
        rw [List.cons.sizeOf_spec]
        omega
      cases hnested : Span.nestedBlock? prev (t :: rest) with
      | some inner => exact nested _ _ _ inner hnested (hrest (List.drop_sublist _ _))
      | none =>
        cases huntouched : Span.untouchedSpan? prev (t :: rest) with
        | some n => exact untouched _ _ _ n hnested huntouched (hrest (List.drop_sublist _ _))
        | none =>
          cases hreturn : t.isIdent "return" with
          | true =>
            cases Span.eq_of_isIdent hreturn
            exact leave _ _ (Span.isInvocation_of_untouchedSpan? huntouched)
              (hrest (List.take_sublist _ _)) (hrest (List.drop_sublist _ _))
          | false =>
            cases hrethrow : Span.rethrowsHere prev (t :: rest) with
            | true =>
              obtain ⟨rfl, -⟩ := Span.rethrowsHere_eq_true hrethrow
              exact rethrow _ _ hrethrow (hrest (List.Sublist.refl _))
            | false =>
              cases hgroup : t.isGroup with
              | true =>
                cases t with
                | group d inner =>
                  refine group _ _ _ _ (ih _ ?_ _ _ rfl) (hrest (List.Sublist.refl _))
                  rw [List.cons.sizeOf_spec, Token.group.sizeOf_spec]
                  omega
                | _ => cases hgroup
              | false =>
                exact token _ _ _ hgroup hreturn hnested huntouched hrethrow
                  (hrest (List.Sublist.refl _))

end Lowering

/-- Tokens of a body after the token `prev`, and the code that they become. -/
inductive Lowered (handling : String) (mode : RethrowMode) :
    Option Token → List Token → List Token → Prop where
  | nil {prev : Option Token} : Lowered handling mode prev [] []
  | nested {prev : Option Token} {bang : Token} {d : Delimiter} {inner rest tail : List Token} :
    bang.isPunct '!' = true → Span.follows prev ':' = false →
    Lowered handling mode (some (.group d inner)) rest tail →
    Lowered handling mode prev (.ident "guarded" :: bang :: .group d inner :: rest)
      (Lowering.nestedExpansion mode handling inner ++ tail)
  | untouched {prev : Option Token} {span rest tail : List Token} :
    Span.nestedBlock? prev (span ++ rest) = none → Untouched prev span rest →
    Lowered handling mode span.getLast? rest tail →
    Lowered handling mode prev (span ++ rest) (span ++ tail)
  | leave {prev : Option Token} {expr rest value tail : List Token} :
    Span.isInvocation (.ident "return" :: (expr ++ rest)) = false →
    (∀ t ∈ expr, Span.endsExpr t = false) → rest.head?.all Span.endsExpr = true →
    Lowered handling mode none expr value →
    Lowered handling mode (.ident "return" :: expr).getLast? rest tail →
    Lowered handling mode prev (.ident "return" :: (expr ++ rest))
      (Lowering.earlyReturn value ++ tail)
  | rethrow {prev : Option Token} {rest failing tail : List Token} :
    Span.rethrowsHere prev (.ident "rethrow" :: rest) = true →
    Lowering.rethrowReturn handling mode = .ok failing →
    Lowered handling mode (some (.ident "rethrow")) rest tail →
    Lowered handling mode prev (.ident "rethrow" :: rest) (failing ++ tail)
  | group {prev : Option Token} {d : Delimiter} {inner rest inner' tail : List Token} :
    Lowered handling mode none inner inner' →
    Lowered handling mode (some (.group d inner)) rest tail →
    Lowered handling mode prev (.group d inner :: rest) (.group d inner' :: tail)
  | token {prev : Option Token} {t : Token} {rest tail : List Token} :
    t.isGroup = false → t.isIdent "return" = false →
    Span.nestedBlock? prev (t :: rest) = none → Span.untouchedSpan? prev (t :: rest) = none →
    Span.rethrowsHere prev (t :: rest) = false → Lowered handling mode (some t) rest tail →
    Lowered handling mode prev (t :: rest) (t :: tail)

theorem lowered_of_tokens {handling : String} {mode : RethrowMode} {prev : Option Token}
    {ts code : List Token} (h : Lowering.tokens handling mode prev ts = .ok code) :
    Lowered handling mode prev ts code := by
  induction prev, ts using Lowering.tokens_induction generalizing code with
  | nil =>
    rw [Lowering.tokens] at h
    cases h
    exact .nil
  | nested prev t rest inner hnested ih =>
    rw [Lowering.tokens_nested hnested] at h
    obtain ⟨tail, htail, h⟩ := bind_eq_ok_iff.1 h
    cases h
    obtain ⟨bang, d, rest', heq, hbang, hprev⟩ := Span.nestedBlock?_eq_some hnested
    cases heq
    exact .nested hbang hprev (ih htail)
  | untouched prev t rest n hnested hspan ih =>
    rw [Lowering.tokens_untouched hnested hspan] at h
    obtain ⟨tail, htail, h⟩ := bind_eq_ok_iff.1 h
    cases h
    obtain ⟨span, after, heq, rfl, hpos, huntouched⟩ := Span.untouchedSpan?_eq_some hspan
    cases span with
    | nil => cases hpos
    | cons t' span =>
      rw [List.cons_append, List.cons.injEq] at heq
      obtain ⟨rfl, rfl⟩ := heq
      have ih := ih htail
      simp only [List.length_cons, Nat.add_sub_cancel, List.take_left, List.drop_left] at ih ⊢
      exact .untouched hnested huntouched ih
  | leave prev rest hi ihvalue ihtail =>
    rw [Lowering.tokens_return hi] at h
    obtain ⟨value, hvalue, h⟩ := bind_eq_ok_iff.1 h
    obtain ⟨tail, htail, h⟩ := bind_eq_ok_iff.1 h
    cases h
    have ihvalue := ihvalue hvalue
    have ihtail := ihtail htail
    simp only [Span.take_exprSpan, Span.drop_exprSpan] at ihvalue ihtail
    rw [← List.takeWhile_append_dropWhile (p := (!Span.endsExpr ·)) (l := rest)] at hi ⊢
    refine .leave hi ?_ ?_ ihvalue ihtail
    · intro t ht
      exact Bool.not_eq_true' _ ▸ List.all_eq_true.1 List.all_takeWhile t ht
    · have hhead := List.head?_dropWhile_not (!Span.endsExpr ·) rest
      cases hrest : (rest.dropWhile (!Span.endsExpr ·)).head? with
      | none => rfl
      | some t =>
        rw [hrest] at hhead
        exact Bool.not_eq_false' _ ▸ hhead
  | rethrow prev rest hrethrow ih =>
    rw [Lowering.tokens_rethrow hrethrow] at h
    obtain ⟨failing, hfailing, h⟩ := bind_eq_ok_iff.1 h
    obtain ⟨tail, htail, h⟩ := bind_eq_ok_iff.1 h
    cases h
    exact .rethrow hrethrow hfailing (ih htail)
  | group prev d inner rest ihinner ihtail =>
    rw [Lowering.tokens_group] at h
    obtain ⟨inner', hinner, h⟩ := bind_eq_ok_iff.1 h
    obtain ⟨tail, htail, h⟩ := bind_eq_ok_iff.1 h
    cases h
    exact .group (ihinner hinner) (ihtail htail)
  | token prev t rest ht hreturn hnested huntouched hrethrow ih =>
    rw [Lowering.tokens_token ht hreturn hnested huntouched hrethrow] at h
    obtain ⟨tail, htail, h⟩ := bind_eq_ok_iff.1 h
    cases h
    exact .token ht hreturn hnested huntouched hrethrow (ih htail)

theorem exists_failingReturn {handling : String} {mode : RethrowMode} {failing : List Token}
    (h : Lowering.rethrowReturn handling mode = .ok failing) :
    ∃ method, failing = Lowering.failingReturn handling method := by
  cases mode <;> cases h <;> exact ⟨_, rfl⟩

namespace Lowered

variable {handling : String} {mode : RethrowMode} {prev : Option Token} {ts code tail : List Token}

/-- Code starts with a group just where the source does. -/
theorem exists_group {d : Delimiter} {inner' : List Token}
    (h : Lowered handling mode prev ts (.group d inner' :: tail)) :
    ∃ inner rest, ts = .group d inner :: rest := by
  generalize hcode : .group d inner' :: tail = code at h
  cases h with
  | nil | nested | leave => cases hcode
  | untouched _ huntouched =>
    obtain ⟨t, span, rfl, ht, -⟩ := huntouched.exists_cons
    cases hcode
    cases ht
  | rethrow _ hfailing =>
    obtain ⟨method, rfl⟩ := exists_failingReturn hfailing
    cases hcode
  | group =>
    cases hcode
    exact ⟨_, _, rfl⟩
  | token ht =>
    cases hcode
    cases ht

theorem exists_bang {bang : Token} (h : Lowered handling mode prev ts (bang :: tail))
    (hbang : bang.isPunct '!' = true) :
    ∃ rest, ts = bang :: rest ∧ Lowered handling mode (some bang) rest tail := by
  generalize hcode : bang :: tail = code at h
  cases h with
  | nil => cases hcode
  | nested | leave | group =>
    cases hcode
    cases hbang
  | untouched _ huntouched =>
    obtain ⟨t, span, rfl, -, ht⟩ := huntouched.exists_cons
    cases hcode
    cases hbang.symm.trans ht
  | rethrow _ hfailing =>
    obtain ⟨method, rfl⟩ := exists_failingReturn hfailing
    cases hcode
    cases hbang
  | token _ _ _ _ _ htail =>
    cases hcode
    exact ⟨_, rfl, htail⟩

/-- Lowering what comes after a token makes no invocation of it. -/
theorem isInvocation_eq_false {t : Token} (h : Lowered handling mode prev ts code)
    (hi : Span.isInvocation (t :: ts) = false) : Span.isInvocation (t :: code) = false := by
  refine Bool.eq_false_iff.2 fun hcode => ?_
  obtain ⟨name, bang, d, inner', tail, heq, hbang⟩ := Span.isInvocation_eq_true hcode
  cases heq
  obtain ⟨rest, rfl, hrest⟩ := h.exists_bang hbang
  obtain ⟨inner, rest, rfl⟩ := hrest.exists_group
  cases hbang.symm.trans hi

/-- Nothing in braces comes about by lowering. -/
theorem isBrace_eq_false (h : Lowered handling mode prev ts code)
    (hts : ∀ t ∈ ts, t.isBrace = false) : ∀ t ∈ code, t.isBrace = false := by
  induction h with
  | nil => exact hts
  | nested _ _ _ ih =>
    simp only [List.forall_mem_cons] at hts
    refine List.forall_mem_append.2 ⟨?_, ih hts.2.2.2⟩
    simp [Lowering.nestedExpansion, path, pathSep, mark, parens, isBrace]
  | untouched _ _ _ ih =>
    rw [List.forall_mem_append] at hts
    exact List.forall_mem_append.2 ⟨hts.1, ih hts.2⟩
  | leave _ _ _ _ _ _ ih =>
    rw [List.forall_mem_cons, List.forall_mem_append] at hts
    refine List.forall_mem_append.2 ⟨?_, ih hts.2.2⟩
    simp [Lowering.earlyReturn, path, pathSep, parens, isBrace]
  | rethrow _ hfailing _ ih =>
    obtain ⟨method, rfl⟩ := exists_failingReturn hfailing
    refine List.forall_mem_append.2 ⟨?_, ih (List.forall_mem_cons.1 hts).2⟩
    simp [Lowering.failingReturn, path, pathSep, mark, parens, isBrace]
  | @group _ d _ _ _ _ _ _ _ ih =>
    rw [List.forall_mem_cons] at hts
    refine List.forall_mem_cons.2 ⟨?_, ih hts.2⟩
    cases d <;> exact hts.1
  | token _ _ _ _ _ _ ih =>
    rw [List.forall_mem_cons] at hts
    exact List.forall_mem_cons.2 ⟨hts.1, ih hts.2⟩

end Lowered

end Unwind
