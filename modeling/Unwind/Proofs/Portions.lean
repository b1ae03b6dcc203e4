import Unwind.Proofs.LoweringSteps

/-!
# The portions of a body

Lowering goes through a body from left to right, and what it does at a place is seen from the body
alone, before any code is made. `Lowering.portions` is the division of a body by what is done with
each part: the body is its portions as they were written (`sourceAll_portions`), and its code is
made from the same portions one by one (`tokens_eq_codeAll`), whatever the mode. Proofs about the
code of portions go by induction on `Assembled`.
-/

namespace Unwind

open Token

theorem Token.eq_of_isPunct {c : Char} {t : Token} (h : t.isPunct c = true) :
    ∃ spacing, t = .punct c spacing := by
  cases t with
  | punct c' spacing => exact ⟨spacing, by rw [of_decide_eq_true h]⟩
  | _ => cases h

/-- A part of a body by what lowering does with it. -/
inductive Portion where
  /-- A token that is no group and starts nothing. -/
  | token (t : Token)
  /-- An invocation, a closure or a function, copied as it stands. -/
  | copied (span : List Token)
  /-- A group, of which the inside is lowered. -/
  | group (d : Delimiter) (inner : List Portion)
  /-- A `return` with its expression, which is lowered. -/
  | leave (expr : List Portion)
  /-- A `rethrow` as a statement. -/
  | rethrow
  /-- A nested block. -/
  | nested (spacing : Spacing) (d : Delimiter) (inner : List Token)

namespace Portion

mutual

/-- The tokens of a portion. -/
def source : Portion → List Token
  | .token t => [t]
  | .copied span => span
  | .group d inner => [.group d (sourceAll inner)]
  | .leave expr => .ident "return" :: sourceAll expr
  | .rethrow => [.ident "rethrow"]
  | .nested spacing d inner => [.ident "guarded", .punct '!' spacing, .group d inner]

def sourceAll : List Portion → List Token
  | [] => []
  | p :: ps => source p ++ sourceAll ps

end

mutual

/-- The code that a portion becomes. -/
def code (handling : String) (mode : RethrowMode) : Portion → Except BlockError (List Token)
  | .token t => .ok [t]
  | .copied span => .ok span
  | .group d inner => do
    let inner' ← codeAll handling mode inner
    return [.group d inner']
  | .leave expr => do
    let value ← codeAll handling mode expr
    return Lowering.earlyReturn value
  | .rethrow => Lowering.rethrowReturn handling mode
  | .nested _ _ inner => .ok (Lowering.nestedExpansion mode handling inner)

def codeAll (handling : String) (mode : RethrowMode) :
    List Portion → Except BlockError (List Token)
  | [] => .ok []
  | p :: ps => do
    let first ← code handling mode p
    let rest ← codeAll handling mode ps
    return first ++ rest

end

mutual

/-- The parts of a portion that are copied as they stand, at any depth that is lowered. -/
def copies : Portion → List (List Token)
  | .copied span => [span]
  | .group _ ps | .leave ps => copiesAll ps
  | .token _ | .rethrow | .nested .. => []

def copiesAll : List Portion → List (List Token)
  | [] => []
  | p :: ps => copies p ++ copiesAll ps

end

end Portion

namespace Lowering

/-- The nested block that tokens start with. -/
def nestedPortion? (prev : Option Token) : List Token → Option Portion
  | .ident "guarded" :: .punct '!' spacing :: .group d inner :: _ =>
    if Span.follows prev ':' then none else some (.nested spacing d inner)
  | _ => none

/-- The division of a body; `prev` is the token before it. -/
def portions (prev : Option Token) (ts : List Token) : List Portion :=
  match ts with
  | [] => []
  | t :: rest =>
    match nestedPortion? prev (t :: rest) with
    | some p => p :: portions (rest.drop 1).head? (rest.drop 2)
    | none =>
      match Span.untouchedSpan? prev (t :: rest) with
      | some n =>
        let span := t :: rest.take (n - 1)
        .copied span :: portions span.getLast? (rest.drop (n - 1))
      | none =>
        if t.isIdent "return" then
          let expr := rest.take (Span.exprSpan rest)
          .leave (portions none expr) ::
            portions (t :: expr).getLast? (rest.drop (Span.exprSpan rest))
        else if Span.rethrowsHere prev (t :: rest) then
          .rethrow :: portions (some t) rest
        else
          match t with
          | .group d inner =>
            .group d (portions none inner) :: portions (some (.group d inner)) rest
          | t => .token t :: portions (some t) rest
termination_by sizeOf ts
decreasing_by
  · have := sizeOf_le_of_sublist (List.drop_sublist 2 rest)
    simp only [List.cons.sizeOf_spec]; omega
  · have := sizeOf_le_of_sublist (List.drop_sublist (n - 1) rest)
    simp only [List.cons.sizeOf_spec]; omega
  · have := sizeOf_le_of_sublist (List.take_sublist (Span.exprSpan rest) rest)
    simp only [List.cons.sizeOf_spec]; omega
  · have := sizeOf_le_of_sublist (List.drop_sublist (Span.exprSpan rest) rest)
    simp only [List.cons.sizeOf_spec]; omega
  · simp only [List.cons.sizeOf_spec]; omega
  · simp only [List.cons.sizeOf_spec, Token.group.sizeOf_spec]; omega
  · simp only [List.cons.sizeOf_spec, Token.group.sizeOf_spec]; omega
  · simp only [List.cons.sizeOf_spec]; omega

section

variable {prev : Option Token} {t : Token} {rest : List Token}

theorem nestedPortion?_eq_none {ts : List Token} (h : Span.nestedBlock? prev ts = none) :
    nestedPortion? prev ts = none := by
  unfold nestedPortion?
  split
  next =>
    split
    next => rfl
    next hprev =>
      simp [Span.nestedBlock?, isPunct, hprev] at h
  next => rfl

theorem portions_nested {spacing : Spacing} {d : Delimiter} {inner : List Token}
    (h : Span.follows prev ':' = false) :
    portions prev (.ident "guarded" :: .punct '!' spacing :: .group d inner :: rest) =
      .nested spacing d inner :: portions (some (.group d inner)) rest := by
  rw [portions.eq_def]
  simp only [nestedPortion?, h]
  rfl

theorem portions_untouched {n : Nat} (h : Span.nestedBlock? prev (t :: rest) = none)
    (h' : Span.untouchedSpan? prev (t :: rest) = some n) :
    portions prev (t :: rest) = .copied (t :: rest.take (n - 1)) ::
      portions (t :: rest.take (n - 1)).getLast? (rest.drop (n - 1)) := by
  rw [portions.eq_def]
  simp only [nestedPortion?_eq_none h, h']

theorem portions_return (h : Span.isInvocation (.ident "return" :: rest) = false) :
    portions prev (.ident "return" :: rest) =
      .leave (portions none (rest.take (Span.exprSpan rest))) ::
        portions (.ident "return" :: rest.take (Span.exprSpan rest)).getLast?
          (rest.drop (Span.exprSpan rest)) := by
  have hnested := Span.nestedBlock?_ident (show "return" ≠ "guarded" by decide) prev rest
  have huntouched := Span.untouchedSpan?_ident (by decide) (by decide) h prev
  rw [portions.eq_def]
  simp only [nestedPortion?_eq_none hnested, huntouched, isIdent, decide_true, if_true]

theorem portions_rethrow (h : Span.rethrowsHere prev (.ident "rethrow" :: rest) = true) :
    portions prev (.ident "rethrow" :: rest) =
      .rethrow :: portions (some (.ident "rethrow")) rest := by
  obtain ⟨-, hi⟩ := Span.rethrowsHere_eq_true h
  have hnested := Span.nestedBlock?_ident (show "rethrow" ≠ "guarded" by decide) prev rest
  have huntouched := Span.untouchedSpan?_ident (by decide) (by decide) hi prev
  have hreturn : Token.isIdent "return" (.ident "rethrow") = false := rfl
  rw [portions.eq_def]
  simp only [nestedPortion?_eq_none hnested, huntouched, h, hreturn]
  rfl

theorem portions_group (d : Delimiter) (inner : List Token) :
    portions prev (.group d inner :: rest) =
      .group d (portions none inner) :: portions (some (.group d inner)) rest := by
  have hnested : Span.nestedBlock? prev (.group d inner :: rest) = none := rfl
  have huntouched : Span.untouchedSpan? prev (.group d inner :: rest) = none := rfl
  rw [portions.eq_def]
  simp only [nestedPortion?_eq_none hnested, huntouched]
  rfl

theorem portions_token (ht : t.isGroup = false) (hreturn : t.isIdent "return" = false)
    (hnested : Span.nestedBlock? prev (t :: rest) = none)
    (huntouched : Span.untouchedSpan? prev (t :: rest) = none)
    (hrethrow : Span.rethrowsHere prev (t :: rest) = false) :
    portions prev (t :: rest) = .token t :: portions (some t) rest := by
  rw [portions.eq_def]
  simp only [nestedPortion?_eq_none hnested, huntouched, hreturn, hrethrow]
  cases t with
  | group => cases ht
  | _ => rfl

end

/-- The portions of a body are all of it. -/
theorem sourceAll_portions (prev : Option Token) (ts : List Token) :
    Portion.sourceAll (portions prev ts) = ts := by
  induction prev, ts using tokens_induction with
  | nil prev =>
    rw [portions]
    rfl
  | nested prev t rest inner hnested ih =>
    obtain ⟨bang, d, rest, heq, hbang, hprev⟩ := Span.nestedBlock?_eq_some hnested
    cases heq
    obtain ⟨spacing, rfl⟩ := eq_of_isPunct hbang
    rw [portions_nested hprev, Portion.sourceAll]
    exact congrArg (_ ++ ·) ih
  | untouched prev t rest n hnested hspan ih =>
    rw [portions_untouched hnested hspan, Portion.sourceAll, Portion.source, ih, List.cons_append,
      List.take_append_drop]
  | leave prev rest hi ihexpr ihtail =>
    rw [portions_return hi, Portion.sourceAll, Portion.source, ihexpr, ihtail, List.cons_append,
      List.take_append_drop]
  | rethrow prev rest hrethrow ih =>
    rw [portions_rethrow hrethrow, Portion.sourceAll, ih]
    rfl
  | group prev d inner rest ihinner ihtail =>
    rw [portions_group, Portion.sourceAll, Portion.source, ihinner, ihtail]
    rfl
  | token prev t rest ht hreturn hnested huntouched hrethrow ih =>
    rw [portions_token ht hreturn hnested huntouched hrethrow, Portion.sourceAll, ih]
    rfl

/-- The code of a body is put together from its portions. -/
theorem tokens_eq_codeAll (handling : String) (mode : RethrowMode) (prev : Option Token)
    (ts : List Token) :
    tokens handling mode prev ts = Portion.codeAll handling mode (portions prev ts) := by
  induction prev, ts using tokens_induction with
  | nil prev =>
    rw [tokens, portions]
    rfl
  | nested prev t rest inner hnested ih =>
    obtain ⟨bang, d, rest, heq, hbang, hprev⟩ := Span.nestedBlock?_eq_some hnested
    cases heq
    obtain ⟨spacing, rfl⟩ := eq_of_isPunct hbang
    rw [tokens_nested hnested, ih, portions_nested hprev]
    rfl
  | untouched prev t rest n hnested hspan ih =>
    rw [tokens_untouched hnested hspan, ih, portions_untouched hnested hspan]
    rfl
  | leave prev rest hi ihexpr ihtail =>
    rw [tokens_return hi, ihexpr, ihtail, portions_return hi, Portion.codeAll, Portion.code]
    simp only [bind_assoc, pure_bind]
  | rethrow prev rest hrethrow ih =>
    rw [tokens_rethrow hrethrow, ih, portions_rethrow hrethrow]
    rfl
  | group prev d inner rest ihinner ihtail =>
    rw [tokens_group, ihinner, ihtail, portions_group, Portion.codeAll, Portion.code]
    simp only [bind_assoc, pure_bind]
    rfl
  | token prev t rest ht hreturn hnested huntouched hrethrow ih =>
    rw [tokens_token ht hreturn hnested huntouched hrethrow, ih,
      portions_token ht hreturn hnested huntouched hrethrow]
    rfl

end Lowering

/-- Portions of a body, and the code that is put together from them. A token stays what it was: what
comes after it in the code makes no invocation and no function of it. -/
inductive Assembled (handling : String) (mode : RethrowMode) :
    List Portion → List Token → Prop where
  | nil : Assembled handling mode [] []
  | nested {spacing : Spacing} {d : Delimiter} {inner : List Token} {ps : List Portion}
    {tail : List Token} :
    Assembled handling mode ps tail →
    Assembled handling mode (.nested spacing d inner :: ps)
      (Lowering.nestedExpansion mode handling inner ++ tail)
  | copied {span : List Token} {ps : List Portion} {tail : List Token} :
    Assembled handling mode ps tail → Assembled handling mode (.copied span :: ps) (span ++ tail)
  | leave {expr : List Portion} {value : List Token} {ps : List Portion} {tail : List Token} :
    Assembled handling mode expr value → Assembled handling mode ps tail →
    Assembled handling mode (.leave expr :: ps) (Lowering.earlyReturn value ++ tail)
  | rethrow {failing : List Token} {ps : List Portion} {tail : List Token} :
    Lowering.rethrowReturn handling mode = .ok failing → Assembled handling mode ps tail →
    Assembled handling mode (.rethrow :: ps) (failing ++ tail)
  | group {d : Delimiter} {inner : List Portion} {inner' : List Token} {ps : List Portion}
    {tail : List Token} :
    Assembled handling mode inner inner' → Assembled handling mode ps tail →
    Assembled handling mode (.group d inner :: ps) (.group d inner' :: tail)
  | token {t : Token} {ps : List Portion} {tail : List Token} :
    t.isGroup = false → t.isIdent "return" = false → Span.isInvocation (t :: tail) = false →
    (t = .ident "fn" → ∀ t ∈ tail, t.isBrace = false) → Assembled handling mode ps tail →
    Assembled handling mode (.token t :: ps) (t :: tail)

theorem assembled_of_tokens {handling : String} {mode : RethrowMode} {prev : Option Token}
    {ts code : List Token} (h : Lowering.tokens handling mode prev ts = .ok code) :
    Assembled handling mode (Lowering.portions prev ts) code := by
  induction prev, ts using Lowering.tokens_induction generalizing code with
  | nil prev =>
    rw [Lowering.tokens] at h
    cases h
    rw [Lowering.portions]
    exact .nil
  | nested prev t rest inner hnested ih =>
    rw [Lowering.tokens_nested hnested] at h
    obtain ⟨tail, htail, h⟩ := bind_eq_ok_iff.1 h
    cases h
    obtain ⟨bang, d, rest, heq, hbang, hprev⟩ := Span.nestedBlock?_eq_some hnested
    cases heq
    obtain ⟨spacing, rfl⟩ := eq_of_isPunct hbang
    rw [Lowering.portions_nested hprev]
    exact .nested (ih htail)
  | untouched prev t rest n hnested hspan ih =>
    rw [Lowering.tokens_untouched hnested hspan] at h
    obtain ⟨tail, htail, h⟩ := bind_eq_ok_iff.1 h
    cases h
    rw [Lowering.portions_untouched hnested hspan]
    exact .copied (ih htail)
  | leave prev rest hi ihexpr ihtail =>
    rw [Lowering.tokens_return hi] at h
    obtain ⟨value, hvalue, h⟩ := bind_eq_ok_iff.1 h
    obtain ⟨tail, htail, h⟩ := bind_eq_ok_iff.1 h
    cases h
    rw [Lowering.portions_return hi]
    exact .leave (ihexpr hvalue) (ihtail htail)
  | rethrow prev rest hrethrow ih =>
    rw [Lowering.tokens_rethrow hrethrow] at h
    obtain ⟨failing, hfailing, h⟩ := bind_eq_ok_iff.1 h
    obtain ⟨tail, htail, h⟩ := bind_eq_ok_iff.1 h
    cases h
    rw [Lowering.portions_rethrow hrethrow]
    exact .rethrow hfailing (ih htail)
  | group prev d inner rest ihinner ihtail =>
    rw [Lowering.tokens_group] at h
    obtain ⟨inner', hinner, h⟩ := bind_eq_ok_iff.1 h
    obtain ⟨tail, htail, h⟩ := bind_eq_ok_iff.1 h
    cases h
    rw [Lowering.portions_group]
    exact .group (ihinner hinner) (ihtail htail)
  | token prev t rest ht hreturn hnested huntouched hrethrow ih =>
    rw [Lowering.tokens_token ht hreturn hnested huntouched hrethrow] at h
    obtain ⟨tail, htail, h⟩ := bind_eq_ok_iff.1 h
    cases h
    rw [Lowering.portions_token ht hreturn hnested huntouched hrethrow]
    have hlowered := lowered_of_tokens htail
    have hi := hlowered.isInvocation_eq_false (Span.isInvocation_of_untouchedSpan? huntouched)
    refine .token ht hreturn hi ?_ (ih htail)
    rintro rfl
    exact hlowered.isBrace_eq_false (Span.isBrace_of_untouchedSpan? huntouched)

end Unwind
