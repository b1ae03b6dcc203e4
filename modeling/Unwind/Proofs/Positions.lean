import Unwind.Proofs.KeptText

/-!
# Positions in a body

Lowering can be done with one list of tokens and a position in it, where spans are cut out by their
ends. A cut that is out of range fails, and so does a run that takes more rounds than it is given.
Here are the recognisers and the lowering of a body in this form, at a `Cursor`. They never fail:
each recogniser comes to the same as on the tokens from the position on, with the token before it,
and so does lowering (`Cursor.completes`). So spans end inside the list, and every round gets on in
the text.
-/

namespace Unwind

open Token

namespace Cursor

/-- The tokens from position `i` up to position `j`. It fails if these are out of order or the
second one is past the end. -/
def slice? (ts : List Token) (i j : Nat) : Option (List Token) :=
  if i ≤ j ∧ j ≤ ts.length then some ((ts.drop i).take (j - i)) else none

/-- Whether there is a token at a position and it passes a test. -/
def isAt (test : Token → Bool) (ts : List Token) (i : Nat) : Bool :=
  ts[i]?.any test

/-- Whether there is a token before a position and it passes a test. -/
def isBefore (test : Token → Bool) (ts : List Token) (i : Nat) : Bool :=
  decide (0 < i) && isAt test ts (i - 1)

def isWord : Token → Bool
  | .ident _ => true
  | _ => false

def isInvocation (ts : List Token) (i : Nat) : Bool :=
  isAt isWord ts i && isAt (isPunct '!') ts (i + 1) && isAt isGroup ts (i + 2)

def nestedBlock? (ts : List Token) (i : Nat) : Option (List Token) :=
  if isAt (isIdent "guarded") ts i && isInvocation ts i && !isBefore (isPunct ':') ts i then
    match ts[i + 2]? with
    | some (.group _ inner) => some inner
    | _ => none
  else
    none

def rethrowsHere (ts : List Token) (i : Nat) : Bool :=
  isAt (isIdent "rethrow") ts i &&
    !(isBefore (isPunct '.') ts i || isBefore (isPunct ':') ts i) && ts[i + 1]?.all Span.endsExpr

def exprLength? (ts : List Token) (i : Nat) : Option Nat := do
  let rest ← slice? ts i ts.length
  return (rest.findIdx? Span.endsExpr).getD (ts.length - i)

/-- The first position from `i` on at which a token passes a test, or one that is past the end. -/
def seek (test : Token → Bool) (ts : List Token) (i : Nat) : Nat :=
  if i < ts.length ∧ isAt test ts i = false then seek test ts (i + 1) else i
termination_by ts.length - i

/-- Whether a bar at a position starts the parameters of a closure. -/
def opensClosure? (ts : List Token) : (i : Nat) → Option Bool
  | 0 => some true
  | i + 1 => ts[i]?.map fun t => Span.canOpenClosure (some t)

/-- The end of a closure of which the body starts at a position, which can be past the end. -/
def closureBodyEnd? (ts : List Token) (i : Nat) : Option Nat :=
  if isAt (isPunct '-') ts i && isAt (isPunct '>') ts (i + 1) then
    let brace := seek isBrace ts i
    some (if brace < ts.length then brace + 1 else ts.length)
  else if ts.length ≤ i then
    some ts.length
  else
    (exprLength? ts i).map (i + ·)

/-- The end of the closure with its first bar at a position, if there is one. -/
def closureEnd? (ts : List Token) (bar : Nat) : Option (Option Nat) := do
  if !isAt (isPunct '|') ts bar then
    return none
  if !(← opensClosure? ts bar) then
    return none
  (closureBodyEnd? ts (seek (isPunct '|') ts (bar + 1) + 1)).map some

/-- The length of the closure at a position, if there is one. -/
def closureLength? (ts : List Token) (i : Nat) : Option (Option Nat) := do
  let stop ← closureEnd? ts (if isAt (isIdent "move") ts i then i + 1 else i)
  return stop.map (· - i)

/-- The length of the function at a position, if there is one. -/
def fnLength? (ts : List Token) (i : Nat) : Option (Option Nat) := do
  if !isAt (isIdent "fn") ts i then
    return none
  let rest ← slice? ts i ts.length
  return (rest.findIdx? isBrace).map (· + 1)

/-- The length of what is left alone at a position, if there is such a span. -/
def untouchedLength? (ts : List Token) (i : Nat) : Option (Option Nat) := do
  if isInvocation ts i then
    return some 3
  match ← closureLength? ts i with
  | some n => return some n
  | none => fnLength? ts i

/-- Lower the tokens from a position on, in at most `budget` rounds one after another. -/
def lower? (handling : String) (mode : RethrowMode) :
    (budget : Nat) → (ts : List Token) → (i : Nat) → ExceptT BlockError Option (List Token)
  | 0, _, _ => ExceptT.mk none
  | budget + 1, ts, i => do
    match ts[i]? with
    | none => return []
    | some t =>
      match nestedBlock? ts i with
      | some inner =>
        let tail ← lower? handling mode budget ts (i + 3)
        return Lowering.nestedExpansion mode handling inner ++ tail
      | none =>
        match ← untouchedLength? ts i with
        | some n =>
          let copied ← slice? ts i (i + n)
          let tail ← lower? handling mode budget ts (i + n)
          return copied ++ tail
        | none =>
          if t.isIdent "return" then
            let length ← exprLength? ts (i + 1)
            let expr ← slice? ts (i + 1) (i + 1 + length)
            let value ← lower? handling mode budget expr 0
            let tail ← lower? handling mode budget ts (i + 1 + length)
            return Lowering.earlyReturn value ++ tail
          else if rethrowsHere ts i then
            let failing ← Lowering.rethrowReturn handling mode
            let tail ← lower? handling mode budget ts (i + 1)
            return failing ++ tail
          else
            match t with
            | .group d inner =>
              let inner' ← lower? handling mode budget inner 0
              let tail ← lower? handling mode budget ts (i + 1)
              return .group d inner' :: tail
            | t =>
              let tail ← lower? handling mode budget ts (i + 1)
              return t :: tail

/-! ## Positions and what comes after them -/

variable {test : Token → Bool} (before rest : List Token)

theorem getElem?_at (k : Nat) : (before ++ rest)[before.length + k]? = rest[k]? := by
  rw [List.getElem?_append_right (Nat.le_add_right _ _), Nat.add_sub_cancel_left]

theorem getElem?_here (t : Token) : (before ++ t :: rest)[before.length]? = some t :=
  getElem?_at before (t :: rest) 0

theorem isAt_at (k : Nat) : isAt test (before ++ rest) (before.length + k) = isAt test rest k := by
  rw [isAt, getElem?_at]
  rfl

theorem isAt_here : isAt test (before ++ rest) before.length = isAt test rest 0 :=
  isAt_at before rest 0

theorem isBefore_at : isBefore test (before ++ rest) before.length = before.getLast?.any test := by
  cases before with
  | nil => rfl
  | cons t before =>
    rw [isBefore, isAt, List.getElem?_append_left (Nat.lt_succ_self _), ← List.getLast?_eq_getElem?]
    rfl

theorem slice?_at {n : Nat} (h : n ≤ rest.length) :
    slice? (before ++ rest) before.length (before.length + n) = some (rest.take n) := by
  have hlength : before.length + n ≤ (before ++ rest).length := by
    rw [List.length_append]
    exact Nat.add_le_add_left h _
  rw [slice?, if_pos ⟨Nat.le_add_right _ _, hlength⟩, List.drop_left, Nat.add_sub_cancel_left]

theorem slice?_rest :
    slice? (before ++ rest) before.length (before ++ rest).length = some rest := by
  rw [List.length_append, slice?_at _ _ (Nat.le_refl _), List.take_length]

theorem findIdx?_getD_length : (rest.findIdx? test).getD rest.length =
    (rest.takeWhile (!test ·)).length := by
  induction rest with
  | nil => rfl
  | cons t rest ih =>
    rw [List.findIdx?_cons, List.takeWhile_cons]
    cases test t with
    | true => rfl
    | false =>
      refine Eq.trans ?_ (congrArg (· + 1) ih)
      cases rest.findIdx? test <;> rfl

theorem exprLength?_at :
    exprLength? (before ++ rest) before.length = some (Span.exprSpan rest) := by
  rw [exprLength?, slice?_rest, List.length_append, Nat.add_sub_cancel_left]
  exact congrArg some (findIdx?_getD_length rest)

theorem seek_at :
    seek test (before ++ rest) before.length =
      before.length + (rest.takeWhile (!test ·)).length := by
  induction rest generalizing before with
  | nil =>
    rw [List.append_nil, seek, if_neg fun h => Nat.lt_irrefl _ h.1]
    rfl
  | cons t rest ih =>
    have hlt : before.length < (before ++ t :: rest).length := by
      rw [List.length_append, List.length_cons]
      omega
    have ht : isAt test (before ++ t :: rest) before.length = test t := isAt_here before (t :: rest)
    rw [seek, ht, List.takeWhile_cons]
    cases htest : test t with
    | true => exact if_neg fun h => Bool.noConfusion h.2
    | false =>
      have hnext := ih (before ++ [t])
      rw [List.append_assoc, List.length_append] at hnext
      rw [if_pos ⟨hlt, rfl⟩]
      refine hnext.trans ?_
      exact Nat.add_assoc _ _ _ |>.trans (congrArg _ (Nat.add_comm _ _))

/-! ## Recognisers -/

theorem isInvocation_at :
    isInvocation (before ++ rest) before.length = Span.isInvocation rest := by
  rw [isInvocation, isAt_here, isAt_at, isAt_at]
  rcases rest with _ | ⟨t, _ | ⟨bang, _ | ⟨t', rest⟩⟩⟩
  · rfl
  · cases t <;> rfl
  · cases t <;> exact Bool.and_false _
  · cases t with
    | ident name =>
      cases t' with
      | group => exact Bool.and_true _
      | _ => exact Bool.and_false _
    | _ => rfl

theorem nestedBlock?_at :
    nestedBlock? (before ++ rest) before.length =
      Span.nestedBlock? before.getLast? rest := by
  rw [nestedBlock?, isAt_here, isInvocation_at, isBefore_at, getElem?_at]
  cases hi : Span.isInvocation rest with
  | false =>
    rw [Span.nestedBlock?_eq_none hi, Bool.and_false, Bool.false_and]
    rfl
  | true =>
    obtain ⟨name, bang, d, inner, rest, rfl, hbang⟩ := Span.isInvocation_eq_true hi
    rw [Span.nestedBlock?, hbang]
    rfl

theorem rethrowsHere_at (t : Token) :
    rethrowsHere (before ++ t :: rest) before.length =
      Span.rethrowsHere before.getLast? (t :: rest) := by
  rw [rethrowsHere, isAt_here, isBefore_at, isBefore_at, getElem?_at, Bool.not_or,
    ← Bool.and_assoc]
  cases rest <;> rfl

/-- The body of a closure, by what stands at its start. -/
theorem closureBodySpan_eq :
    Span.closureBodySpan rest =
      if isAt (isPunct '-') rest 0 && isAt (isPunct '>') rest 1 then
        (Span.braceSpan? rest).getD rest.length
      else Span.exprSpan rest := by
  rcases rest with _ | ⟨dash, _ | ⟨angle, rest⟩⟩
  · rfl
  · have hangle : (isAt (isPunct '-') [dash] 0 && isAt (isPunct '>') [dash] 1) = false :=
      Bool.and_false _
    rw [hangle]
    rfl
  · rfl

theorem braceSpan?_getD :
    (Span.braceSpan? rest).getD rest.length =
      if (rest.takeWhile (!isBrace ·)).length < rest.length then
        (rest.takeWhile (!isBrace ·)).length + 1
      else rest.length := by
  rw [Span.braceSpan?, ← findIdx?_getD_length]
  cases h : rest.findIdx? isBrace with
  | none => exact (if_neg (Nat.lt_irrefl _)).symm
  | some i =>
    obtain ⟨hlt, -⟩ := List.findIdx?_eq_some_iff_getElem.1 h
    exact (if_pos hlt).symm

theorem closureBodyEnd?_at :
    closureBodyEnd? (before ++ rest) before.length =
      some (before.length + Span.closureBodySpan rest) := by
  rw [closureBodyEnd?, isAt_here, isAt_at, seek_at, exprLength?_at, closureBodySpan_eq,
    List.length_append]
  split
  · rw [braceSpan?_getD]
    refine congrArg some ?_
    split <;> split <;> omega
  · split
    · have := Span.exprSpan_le rest
      refine congrArg some ?_
      omega
    · rfl

theorem opensClosure?_at :
    opensClosure? (before ++ rest) before.length = some (Span.canOpenClosure before.getLast?) := by
  cases before with
  | nil => rfl
  | cons t before =>
    have hlast : (t :: before)[before.length]? = (t :: before).getLast? :=
      List.getLast?_eq_getElem?.symm
    rw [List.length_cons, opensClosure?, List.getElem?_append_left (Nat.lt_succ_self _), hlast,
      List.getLast?_cons]
    rfl

theorem closureBodyEnd?_past {ts : List Token} {i : Nat} (h : ts.length ≤ i) :
    closureBodyEnd? ts i = some ts.length := by
  have hdash : isAt (isPunct '-') ts i = false := by
    rw [isAt, List.getElem?_eq_none h]
    rfl
  rw [closureBodyEnd?, hdash, Bool.false_and, if_neg Bool.false_ne_true, if_pos h]

/-- What is left of a closure after its first bar. -/
theorem closureRest_at :
    closureBodyEnd? (before ++ rest) (seek (isPunct '|') (before ++ rest) before.length + 1) =
      some (before.length + Span.closureRestSpan rest) := by
  have hsplit := List.takeWhile_append_dropWhile (p := (!isPunct '|' ·)) (l := rest)
  rw [seek_at, Span.closureRestSpan]
  cases hbody : rest.dropWhile (!isPunct '|' ·) with
  | nil =>
    rw [hbody, List.append_nil] at hsplit
    rw [hsplit, ← List.length_append]
    exact closureBodyEnd?_past (Nat.le_succ _)
  | cons bar body =>
    rw [hbody] at hsplit
    generalize rest.takeWhile (!isPunct '|' ·) = params at hsplit
    subst hsplit
    have hend := closureBodyEnd?_at (before ++ params ++ [bar]) body
    simp only [List.append_assoc, List.singleton_append, List.length_append,
      List.length_singleton] at hend
    rw [Nat.add_assoc, hend, List.length_append, List.length_cons]
    refine congrArg some ?_
    simp only
    omega

theorem closureEnd?_nil : closureEnd? before before.length = some none := by
  have hbar : isAt (isPunct '|') before before.length = false := by
    rw [isAt, List.getElem?_eq_none (Nat.le_refl _)]
    rfl
  rw [closureEnd?, hbar]
  rfl

theorem closureEnd?_at (bar : Token) :
    closureEnd? (before ++ bar :: rest) before.length =
      some (if bar.isPunct '|' && Span.canOpenClosure before.getLast? then
        some (before.length + (1 + Span.closureRestSpan rest)) else none) := by
  have hbar : isAt (isPunct '|') (before ++ bar :: rest) before.length = bar.isPunct '|' :=
    isAt_here before (bar :: rest)
  have hend := closureRest_at (before ++ [bar]) rest
  rw [List.append_assoc, List.length_append, List.length_singleton, Nat.add_assoc] at hend
  rw [closureEnd?, hbar, opensClosure?_at]
  cases bar.isPunct '|' with
  | false => rfl
  | true =>
    cases Span.canOpenClosure before.getLast? with
    | false => rfl
    | true => exact congrArg (Option.map some) hend

theorem closureLength?_at :
    closureLength? (before ++ rest) before.length =
      some (Span.closureSpan? before.getLast? rest) := by
  rw [closureLength?, isAt_here]
  rcases rest with _ | ⟨t, rest⟩
  · have hhere : isAt (isIdent "move") [] 0 = false := rfl
    rw [hhere, if_neg Bool.false_ne_true, List.append_nil, closureEnd?_nil]
    rfl
  have hhere : isAt (isIdent "move") (t :: rest) 0 = t.isIdent "move" := rfl
  rw [hhere, Span.closureSpan?.eq_def]
  cases hmove : t.isIdent "move" with
  | false =>
    rw [if_neg Bool.false_ne_true, closureEnd?_at]
    simp only [hmove, Bool.false_eq_true, if_false]
    split
    · exact congrArg (some <| some ·) (Nat.add_sub_cancel_left _ _)
    · rfl
  | true =>
    cases Span.eq_of_isIdent hmove
    have hlength : before.length + 1 = (before ++ [Token.ident "move"]).length := by
      rw [List.length_append, List.length_singleton]
    rcases rest with _ | ⟨bar, rest⟩
    · rw [if_pos rfl, hlength, closureEnd?_nil]
      rfl
    · have hopens : Span.canOpenClosure (some (.ident "move")) = true := rfl
      rw [if_pos rfl, List.append_cons, hlength, closureEnd?_at, List.getLast?_concat, hopens,
        Bool.and_true, ← hlength]
      simp only [hmove, if_true]
      split
      · refine congrArg (some <| some ·) ?_
        simp only
        omega
      · rfl

theorem fnLength?_at :
    fnLength? (before ++ rest) before.length = some (Span.fnSpan? rest) := by
  rw [fnLength?, isAt_here, slice?_rest]
  cases rest with
  | nil => rfl
  | cons t rest =>
    rw [Span.fnSpan?]
    have ht : isAt (isIdent "fn") (t :: rest) 0 = t.isIdent "fn" := rfl
    rw [ht]
    cases t.isIdent "fn" <;> rfl

theorem untouchedLength?_at :
    untouchedLength? (before ++ rest) before.length =
      some (Span.untouchedSpan? before.getLast? rest) := by
  rw [untouchedLength?, isInvocation_at, closureLength?_at, fnLength?_at, Span.untouchedSpan?]
  cases Span.isInvocation rest with
  | true => rfl
  | false => cases Span.closureSpan? before.getLast? rest <;> rfl

/-! ## Lowering -/

theorem glyphs_length_pos (t : Token) : 0 < t.glyphs.length := by
  cases t <;> exact Nat.succ_pos _

section Bind

variable {α β : Type}

/-- What does not fail goes on with its value. -/
theorem liftM_bind (a : α) (f : α → ExceptT BlockError Option β) :
    ((liftM (some a) : ExceptT BlockError Option α) >>= f) = f a :=
  rfl

theorem bind_eq_mk {x : ExceptT BlockError Option α} {a : Except BlockError α}
    {f : α → ExceptT BlockError Option β} {g : α → Except BlockError β}
    (hx : x = ExceptT.mk (some a)) (hf : ∀ v, f v = ExceptT.mk (some (g v))) :
    (x >>= f) = ExceptT.mk (some (a >>= g)) := by
  subst hx
  cases a with
  | error e => rfl
  | ok v => exact hf v

end Bind

/-- Text from a place on is lowered right at every position it can stand at: no cut fails, and there
is at most one round for each piece of it and one at its end. -/
def Completes (handling : String) (mode : RethrowMode) (prev : Option Token) (rest : List Token) :
    Prop :=
  ∀ before budget, before.getLast? = prev → (glyphsOf rest).length ≤ budget →
    lower? handling mode (budget + 1) (before ++ rest) before.length =
      ExceptT.mk (some (Lowering.tokens handling mode prev rest))

variable {handling : String} {mode : RethrowMode}

/-- Lowering of a part with nothing before it. -/
theorem Completes.inside {ts : List Token} (h : Completes handling mode none ts) {budget : Nat}
    (hbudget : (glyphsOf ts).length < budget) :
    lower? handling mode budget ts 0 =
      ExceptT.mk (some (Lowering.tokens handling mode none ts)) := by
  cases budget with
  | zero => cases hbudget
  | succ budget => exact h [] budget rfl (Nat.le_of_lt_succ hbudget)

/-- Lowering of what comes after a span. -/
theorem Completes.after {t : Token} (span : List Token) {rest : List Token}
    (h : Completes handling mode (t :: span).getLast? rest) (before : List Token) {budget : Nat}
    (hbudget : (glyphsOf (t :: span ++ rest)).length ≤ budget) :
    lower? handling mode budget (before ++ (t :: span ++ rest))
        (before.length + (t :: span).length) =
      ExceptT.mk (some (Lowering.tokens handling mode (t :: span).getLast? rest)) := by
  have hpos := glyphs_length_pos t
  rw [List.cons_append, glyphsOf, glyphsOf_append, List.length_append, List.length_append]
    at hbudget
  rw [← List.append_assoc, ← List.length_append]
  cases budget with
  | zero => omega
  | succ budget =>
    refine h (before ++ t :: span) budget ?_ (by omega)
    rw [List.getLast?_append, List.getLast?_cons]
    rfl

theorem Completes.untouched {t : Token} {span rest : List Token}
    (h : Completes handling mode (t :: span).getLast? rest) {prev : Option Token}
    (hnested : Span.nestedBlock? prev (t :: (span ++ rest)) = none)
    (hspan : Span.untouchedSpan? prev (t :: (span ++ rest)) = some (span.length + 1)) :
    Completes handling mode prev (t :: (span ++ rest)) := by
  rintro before budget rfl hbudget
  have htail := h.after span before hbudget
  have hcopied : slice? (before ++ t :: (span ++ rest)) before.length
      (before.length + (span.length + 1)) = some (t :: span) := by
    rw [slice?_at, List.take_succ_cons, List.take_left]
    rw [List.length_cons, List.length_append]
    omega
  rw [Lowering.tokens_untouched hnested hspan, Nat.add_sub_cancel, List.take_left, List.drop_left,
    lower?, getElem?_here]
  simp only [nestedBlock?_at, hnested, untouchedLength?_at, hspan, hcopied, liftM_bind]
  exact bind_eq_mk htail fun tail => rfl

theorem Completes.leave {rest : List Token}
    (hi : Span.isInvocation (.ident "return" :: rest) = false)
    (hexpr : Completes handling mode none (rest.take (Span.exprSpan rest)))
    (hrest : Completes handling mode
      (.ident "return" :: rest.take (Span.exprSpan rest)).getLast?
      (rest.drop (Span.exprSpan rest))) (prev : Option Token) :
    Completes handling mode prev (.ident "return" :: rest) := by
  rintro before budget rfl hbudget
  have hnested := Span.nestedBlock?_ident (show "return" ≠ "guarded" by decide)
    before.getLast? rest
  have huntouched := Span.untouchedSpan?_ident (by decide) (by decide) hi before.getLast?
  have hlength := exprLength?_at (before ++ [.ident "return"]) rest
  have hslice := slice?_at (before ++ [.ident "return"]) rest (Span.exprSpan_le rest)
  rw [List.append_assoc, List.length_append, List.length_singleton, List.singleton_append]
    at hlength hslice
  have hsplit : .ident "return" :: rest.take (Span.exprSpan rest) ++
      rest.drop (Span.exprSpan rest) = .ident "return" :: rest := by
    rw [List.cons_append, List.take_append_drop]
  rw [← hsplit] at hbudget
  have htail := hrest.after _ before hbudget
  have hlt : (glyphsOf (rest.take (Span.exprSpan rest))).length < budget := by
    rw [List.cons_append, glyphsOf, glyphsOf_append, List.length_append, List.length_append]
      at hbudget
    have := glyphs_length_pos (.ident "return")
    omega
  rw [List.length_cons, List.length_take_of_le (Span.exprSpan_le rest), List.cons_append,
    List.take_append_drop, Nat.add_comm _ 1, ← Nat.add_assoc] at htail
  rw [Lowering.tokens_return hi, lower?, getElem?_here]
  simp only [nestedBlock?_at, hnested, untouchedLength?_at, huntouched, hlength, hslice, liftM_bind]
  exact bind_eq_mk (hexpr.inside hlt) fun value => bind_eq_mk htail fun tail => rfl

theorem completes (prev : Option Token) (rest : List Token) :
    Completes handling mode prev rest := by
  induction prev, rest using Lowering.tokens_induction with
  | nil prev =>
    intro before budget _ _
    rw [lower?, List.append_nil, List.getElem?_eq_none (Nat.le_refl _), Lowering.tokens]
    rfl
  | nested prev t rest inner hnested ih =>
    obtain ⟨bang, d, rest, heq, hbang, -⟩ := Span.nestedBlock?_eq_some hnested
    cases heq
    rintro before budget rfl hbudget
    have htail := Completes.after [bang, .group d inner] ih before hbudget
    rw [Lowering.tokens_nested hnested, lower?, getElem?_here]
    simp only [nestedBlock?_at, hnested]
    exact bind_eq_mk htail fun tail => rfl
  | untouched prev t rest n hnested hspan ih =>
    obtain ⟨span, rest', heq, rfl, hpos, -⟩ := Span.untouchedSpan?_eq_some hspan
    cases span with
    | nil => cases hpos
    | cons t' span =>
      rw [List.cons_append, List.cons.injEq] at heq
      obtain ⟨rfl, rfl⟩ := heq
      rw [List.length_cons, Nat.add_sub_cancel, List.take_left, List.drop_left] at ih
      exact ih.untouched hnested hspan
  | leave prev rest hi ihexpr ihrest => exact .leave hi ihexpr ihrest prev
  | rethrow prev rest hrethrow ih =>
    rintro before budget rfl hbudget
    have htail := Completes.after [] ih before hbudget
    obtain ⟨-, hi⟩ := Span.rethrowsHere_eq_true hrethrow
    have hnested := Span.nestedBlock?_ident (show "rethrow" ≠ "guarded" by decide)
      before.getLast? rest
    have huntouched := Span.untouchedSpan?_ident (by decide) (by decide) hi before.getLast?
    have hreturn : Token.isIdent "return" (.ident "rethrow") = false := rfl
    rw [Lowering.tokens_rethrow hrethrow, lower?, getElem?_here]
    simp only [nestedBlock?_at, hnested, untouchedLength?_at, huntouched, hreturn, rethrowsHere_at,
      hrethrow, liftM_bind]
    exact bind_eq_mk rfl fun failing => bind_eq_mk htail fun tail => rfl
  | group prev d inner rest ihinner ihrest =>
    rintro before budget rfl hbudget
    have hlt : (glyphsOf inner).length < budget := by
      rw [glyphsOf, List.length_append, glyphs, List.length_append, List.length_cons] at hbudget
      omega
    have htail := Completes.after [] ihrest before hbudget
    have huntouched : Span.untouchedSpan? before.getLast? (.group d inner :: rest) = none := rfl
    rw [Lowering.tokens_group, lower?, getElem?_here]
    simp only [nestedBlock?_at, untouchedLength?_at, huntouched, rethrowsHere_at, liftM_bind]
    exact bind_eq_mk (ihinner.inside hlt) fun inner' => bind_eq_mk htail fun tail => rfl
  | token prev t rest ht hreturn hnested huntouched hrethrow ih =>
    rintro before budget rfl hbudget
    have htail := Completes.after [] ih before hbudget
    rw [Lowering.tokens_token ht hreturn hnested huntouched hrethrow, lower?, getElem?_here]
    simp only [nestedBlock?_at, hnested, untouchedLength?_at, huntouched, hreturn, rethrowsHere_at,
      hrethrow, liftM_bind]
    cases t with
    | group => cases ht
    | _ => exact bind_eq_mk htail fun tail => rfl

theorem exists_at {ts : List Token} {i : Nat} (h : i ≤ ts.length) :
    ∃ before rest, ts = before ++ rest ∧ before.length = i :=
  ⟨ts.take i, ts.drop i, (List.take_append_drop i ts).symm, List.length_take_of_le h⟩

end Cursor

/-- Spans end in the list they are in, and lowering gets to the end of every body. At each position
the scan that cuts spans out by their ends does not fail and recognises what is recognised in the
tokens from there on: closures and functions have at least one token and do not go past the end, an
invocation has three tokens, and an expression does not go past the end, even where it starts there.
So the lowering that goes by positions does not fail either. It takes no more rounds one after
another than there are pieces of text and one, and it gives the code of the body. -/
theorem spans_stay_in_range (ts : List Token) :
    (∀ i < ts.length,
      Cursor.closureLength? ts i =
        some (Span.closureSpan? (ts.take i).getLast? (ts.drop i)) ∧
      (∀ n, Cursor.closureLength? ts i = some (some n) → 1 ≤ n ∧ n ≤ ts.length - i) ∧
      Cursor.fnLength? ts i = some (Span.fnSpan? (ts.drop i)) ∧
      (∀ n, Cursor.fnLength? ts i = some (some n) → 1 ≤ n ∧ n ≤ ts.length - i) ∧
      Cursor.isInvocation ts i = Span.isInvocation (ts.drop i) ∧
      (Cursor.isInvocation ts i = true → 3 ≤ ts.length - i)) ∧
    (∀ i ≤ ts.length,
      Cursor.exprLength? ts i = some (Span.exprSpan (ts.drop i)) ∧
      Span.exprSpan (ts.drop i) ≤ ts.length - i) ∧
    ∀ handling mode budget, (glyphsOf ts).length < budget →
      Cursor.lower? handling mode budget ts 0 =
        ExceptT.mk (some (lowerBody handling mode ts)) := by
  refine ⟨fun i hi => ?_, fun i hi => ?_, fun handling mode budget hbudget => ?_⟩
  · obtain ⟨before, rest, rfl, rfl⟩ := Cursor.exists_at (Nat.le_of_lt hi)
    rw [Cursor.closureLength?_at, Cursor.fnLength?_at, Cursor.isInvocation_at, List.take_left,
      List.drop_left, List.length_append, Nat.add_sub_cancel_left]
    refine ⟨rfl, fun n hn => ?_, rfl, fun n hn => ?_, rfl, fun hinv => ?_⟩
    · exact Span.closureSpan?_bounds (Option.some.inj hn)
    · obtain ⟨head, brace, rest, rfl, rfl, -, -⟩ := Span.fnSpan?_eq_some (Option.some.inj hn)
      rw [List.length_append, List.length_cons, List.length_cons]
      omega
    · obtain ⟨name, bang, d, inner, rest, rfl, -⟩ := Span.isInvocation_eq_true hinv
      exact Nat.le_add_left 3 rest.length
  · obtain ⟨before, rest, rfl, rfl⟩ := Cursor.exists_at hi
    rw [Cursor.exprLength?_at, List.drop_left, List.length_append, Nat.add_sub_cancel_left]
    exact ⟨rfl, Span.exprSpan_le rest⟩
  · exact (Cursor.completes none ts).inside hbudget

/-- Closures that break off: each reaches to the end of the list and is copied. -/
theorem spans_stay_in_range_broken_off :
    ∀ ts ∈ [[mark '|'], [.ident "move", mark '|'], [mark '|', .ident "x"],
        [mark '|', .ident "x", mark '|', mark '-', mark '>']],
      Cursor.closureLength? ts 0 = some (some ts.length) ∧
      ∀ handling mode, Cursor.lower? handling mode (ts.length + 1) ts 0 =
        ExceptT.mk (some (.ok ts)) := by
  intro ts hts
  have hspan : 0 < ts.length ∧ Span.closureSpan? none ts = some ts.length ∧
      Expansion.allThroughout isCalm ts = true ∧ (glyphsOf ts).length = ts.length := by
    revert ts
    decide
  obtain ⟨hpos, hspan, hcalm, hglyphs⟩ := hspan
  obtain ⟨hat, -, hlower⟩ := spans_stay_in_range ts
  refine ⟨(hat 0 hpos).1.trans (congrArg some hspan), fun handling mode => ?_⟩
  rw [hlower handling mode (ts.length + 1) (hglyphs ▸ Nat.lt_succ_self _)]
  exact congrArg (ExceptT.mk <| some ·) (Lowering.tokens_of_calm hcalm)

end Unwind
