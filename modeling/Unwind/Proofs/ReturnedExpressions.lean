import Unwind.Proofs.IndependentStatements
import Unwind.Proofs.RegionTree

/-!
# The expression of a return

A `return` statement carries out the value of its expression, which has to go whole into the
outcome. Lowering takes it to end at the next `;` or `,`. That is the end of the statement, unless a
comma stands outside of groups: between the arguments of a generic function. Then only what is
before the first comma is carried out. On the way: tokens without a word of control flow are lowered
to themselves (`tokens_of_calm`).
-/

namespace Unwind

open Token

/-- Whether a token is no word that lowering replaces. -/
def isCalm (t : Token) : Bool :=
  !(t.isIdent "return" || t.isIdent "rethrow" || t.isIdent "guarded")

theorem isCalm_eq_true {t : Token} :
    isCalm t = true ↔ t.isIdent "return" = false ∧ t.isIdent "rethrow" = false ∧
      t.isIdent "guarded" = false := by
  simp only [isCalm, Bool.not_eq_true', Bool.or_eq_false_iff, and_assoc]

namespace Lowering

variable {handling : String} {mode : RethrowMode} {prev : Option Token} {t : Token}
  {ts rest : List Token}

theorem nestedBlock?_of_calm (h : isCalm t = true) (prev : Option Token) (rest : List Token) :
    Span.nestedBlock? prev (t :: rest) = none := by
  cases hnested : Span.nestedBlock? prev (t :: rest) with
  | none => rfl
  | some inner =>
    obtain ⟨_, _, _, heq, -⟩ := Span.nestedBlock?_eq_some hnested
    cases heq
    cases (isCalm_eq_true.1 h).2.2

/-- Where no word of control flow stands, lowering changes nothing. -/
theorem tokens_of_calm (h : Expansion.allThroughout isCalm ts = true) :
    tokens handling mode prev ts = .ok ts := by
  induction prev, ts using tokens_induction with
  | nil => rw [tokens]
  | nested prev t rest inner hnested =>
    have ht := Expansion.forall_of_allThroughout h t List.mem_cons_self
    rw [nestedBlock?_of_calm ht] at hnested
    cases hnested
  | untouched prev t rest n hnested hspan ih =>
    have hsplit : t :: rest.take (n - 1) ++ rest.drop (n - 1) = t :: rest := by
      rw [List.cons_append, List.take_append_drop]
    rw [← hsplit, Expansion.allThroughout_append, Bool.and_eq_true] at h
    rw [tokens_untouched hnested hspan, ih h.2]
    exact congrArg Except.ok hsplit
  | leave | rethrow =>
    cases Expansion.forall_of_allThroughout h _ List.mem_cons_self
  | group prev d inner rest ihinner ihrest =>
    simp only [Expansion.allThroughout, Expansion.throughout, Bool.and_eq_true] at h
    rw [tokens_group, ihinner h.1.2, ihrest h.2]
    rfl
  | token prev t rest ht hreturn hnested huntouched hrethrow ih =>
    rw [tokens_token ht hreturn hnested huntouched hrethrow, ih (Bool.and_eq_true_iff.1 h).2]
    rfl

end Lowering

/-! ## The value of a return -/

/-- Whether a token can stand in a simple expression: it does not end the statement, and no closure,
function or invocation starts with it or is made of it. -/
def isSimple (t : Token) : Bool :=
  !(t.isPunct ';' || t.isPunct '|' || t.isPunct '!' || t.isIdent "fn")

theorem isSimple_eq_true {t : Token} :
    isSimple t = true ↔ t.isPunct ';' = false ∧ t.isPunct '|' = false ∧ t.isPunct '!' = false ∧
      t.isIdent "fn" = false := by
  simp only [isSimple, Bool.not_eq_true', Bool.or_eq_false_iff, and_assoc]

/-- The tokens of a simple expression, with no word of control flow at any depth. -/
structure SimpleExpr (expr : List Token) : Prop where
  simple : ∀ t ∈ expr, isSimple t = true
  calm : Expansion.allThroughout isCalm expr = true

/-- The tokens up to the first comma outside of groups, all of them if there is none. -/
def upToComma (expr : List Token) : List Token :=
  expr.takeWhile (!isPunct ',' ·)

/-- The first comma outside of groups and the tokens after it. -/
def fromComma (expr : List Token) : List Token :=
  expr.dropWhile (!isPunct ',' ·)

theorem upToComma_append_fromComma (expr : List Token) :
    upToComma expr ++ fromComma expr = expr :=
  List.takeWhile_append_dropWhile

theorem fromComma_eq_nil {expr : List Token} :
    fromComma expr = [] ↔ ∀ t ∈ expr, t.isPunct ',' = false := by
  induction expr with
  | nil => exact iff_of_true rfl (List.forall_mem_nil _)
  | cons t expr ih =>
    rw [List.forall_mem_cons, ← ih]
    simp only [fromComma, List.dropWhile_cons]
    cases t.isPunct ',' with
    | false => exact (and_iff_right rfl).symm
    | true => exact iff_of_false (List.cons_ne_nil _ _) fun h => Bool.noConfusion h.1

namespace SimpleExpr

variable {handling : String} {mode : RethrowMode} {t : Token} {expr rest : List Token}

theorem of_append {before after : List Token} (h : SimpleExpr (before ++ after)) :
    SimpleExpr before ∧ SimpleExpr after := by
  obtain ⟨hbefore, hafter⟩ := List.forall_mem_append.1 h.simple
  have hcalm := h.calm
  rw [Expansion.allThroughout_append, Bool.and_eq_true] at hcalm
  exact ⟨⟨hbefore, hcalm.1⟩, ⟨hafter, hcalm.2⟩⟩

theorem tail (h : SimpleExpr (t :: expr)) : SimpleExpr expr :=
  (@of_append [t] expr h).2

theorem isInvocation_cons (h : SimpleExpr expr) (t : Token) :
    Span.isInvocation (t :: expr) = false := by
  refine Bool.eq_false_iff.2 fun hi => ?_
  obtain ⟨_, bang, _, _, _, heq, hbang⟩ := Span.isInvocation_eq_true hi
  cases heq
  obtain ⟨-, -, hbang', -⟩ := isSimple_eq_true.1 (h.simple bang List.mem_cons_self)
  cases hbang.symm.trans hbang'

theorem startsNoSpan_of_mem (h : SimpleExpr expr) (ht : t ∈ expr) : startsNoSpan t = true := by
  obtain ⟨-, hbar, -, hfn⟩ := isSimple_eq_true.1 (h.simple t ht)
  rw [startsNoSpan, hbar, hfn]
  rfl

theorem endsExpr_eq (h : isSimple t = true) : Span.endsExpr t = t.isPunct ',' := by
  rw [Span.endsExpr, (isSimple_eq_true.1 h).1, Bool.false_or]

/-- The expression of a return ends at its first comma. -/
theorem span_eq (h : SimpleExpr expr) :
    expr.takeWhile (!Span.endsExpr ·) = upToComma expr ∧
      expr.dropWhile (!Span.endsExpr ·) = fromComma expr := by
  induction expr with
  | nil => exact ⟨rfl, rfl⟩
  | cons t expr ih =>
    have ht := endsExpr_eq (h.simple t List.mem_cons_self)
    obtain ⟨ihtake, ihdrop⟩ := ih h.tail
    simp only [List.takeWhile_cons, List.dropWhile_cons, ht, ihtake, ihdrop, upToComma, fromComma,
      and_self]

end SimpleExpr

/-- A return that carries out a value, the unit value where no expression is given. -/
def carryOut (value : List Token) : List Token :=
  .ident "return" :: earlyOutcome (if value.isEmpty then [parens []] else value)

theorem length_carryOut (value : List Token) : (carryOut value).length = 14 :=
  rfl

section

variable {handling : String} {mode : RethrowMode} {expr : List Token}

theorem lowerBody_return (h : SimpleExpr expr) (s : Spacing) (rest : List Token) :
    lowerBody handling mode (.ident "return" :: (expr ++ .punct ';' s :: rest)) =
      (fun tail => carryOut (upToComma expr) ++ (fromComma expr ++ .punct ';' s :: tail)) <$>
        lowerBody handling mode rest := by
  obtain ⟨htake, hdrop⟩ := h.span_eq
  have hsplit : SimpleExpr (upToComma expr ++ fromComma expr) := by
    rwa [upToComma_append_fromComma]
  obtain ⟨hvalue, hleft⟩ := hsplit.of_append
  have hstarts : ∀ t ∈ .ident "return" :: expr, startsNoSpan t = true :=
    List.forall_mem_cons.2 ⟨rfl, fun t ht => h.startsNoSpan_of_mem ht⟩
  rw [← List.cons_append]
  unfold lowerBody
  rw [tokens_append_semicolon hstarts, Lowering.tokens_return (h.isInvocation_cons _),
    Span.take_exprSpan, Span.drop_exprSpan, htake, hdrop, Lowering.tokens_of_calm hvalue.calm,
    Lowering.tokens_of_calm hleft.calm]
  cases Lowering.tokens handling mode none rest with
  | error e => rfl
  | ok tail => exact congrArg Except.ok (List.append_assoc _ _ _)

/-- A return of a simple expression carries out the expression up to its first comma outside of
groups, and the rest of the expression stays behind in the code. So the whole expression is carried
out if and only if there is no such comma. One between the arguments of a generic function ends the
expression too early. -/
theorem return_takes_expression (h : SimpleExpr expr) (s : Spacing) (rest : List Token) :
    let body := .ident "return" :: (expr ++ .punct ';' s :: rest)
    lowerBody handling mode body =
      (fun tail => carryOut (upToComma expr) ++ (fromComma expr ++ .punct ';' s :: tail)) <$>
        lowerBody handling mode rest ∧
    ∀ tail, lowerBody handling mode rest = .ok tail →
      (lowerBody handling mode body = .ok (carryOut expr ++ .punct ';' s :: tail) ↔
        ∀ t ∈ expr, t.isPunct ',' = false) := by
  intro body
  refine ⟨lowerBody_return h s rest, fun tail htail => ?_⟩
  rw [lowerBody_return h, htail, ← fromComma_eq_nil]
  constructor
  · -- A return has a fixed length, so there is no room for tokens that stay behind.
    intro heq
    have hlength := congrArg List.length (Except.ok.inj heq)
    simp only [List.length_append, length_carryOut, List.length_cons] at hlength
    exact List.eq_nil_of_length_eq_zero (by omega)
  · intro hnil
    have hwhole := upToComma_append_fromComma expr
    rw [hnil, List.append_nil] at hwhole
    rw [hnil, hwhole]
    rfl

/-- Of `return f::<A, B>(x);` only `f::<A` is carried out, and of `return f::<A>(x, y);` all. -/
theorem return_takes_expression_generic :
    let cut : List Token := [.ident "f"] ++ pathSep ++ [mark '<', .ident "A"]
    let left : List Token := [mark ',', .ident "B", mark '>', parens [.ident "x"]]
    let whole : List Token := cut ++ [mark '>', parens [.ident "x", mark ',', .ident "y"]]
    lowerBody "__handling" .refused (.ident "return" :: (cut ++ left ++ [mark ';', .ident "g"])) =
        .ok (carryOut cut ++ (left ++ [mark ';', .ident "g"])) ∧
      lowerBody "__handling" .refused (.ident "return" :: (whole ++ [mark ';', .ident "g"])) =
        .ok (carryOut whole ++ [mark ';', .ident "g"]) := by
  intro cut left whole
  have hg : lowerBody "__handling" .refused [.ident "g"] = .ok [.ident "g"] :=
    Lowering.tokens_of_calm rfl
  have hcut : SimpleExpr (cut ++ left) := ⟨by decide, rfl⟩
  have hwhole : SimpleExpr whole := ⟨by decide, rfl⟩
  constructor
  · have hlower := (@return_takes_expression "__handling" .refused _ hcut .alone [.ident "g"]).1
    rw [hg] at hlower
    exact hlower
  · exact ((return_takes_expression hwhole .alone [.ident "g"]).2 _ hg).2 (by decide)

end

end Unwind
