import Mathlib.Data.List.Forall2
import Unwind.Proofs.FullExpansion
import Unwind.Proofs.LoweringSteps

/-!
# Nested blocks become calls

A nested block is expanded by itself later, so lowering replaces it by a call that holds its tokens.
The invocations in a body are listed by `scan`, each with what stands before it, and those in its
code by the same scan. Along `Lowered` the two lists correspond one by one, `Invocation.Rewritten`.
Where lowering sees a block is `Invocation.isSeen`. It is not everywhere but at the end of a path:
after a single colon, as in a field of a structure, a block is copied too.
-/

namespace Unwind

open Token

/-- An invocation with what stands before it in its group. -/
structure Invocation where
  /-- The invocation is somewhere in a group after a keyword and an exclamation mark. -/
  negated : Bool
  before : List Token
  name : String
  bang : Token
  delimiter : Delimiter
  inner : List Token

namespace Invocation

/-- The tokens of an invocation. -/
def tokens (s : Invocation) : List Token :=
  [.ident s.name, s.bang, .group s.delimiter s.inner]

/-- Whether lowering sees a block in an invocation of `guarded`. -/
def isSeen (s : Invocation) : Bool :=
  !s.negated && !Span.follows s.before.getLast? ':'

/-- Whether the name is at the end of a path. -/
def endsPath (s : Invocation) : Bool :=
  match s.before.reverse with
  | t :: t' :: _ => t.isPunct ':' && t'.isPunct ':'
  | _ => false

/-- The call that a block becomes stands in the place of the invocation. -/
def ReplacedBy (s : Invocation) (handling : String) (mode : RethrowMode) (s' : Invocation) : Prop :=
  let marker := if mode.isAllowed then "NESTED_HANDLER" else "NESTED"
  ∃ outer, s'.before ++ s'.tokens = outer ++
    path ["raise_this", "raise_this_macros", "__guarded_proc"] ++
      [mark '!', parens (.ident marker :: .ident handling :: s.inner)]

/-- Where a test says so, the invocation is replaced by a call, and elsewhere it is copied. -/
def Rewritten (s : Invocation) (test : Invocation → Bool) (handling : String) (mode : RethrowMode)
    (s' : Invocation) : Prop :=
  if test s then s.ReplacedBy handling mode s' else s'.tokens = s.tokens

variable {test test' : Invocation → Bool} {handling : String} {mode : RethrowMode}
  {s s' : Invocation}

theorem rewritten_iff_of_true (htest : test s = true) :
    s.Rewritten test handling mode s' ↔ s.ReplacedBy handling mode s' := by
  rw [Rewritten, if_pos htest]

theorem rewritten_iff_of_false (htest : test s = false) :
    s.Rewritten test handling mode s' ↔ s'.tokens = s.tokens := by
  rw [Rewritten, if_neg (Bool.eq_false_iff.1 htest)]

theorem isSeen_of_endsPath (h : s.endsPath = true) : s.isSeen = false := by
  rw [endsPath] at h
  split at h
  next t t' rest hbefore =>
    have hcolon : Span.follows s.before.getLast? ':' = true := by
      rw [List.getLast?_eq_head?_reverse, hbefore]
      exact (Bool.and_eq_true_iff.1 h).1
    rw [isSeen, hcolon]
    exact Bool.and_false _
  next => cases h

/-- A copy of an invocation of `guarded` is no call. -/
theorem ReplacedBy.tokens_ne (h : s.ReplacedBy handling mode s') (hname : s.name = "guarded") :
    s'.tokens ≠ s.tokens := by
  intro htokens
  obtain ⟨outer, houter⟩ := h
  have hcall (args : List Token) :
      outer ++ path ["raise_this", "raise_this_macros", "__guarded_proc"] ++
          [mark '!', parens args] =
        outer ++ path ["raise_this", "raise_this_macros"] ++ pathSep ++
          [.ident "__guarded_proc", mark '!', parens args] := by
    simp only [List.append_assoc]
    rfl
  have hproc := (List.append_inj' (houter.trans (hcall _)) rfl).2
  rw [htokens, tokens, hname] at hproc
  exact absurd (Token.ident.inj (List.cons.inj hproc).1) (by decide)

/-- What became of an invocation of `guarded` tells what the test said. -/
theorem Rewritten.congr_iff (h : s.Rewritten test handling mode s') (hname : s.name = "guarded") :
    s.Rewritten test' handling mode s' ↔ test' s = test s := by
  cases htest : test s with
  | true =>
    rw [rewritten_iff_of_true htest] at h
    cases htest' : test' s with
    | true => exact iff_of_true ((rewritten_iff_of_true htest').2 h) rfl
    | false =>
      rw [rewritten_iff_of_false htest']
      exact iff_of_false (h.tokens_ne hname) Bool.false_ne_true
  | false =>
    rw [rewritten_iff_of_false htest] at h
    cases htest' : test' s with
    | true =>
      rw [rewritten_iff_of_true htest']
      exact iff_of_false (fun h' => h'.tokens_ne hname h) Bool.noConfusion
    | false => exact iff_of_true ((rewritten_iff_of_false htest').2 h) rfl

theorem forall₂_rewritten_iff {xs ys : List Invocation}
    (h : List.Forall₂ (·.Rewritten test handling mode ·) xs ys)
    (hnames : ∀ s ∈ xs, s.name = "guarded") :
    List.Forall₂ (·.Rewritten test' handling mode ·) xs ys ↔ ∀ s ∈ xs, test' s = test s := by
  induction h with
  | nil => exact iff_of_true .nil (List.forall_mem_nil _)
  | cons hs _ ih =>
    rw [List.forall_mem_cons] at hnames
    rw [List.forall₂_cons, List.forall_mem_cons, hs.congr_iff hnames.1, ih hnames.2]

end Invocation

/-- The invocations in tokens, in the order of the text. A keyword is no name of an invocation, and
what stands in an invocation is not looked at. -/
def scanFrom (negated : Bool) (before : List Token) : List Token → List Invocation
  | [] => []
  | .ident name :: bang :: .group d inner :: rest =>
    if bang.isPunct '!' then
      (if Lexeme.isKeyword name then scanFrom true [] inner
        else [⟨negated, before, name, bang, d, inner⟩]) ++
        scanFrom negated (before ++ [.ident name, bang, .group d inner]) rest
    else
      scanFrom negated (before ++ [.ident name]) (bang :: .group d inner :: rest)
  | .group d inner :: rest =>
    scanFrom negated [] inner ++ scanFrom negated (before ++ [.group d inner]) rest
  | t :: rest => scanFrom negated (before ++ [t]) rest

/-- The invocations in a body. -/
def scan (body : List Token) : List Invocation :=
  scanFrom false [] body

section

variable {negated : Bool} {before rest xs ys : List Token}

theorem scanFrom_invocation {name : String} {bang : Token} (hbang : bang.isPunct '!' = true)
    (d : Delimiter) (inner : List Token) :
    scanFrom negated before (.ident name :: bang :: .group d inner :: rest) =
      (if Lexeme.isKeyword name then scanFrom true [] inner
        else [⟨negated, before, name, bang, d, inner⟩]) ++
        scanFrom negated (before ++ [.ident name, bang, .group d inner]) rest := by
  rw [scanFrom, if_pos hbang]

theorem scanFrom_group (d : Delimiter) (inner : List Token) :
    scanFrom negated before (.group d inner :: rest) =
      scanFrom negated [] inner ++ scanFrom negated (before ++ [.group d inner]) rest := by
  rw [scanFrom]

theorem scanFrom_token {t : Token} (ht : t.isGroup = false)
    (hi : Span.isInvocation (t :: rest) = false) :
    scanFrom negated before (t :: rest) = scanFrom negated (before ++ [t]) rest := by
  rw [scanFrom.eq_def]
  split
  next heq => cases heq
  next heq =>
    cases heq
    exact if_neg (Bool.eq_false_iff.1 hi)
  next heq =>
    cases heq
    cases ht
  next heq =>
    cases heq
    rfl

/-- Induction along the scan for invocations. -/
theorem scan_induction {motive : List Token → Prop} (nil : motive [])
    (invocation : ∀ name bang d inner rest, bang.isPunct '!' = true → motive inner → motive rest →
      motive (.ident name :: bang :: .group d inner :: rest))
    (group : ∀ d inner rest, motive inner → motive rest → motive (.group d inner :: rest))
    (token : ∀ t rest, t.isGroup = false → Span.isInvocation (t :: rest) = false → motive rest →
      motive (t :: rest))
    (ts : List Token) : motive ts := by
  induction hsize : sizeOf ts using Nat.strongRecOn generalizing ts with
  | ind size ih =>
    subst hsize
    cases hi : Span.isInvocation ts with
    | true =>
      obtain ⟨name, bang, d, inner, rest, rfl, hbang⟩ := Span.isInvocation_eq_true hi
      refine invocation name bang d inner rest hbang (ih _ ?_ _ rfl) (ih _ ?_ _ rfl) <;>
        simp only [List.cons.sizeOf_spec, Token.group.sizeOf_spec] <;> omega
    | false =>
      cases ts with
      | nil => exact nil
      | cons t rest =>
        have hrest : motive rest := by
          refine ih _ ?_ _ rfl
          rw [List.cons.sizeOf_spec]
          omega
        cases t with
        | group d inner =>
          refine group d inner rest (ih _ ?_ _ rfl) hrest
          rw [List.cons.sizeOf_spec, Token.group.sizeOf_spec]
          omega
        | ident | punct | literal => exact token _ _ rfl hi hrest

/-- Two parts can be scanned by themselves if the second one starts with neither an exclamation mark
nor a group, so that no invocation is in both. -/
theorem scanFrom_append (hys : ∀ t ∈ ys.head?, t.isGroup = false ∧ t.isPunct '!' = false) :
    scanFrom negated before (xs ++ ys) =
      scanFrom negated before xs ++ scanFrom negated (before ++ xs) ys := by
  induction xs using scan_induction generalizing before with
  | nil => rw [List.nil_append, scanFrom, List.append_nil, List.nil_append]
  | invocation name bang d inner rest hbang _ ih =>
    have hcons : .ident name :: bang :: .group d inner :: rest ++ ys =
      .ident name :: bang :: .group d inner :: (rest ++ ys) := rfl
    rw [hcons, scanFrom_invocation hbang, scanFrom_invocation hbang, ih, List.append_assoc,
      List.append_assoc]
    rfl
  | group d inner rest _ ih =>
    rw [List.cons_append, scanFrom_group, scanFrom_group, ih, List.append_assoc,
      List.append_assoc]
    rfl
  | token t rest ht hi ih =>
    rw [List.cons_append, scanFrom_token ht (Span.isInvocation_append_eq_false hi hys),
      scanFrom_token ht hi, ih, List.append_assoc]
    rfl

theorem negated_of_mem {s : Invocation} (h : s ∈ scanFrom true before xs) : s.negated = true := by
  induction xs using scan_induction generalizing before with
  | nil =>
    rw [scanFrom] at h
    cases h
  | invocation name bang d inner rest hbang ihinner ihrest =>
    rw [scanFrom_invocation hbang, List.mem_append] at h
    rcases h with h | h
    · split at h
      next => exact ihinner h
      next => rw [List.eq_of_mem_singleton h]
    · exact ihrest h
  | group d inner rest ihinner ihrest =>
    rw [scanFrom_group, List.mem_append] at h
    exact h.elim ihinner ihrest
  | token t rest ht hi ih =>
    rw [scanFrom_token ht hi] at h
    exact ih h

end

/-! ## Invocations in generated code -/

section

open Lowering

variable {negated : Bool} {before tail : List Token} {handling : String} {mode : RethrowMode}

theorem scanFrom_path (segments : List String) {ys : List Token}
    (hys : ys.head?.any (isPunct '!') = false) :
    scanFrom negated before (path segments ++ ys) =
      scanFrom negated (before ++ path segments) ys := by
  induction segments generalizing before with
  | nil =>
    have hnil : path [] = [] := rfl
    rw [hnil, List.nil_append, List.append_nil]
  | cons name segments ih =>
    have hcons : path (name :: segments) ++ ys =
      .punct ':' .joint :: .punct ':' .alone :: .ident name :: (path segments ++ ys) := rfl
    have hi : Span.isInvocation (.ident name :: (path segments ++ ys)) = false := by
      cases segments with
      | cons => rfl
      | nil =>
        rcases ys with _ | ⟨t, _ | ⟨_ | _ | _ | _, _⟩⟩
        · rfl
        · rfl
        · rfl
        · rfl
        · rfl
        · exact hys
    rw [hcons, scanFrom_token rfl rfl, scanFrom_token rfl rfl, scanFrom_token rfl hi, ih]
    simp only [List.append_assoc]
    rfl

theorem scanFrom_return (variant : String) (args : List Token) :
    let code := .ident "return" :: path ["core", "result", "Result", variant] ++ [parens args]
    scanFrom negated before (code ++ tail) =
      scanFrom negated [] args ++ scanFrom negated (before ++ code) tail := by
  intro code
  have hcode : code ++ tail =
      .ident "return" :: (path ["core", "result", "Result", variant] ++ parens args :: tail) := rfl
  rw [hcode, scanFrom_token rfl rfl, scanFrom_path _ rfl, parens, scanFrom_group]
  simp only [List.append_assoc]
  rfl

theorem scanFrom_earlyReturn (value : List Token) :
    scanFrom negated before (earlyReturn value ++ tail) =
      scanFrom negated [] value ++ scanFrom negated (before ++ earlyReturn value) tail := by
  have horUnit : scanFrom negated [] (if value.isEmpty then [parens []] else value) =
      scanFrom negated [] value := by
    cases value with
    | nil => cbv
    | cons t value => rfl
  rw [earlyReturn, scanFrom_return, scanFrom_path _ rfl, parens, scanFrom_group, scanFrom,
    List.append_nil, horUnit]

theorem scanFrom_failingReturn (method : String) :
    scanFrom negated before (failingReturn handling method ++ tail) =
      scanFrom negated (before ++ failingReturn handling method) tail := by
  have hargs : scanFrom negated [] [.ident handling, mark '.', .ident method, parens []] = [] := by
    cbv
  rw [failingReturn, scanFrom_return, hargs, List.nil_append]

theorem scanFrom_nestedExpansion (inner : List Token) :
    scanFrom negated before (nestedExpansion mode handling inner ++ tail) =
      ⟨negated, before ++ path ["raise_this", "raise_this_macros"] ++ pathSep, "__guarded_proc",
        mark '!', .parenthesis, .ident (nestedMarker mode) :: .ident handling :: inner⟩ ::
        scanFrom negated (before ++ nestedExpansion mode handling inner) tail := by
  have hcode : nestedExpansion mode handling inner ++ tail =
      path ["raise_this", "raise_this_macros"] ++ .punct ':' .joint :: .punct ':' .alone ::
        .ident "__guarded_proc" :: mark '!' ::
          parens (.ident (nestedMarker mode) :: .ident handling :: inner) :: tail := rfl
  have hname : ¬Lexeme.isKeyword "__guarded_proc" = true := by decide
  rw [hcode, scanFrom_path _ rfl, scanFrom_token rfl rfl, scanFrom_token rfl rfl, parens,
    scanFrom_invocation rfl, if_neg hname]
  simp only [List.append_assoc]
  rfl

end

/-! ## Lowering at invocations -/

/-- Whether neither the bar of a closure nor the word that starts a function is in tokens, at any
depth. -/
def isStraight (ts : List Token) : Bool :=
  Expansion.allThroughout startsNoSpan ts

theorem isStraight_append {xs ys : List Token} :
    isStraight (xs ++ ys) = true ↔ isStraight xs = true ∧ isStraight ys = true := by
  rw [isStraight, Expansion.allThroughout_append, Bool.and_eq_true]
  exact Iff.rfl

theorem isStraight_of_cons {t : Token} {ts : List Token} (h : isStraight (t :: ts) = true) :
    isStraight ts = true :=
  (Bool.and_eq_true_iff.1 h).2

/-- Without closures and functions only invocations are copied as they stand. -/
theorem Untouched.eq_invocation {prev : Option Token} {span rest : List Token}
    (h : Untouched prev span rest) (hstraight : isStraight (span ++ rest) = true) :
    ∃ name bang d inner, span = [.ident name, bang, .group d inner] ∧ bang.isPunct '!' = true := by
  have hforall := Expansion.forall_of_allThroughout hstraight
  simp only [startsNoSpan, Bool.and_eq_true, Bool.not_eq_true'] at hforall
  cases h with
  | invocation hbang => exact ⟨_, _, _, _, rfl, hbang⟩
  | closure hclosure =>
    have hnone := Span.closureSpan?_eq_none (fun t ht => (hforall t ht).1) prev
    cases hclosure.symm.trans hnone
  | function => cases (hforall (.ident "fn") List.mem_cons_self).2

/-- An invocation of `guarded` that is no block comes after a colon. -/
theorem follows_of_nestedBlock? {prev : Option Token} {bang : Token} {d : Delimiter}
    {inner rest : List Token} (hbang : bang.isPunct '!' = true)
    (h : Span.nestedBlock? prev (.ident "guarded" :: bang :: .group d inner :: rest) = none) :
    Span.follows prev ':' = true := by
  refine Bool.not_eq_false _ ▸ fun hcolon => ?_
  rw [Span.nestedBlock?, hbang, hcolon] at h
  cases h

/-- What ends an expression is no part of an invocation. -/
theorem head?_of_endsExpr {ts : List Token} (h : ts.head?.all Span.endsExpr = true) :
    ∀ t ∈ ts.head?, t.isGroup = false ∧ t.isPunct '!' = false := by
  intro t ht
  rw [Option.mem_def.1 ht, Option.all_some] at h
  cases t with
  | punct c _ =>
    rcases Bool.or_eq_true_iff.1 h with h | h <;> cases of_decide_eq_true h <;> exact ⟨rfl, rfl⟩
  | _ => cases h

theorem follows_append_cons {c : Char} (before : List Token) (t : Token) (ts : List Token) :
    Span.follows (before ++ t :: ts).getLast? c = Span.follows (t :: ts).getLast? c := by
  rw [List.getLast?_append, List.getLast?_cons]
  rfl

namespace Lowered

variable {handling : String} {mode : RethrowMode} {prev : Option Token} {ts code tail : List Token}

/-- The invocations in a body and those in its code correspond one by one. -/
theorem forall₂_invocations (h : Lowered handling mode prev ts code)
    (hstraight : isStraight ts = true) {before before' : List Token}
    (hprev : Span.follows before.getLast? ':' = Span.follows prev ':')
    (hnames : ∀ s ∈ scanFrom false before ts, s.name = "guarded") :
    List.Forall₂ (·.Rewritten (·.isSeen) handling mode ·) (scanFrom false before ts)
      (scanFrom false before' code) := by
  -- The scan of the body stands where lowering does, and what matters there is a colon before it.
  -- The scan of the code can come from anywhere.
  induction h generalizing before before' with
  | nil =>
    rw [scanFrom, scanFrom]
    exact .nil
  | @nested prev bang d inner rest tail hbang hcolon _ ih =>
    have hguarded : ¬Lexeme.isKeyword "guarded" = true := by decide
    rw [scanFrom_invocation hbang, if_neg hguarded] at hnames ⊢
    rw [scanFrom_nestedExpansion]
    refine .cons ?_ (ih ?_ (follows_append_cons ..) (List.forall_mem_append.1 hnames).2)
    · refine (Invocation.rewritten_iff_of_true ?_).2 ⟨before', ?_⟩
      · rw [Invocation.isSeen, hprev, hcolon]
        rfl
      · simp only [List.append_assoc]
        rfl
    · exact isStraight_of_cons (isStraight_of_cons (isStraight_of_cons hstraight))
  | @untouched prev span rest tail hnested huntouched _ ih =>
    obtain ⟨name, bang, d, inner, rfl, hbang⟩ := huntouched.eq_invocation hstraight
    have hsource : [.ident name, bang, .group d inner] ++ rest =
      .ident name :: bang :: .group d inner :: rest := rfl
    have hcode : [.ident name, bang, .group d inner] ++ tail =
      .ident name :: bang :: .group d inner :: tail := rfl
    rw [hsource, scanFrom_invocation hbang] at hnames ⊢
    rw [hcode, scanFrom_invocation hbang]
    obtain ⟨hfirst, hrest⟩ := List.forall_mem_append.1 hnames
    refine List.rel_append ?_
      (ih (isStraight_append.1 hstraight).2 (follows_append_cons ..) hrest)
    cases hkeyword : Lexeme.isKeyword name with
    | true =>
      refine List.forall₂_same.2 fun s hs => (Invocation.rewritten_iff_of_false ?_).2 rfl
      rw [Invocation.isSeen, negated_of_mem hs]
      rfl
    | false =>
      -- It is an invocation of `guarded` and no block, so a colon stands before it.
      rw [hkeyword, if_neg Bool.false_ne_true, List.forall_mem_singleton] at hfirst
      have hname : name = "guarded" := hfirst
      subst hname
      refine .cons ((Invocation.rewritten_iff_of_false ?_).2 rfl) .nil
      rw [Invocation.isSeen, hprev, follows_of_nestedBlock? hbang hnested]
      rfl
  | @leave prev expr rest value tail hi hexpr hends _ _ ihvalue ihtail =>
    have hstraight := isStraight_append.1 (isStraight_of_cons hstraight)
    rw [scanFrom_token rfl hi, scanFrom_append (head?_of_endsExpr hends)] at hnames ⊢
    rw [scanFrom_earlyReturn]
    obtain ⟨hnames, hnames'⟩ := List.forall_mem_append.1 hnames
    refine List.rel_append (ihvalue hstraight.1 (follows_append_cons ..) hnames)
      (ihtail hstraight.2 ?_ hnames')
    rw [List.append_assoc]
    exact follows_append_cons ..
  | @rethrow prev rest failing tail hrethrow hfailing _ ih =>
    obtain ⟨-, hi⟩ := Span.rethrowsHere_eq_true hrethrow
    rw [scanFrom_token rfl hi] at hnames ⊢
    obtain ⟨method, rfl⟩ := exists_failingReturn hfailing
    rw [scanFrom_failingReturn]
    exact ih (isStraight_of_cons hstraight) (follows_append_cons ..) hnames
  | @group prev d inner rest inner' tail _ _ ihinner ihtail =>
    rw [scanFrom_group] at hnames ⊢
    rw [scanFrom_group]
    obtain ⟨hnames, hnames'⟩ := List.forall_mem_append.1 hnames
    have hinner : isStraight inner = true := (Bool.and_eq_true_iff.1 hstraight).1
    exact List.rel_append (ihinner hinner rfl hnames)
      (ihtail (isStraight_of_cons hstraight) (follows_append_cons ..) hnames')
  | @token prev t rest tail ht hreturn hnested huntouched hrethrow htail ih =>
    have hi := Span.isInvocation_of_untouchedSpan? huntouched
    have hrest := isStraight_of_cons hstraight
    rw [scanFrom_token ht hi] at hnames ⊢
    rw [scanFrom_token ht (htail.isInvocation_eq_false hi)]
    exact ih hrest (follows_append_cons ..) hnames

end Lowered

/-- The invocations in a body and those in its code correspond, in the order of the text and at
every depth. A block that is seen is replaced by a call, with a mark, the name for what is handled
and the tokens of the block, and an invocation that is not seen is copied.

Seen are those that do not come after a colon and are not in the group of a negation. So the rule
that just what is named through a path is copied is kept if and only if all others are seen. -/
theorem nested_blocks_become_calls {handling : String} {mode : RethrowMode} {body code : List Token}
    (hstraight : isStraight body = true) (hnames : ∀ s ∈ scan body, s.name = "guarded")
    (h : lowerBody handling mode body = .ok code) :
    List.Forall₂ (·.Rewritten (·.isSeen) handling mode ·) (scan body) (scan code) ∧
      (List.Forall₂ (·.Rewritten (!·.endsPath) handling mode ·) (scan body) (scan code) ↔
        ∀ s ∈ scan body, s.endsPath = false → s.isSeen = true) := by
  have hfound : List.Forall₂ (·.Rewritten (·.isSeen) handling mode ·) (scan body) (scan code) :=
    (lowered_of_tokens h).forall₂_invocations hstraight rfl hnames
  refine ⟨hfound, (Invocation.forall₂_rewritten_iff hfound hnames).trans ?_⟩
  refine forall₂_congr fun s _ => ?_
  cases hpath : s.endsPath with
  | false => exact ⟨fun htest _ => htest.symm, fun hseen => (hseen rfl).symm⟩
  | true => exact iff_of_true (Invocation.isSeen_of_endsPath hpath).symm Bool.noConfusion

-- After a keyword, `!` and a group are an operator and its operand. Lowering takes them for an
-- invocation and leaves the block alone.
example :
    let body : List Token := [.ident "if", mark '!', parens [.ident "guarded", mark '!', braces []],
      braces []]
    lowerBody "__handling" .refused body = .ok body := by
  cbv

/-- In `f(guarded! { a }), m::guarded! { b }, S { x: guarded! { c } }` only the first block is seen,
though only the second one is named through a path. -/
theorem nested_blocks_become_calls_except_in_field :
    let block (name : String) : List Token := [.ident "guarded", mark '!', braces [.ident name]]
    let fields := .ident "x" :: mark ':' :: block "c"
    let after := mark ',' :: .ident "m" :: pathSep ++ block "b" ++
      [mark ',', .ident "S", braces fields]
    let body := .ident "f" :: parens (block "a") :: after
    let code := .ident "f" ::
      parens (Lowering.nestedExpansion .refused "__handling" [.ident "a"]) :: after
    lowerBody "__handling" .refused body = .ok code ∧
      List.Forall₂ (·.Rewritten (·.isSeen) "__handling" .refused ·) (scan body) (scan code) ∧
      ¬List.Forall₂ (·.Rewritten (!·.endsPath) "__handling" .refused ·)
        (scan body) (scan code) := by
  intro block fields after body code
  have hlower : lowerBody "__handling" .refused body = .ok code := by cbv
  let site (before : List Token) (name : String) : Invocation :=
    ⟨false, before, "guarded", mark '!', .brace, [.ident name]⟩
  let path := [.ident "f", parens (block "a"), mark ',', .ident "m"] ++ pathSep
  have hfound : scan body = [site [] "a", site path "b", site [.ident "x", mark ':'] "c"] := by cbv
  have hnames : ∀ s ∈ scan body, s.name = "guarded" := by
    rw [hfound]
    simp [site]
  obtain ⟨hseen, hpath⟩ := nested_blocks_become_calls (by decide) hnames hlower
  refine ⟨hlower, hseen, fun h => ?_⟩
  rw [hpath, hfound] at h
  simp [site, Invocation.endsPath, Invocation.isSeen, Span.follows, isPunct, mark] at h

end Unwind
