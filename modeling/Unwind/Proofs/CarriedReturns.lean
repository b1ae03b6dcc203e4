import Unwind.Proofs.Portions
import Unwind.Proofs.RegionTree

/-!
# Returns are carried out as values

A `return` in a body would leave the closure that the body becomes, so lowering makes it carry its
value out. What is copied untouched keeps its own returns: the group of an invocation, and a
function. How much that is depends on what one calls an invocation and a function, which is a
`Reading`. Every other `return` of the code has an outcome after it, `Exposed` and `Carried`. The
code is put together from parts whose returns are carried, and it can be taken apart again, so it
all depends on the parts that are copied (`Portion.copies`).
-/

namespace Unwind

open Token

/-- What counts as an invocation and as a function: the words that can be the name of an invocation,
and the tokens that can come after `fn`. -/
structure Reading where
  names : String → Bool
  follows : Token → Bool

namespace Reading

/-- What lowering takes for an invocation or a function. -/
def lax : Reading where
  names _ := true
  follows _ := true

/-- A keyword is not the name of an invocation, and a function has a name. -/
def strict : Reading where
  names name := !Lexeme.isKeyword name
  follows
    | .ident name => !Lexeme.isKeyword name
    | _ => false

end Reading

/-- The tokens end with the name and the mark of an invocation. -/
def EndsInBang (r : Reading) (before : List Token) : Prop :=
  ∃ outer name bang, before = outer ++ [.ident name, bang] ∧ r.names name = true ∧
    bang.isPunct '!' = true

/-- The place between `before` and `rest` is in a function: from `fn` through the first braces after
it. -/
def InFunction (r : Reading) (before rest : List Token) : Prop :=
  ∃ outer head, before = outer ++ .ident "fn" :: head ∧ (head ++ rest).head?.any r.follows = true ∧
    (∀ t ∈ head, t.isBrace = false) ∧ ∃ t ∈ rest, t.isBrace = true

/-- A `return` stands somewhere in the code, at any depth, but not in the group of an invocation, as
its name or in a function, and `after` comes after it. -/
inductive Exposed (r : Reading) : List Token → List Token → Prop where
  | here {before after : List Token} :
    (r.names "return" = true → Span.isInvocation (.ident "return" :: after) = false) →
    ¬InFunction r before (.ident "return" :: after) →
    Exposed r (before ++ .ident "return" :: after) after
  | inside {before inner after rest : List Token} {d : Delimiter} :
    ¬EndsInBang r before → ¬InFunction r before (.group d inner :: after) → Exposed r inner rest →
    Exposed r (before ++ .group d inner :: after) rest

/-- The tokens start with `::core::result::Result::Ok(..)` or `::core::result::Result::Err(..)`. -/
def Carried (ts : List Token) : Prop :=
  ∃ variant args rest, (variant = "Ok" ∨ variant = "Err") ∧
    ts = path ["core", "result", "Result", variant] ++ parens args :: rest

/-- All returns in code carry their values out. -/
def AllCarried (r : Reading) (code : List Token) : Prop :=
  ∀ after, Exposed r code after → Carried after

/-! ## Code from parts -/

section

variable {r : Reading} {xs ys before rest : List Token}

theorem EndsInBang.prepend (h : EndsInBang r before) (xs : List Token) :
    EndsInBang r (xs ++ before) := by
  obtain ⟨outer, name, bang, rfl, hname, hbang⟩ := h
  exact ⟨xs ++ outer, name, bang, (List.append_assoc ..).symm, hname, hbang⟩

theorem InFunction.prepend (h : InFunction r before rest) (xs : List Token) :
    InFunction r (xs ++ before) rest := by
  obtain ⟨outer, head, rfl, hfollows, hhead, hbrace⟩ := h
  exact ⟨xs ++ outer, head, (List.append_assoc ..).symm, hfollows, hhead, hbrace⟩

theorem InFunction.append (h : InFunction r before rest) (ys : List Token) :
    InFunction r before (rest ++ ys) := by
  obtain ⟨outer, head, rfl, hfollows, hhead, t, ht, hbrace⟩ := h
  refine ⟨outer, head, rfl, ?_, hhead, t, List.mem_append_left _ ht, hbrace⟩
  rw [← List.append_assoc, List.head?_append]
  cases hfirst : (head ++ rest).head? with
  | none =>
    rw [hfirst] at hfollows
    cases hfollows
  | some t =>
    rw [hfirst] at hfollows
    exact hfollows

theorem Carried.append (h : Carried xs) (ys : List Token) : Carried (xs ++ ys) := by
  obtain ⟨variant, args, rest, hvariant, rfl⟩ := h
  exact ⟨variant, args, rest ++ ys, hvariant, by rw [List.append_assoc, List.cons_append]⟩

theorem allCarried_nil : AllCarried r [] := by
  intro after h
  generalize hcode : [] = code at h
  cases h with
  | here => exact absurd hcode.symm (List.append_ne_nil_of_right_ne_nil _ (List.cons_ne_nil _ _))
  | inside => exact absurd hcode.symm (List.append_ne_nil_of_right_ne_nil _ (List.cons_ne_nil _ _))

/-- Whether no `return` is in tokens, at any depth. -/
def lacksReturn (ts : List Token) : Bool :=
  Expansion.allThroughout (!isIdent "return" ·) ts

theorem allCarried_of_lacksReturn (h : lacksReturn xs = true) : AllCarried r xs := by
  intro after hexposed
  exfalso
  induction hexposed with
  | here =>
    cases Expansion.forall_of_allThroughout h (.ident "return")
      (List.mem_append_right _ List.mem_cons_self)
  | inside _ _ _ ih =>
    simp only [lacksReturn, Expansion.allThroughout_append, Expansion.allThroughout,
      Expansion.throughout, Bool.and_eq_true] at h ih
    exact ih h.2.1.2

/-- One more token in front. What comes before a place can only put it into an invocation or a
function. -/
theorem AllCarried.cons {t : Token} (h : AllCarried r xs) (ht : t = .ident "return" → Carried xs)
    (hgroup : ∀ d inner, t = .group d inner → AllCarried r inner) : AllCarried r (t :: xs) := by
  intro after hexposed
  generalize hcode : t :: xs = code at hexposed
  cases hexposed with
  | @here before _ hname hfn =>
    cases before with
    | nil =>
      cases hcode
      exact ht rfl
    | cons t' before =>
      cases hcode
      exact h after (.here hname fun hin => hfn (hin.prepend [t]))
  | @inside before inner _ _ d hbang hfn hinner =>
    cases before with
    | nil =>
      cases hcode
      exact hgroup d inner rfl after hinner
    | cons t' before =>
      cases hcode
      exact h after (.inside (fun hends => hbang (hends.prepend [t]))
        (fun hin => hfn (hin.prepend [t])) hinner)

/-- A token of two lists put together is in the second one or in the first one. -/
theorem append_eq_append_cons {t : Token} {after : List Token}
    (h : xs ++ ys = before ++ t :: after) :
    (∃ b, before = xs ++ b ∧ ys = b ++ t :: after) ∨
      ∃ a, xs = before ++ t :: a ∧ after = a ++ ys := by
  rcases List.append_eq_append_iff.1 h with ⟨b, hbefore, hys⟩ | ⟨a, hxs, hafter⟩
  · exact .inl ⟨b, hbefore, hys⟩
  · rcases List.cons_eq_append_iff.1 hafter with ⟨rfl, hys⟩ | ⟨a, rfl, hrest⟩
    · exact .inl ⟨[], by rw [hxs, List.append_nil, List.append_nil], hys⟩
    · exact .inr ⟨a, hxs, hrest⟩

theorem isInvocation_append (h : Span.isInvocation xs = true) (ys : List Token) :
    Span.isInvocation (xs ++ ys) = true := by
  obtain ⟨name, bang, d, inner, rest, rfl, hbang⟩ := Span.isInvocation_eq_true h
  exact hbang

theorem AllCarried.append (h : AllCarried r xs) (h' : AllCarried r ys) :
    AllCarried r (xs ++ ys) := by
  intro after hexposed
  generalize hcode : xs ++ ys = code at hexposed
  cases hexposed with
  | @here before _ hname hfn =>
    rcases append_eq_append_cons hcode with ⟨b, rfl, rfl⟩ | ⟨a, rfl, rfl⟩
    · exact h' after (.here hname fun hin => hfn (hin.prepend xs))
    · refine (h a (.here (fun hr => ?_) fun hin => hfn (hin.append ys))).append ys
      exact Bool.eq_false_iff.2 fun hi => Bool.eq_false_iff.1 (hname hr) (isInvocation_append hi ys)
  | @inside before inner _ _ d hbang hfn hinner =>
    rcases append_eq_append_cons hcode with ⟨b, rfl, rfl⟩ | ⟨a, rfl, rfl⟩
    · exact h' after (.inside (fun hends => hbang (hends.prepend xs))
        (fun hin => hfn (hin.prepend xs)) hinner)
    · exact h after (.inside hbang (fun hin => hfn (hin.append ys)) hinner)

theorem allCarried_invocation {name : String} {bang : Token} {d : Delimiter} {inner : List Token}
    (hname : r.names name = true) (hbang : bang.isPunct '!' = true) :
    AllCarried r [.ident name, bang, .group d inner] := by
  intro after hexposed
  generalize hcode : [.ident name, bang, .group d inner] = code at hexposed
  cases hexposed with
  | @here before _ hreturn _ =>
    rcases before with _ | ⟨_, _ | ⟨_, _ | ⟨_, _ | _⟩⟩⟩
    · cases hcode
      cases hbang.symm.trans (hreturn hname)
    · cases hcode
      cases hbang
    all_goals cases hcode
  | @inside before _ _ _ _ hends =>
    rcases before with _ | ⟨_, _ | ⟨_, _ | ⟨_, _ | _⟩⟩⟩
    · cases hcode
    · cases hcode
      cases hbang
    · cases hcode
      exact absurd ⟨[], name, bang, rfl, hname, hbang⟩ hends
    all_goals cases hcode

/-- Every place of a function but its first is in it. -/
theorem inFunction_of_eq {head after : List Token} {brace t : Token}
    (hfollows : (head ++ [brace]).head?.any r.follows = true)
    (hhead : ∀ t ∈ head, t.isBrace = false) (hbrace : brace.isBrace = true)
    (h : .ident "fn" :: head ++ [brace] = before ++ t :: after) (ht : t ≠ .ident "fn") :
    InFunction r before (t :: after) := by
  cases before with
  | nil =>
    rw [List.cons_append, List.nil_append, List.cons.injEq] at h
    exact absurd h.1.symm ht
  | cons t' before =>
    rw [List.cons_append, List.cons_append, List.cons.injEq] at h
    obtain ⟨rfl, h⟩ := h
    have hsub : before ⊆ head := by
      rcases append_eq_append_cons h with ⟨b, rfl, hb⟩ | ⟨a, rfl, -⟩
      · cases b with
        | nil =>
          intro x hx
          rwa [List.append_nil] at hx
        | cons _ b => exact absurd (List.cons.inj hb).2.symm (by simp)
      · exact List.subset_append_left _ _
    have hmem : brace ∈ before ++ t :: after := h ▸ List.mem_append_right _ List.mem_cons_self
    refine ⟨[], before, rfl, h ▸ hfollows, fun x hx => hhead x (hsub hx), brace, ?_, hbrace⟩
    refine (List.mem_append.1 hmem).resolve_left fun hbefore => ?_
    cases hbrace.symm.trans (hhead brace (hsub hbefore))

theorem allCarried_function {head : List Token} {brace : Token}
    (hfollows : (head ++ [brace]).head?.any r.follows = true)
    (hhead : ∀ t ∈ head, t.isBrace = false) (hbrace : brace.isBrace = true) :
    AllCarried r (.ident "fn" :: head ++ [brace]) := by
  intro after hexposed
  generalize hcode : .ident "fn" :: head ++ [brace] = code at hexposed
  cases hexposed with
  | here _ hfn => exact absurd (inFunction_of_eq hfollows hhead hbrace hcode (by simp)) hfn
  | inside _ hfn => exact absurd (inFunction_of_eq hfollows hhead hbrace hcode (by simp)) hfn

theorem AllCarried.token {t : Token} (h : AllCarried r xs) (ht : t.isGroup = false)
    (hreturn : t.isIdent "return" = false) : AllCarried r (t :: xs) := by
  refine h.cons ?_ ?_
  · rintro rfl
    cases hreturn
  · rintro d inner rfl
    cases ht

theorem AllCarried.group {inner : List Token} (h : AllCarried r xs) (hinner : AllCarried r inner)
    (d : Delimiter) : AllCarried r (.group d inner :: xs) := by
  refine h.cons ?_ ?_
  · intro heq
    cases heq
  · intro d' inner' heq
    cases heq
    exact hinner

theorem AllCarried.name {name : String} (h : AllCarried r xs) (hname : name ≠ "return") :
    AllCarried r (.ident name :: xs) :=
  h.token rfl (decide_eq_false hname)

theorem AllCarried.path {segments : List String} (h : AllCarried r xs)
    (hsegments : "return" ∉ segments) : AllCarried r (path segments ++ xs) := by
  induction segments with
  | nil => exact h
  | cons name segments ih =>
    rw [List.mem_cons, not_or] at hsegments
    exact (((ih hsegments.2).name (Ne.symm hsegments.1)).token rfl rfl).token rfl rfl

theorem AllCarried.carried {variant : String} {args : List Token} (h : AllCarried r xs)
    (hargs : AllCarried r args) (hvariant : variant = "Ok" ∨ variant = "Err") :
    AllCarried r (.ident "return" :: Token.path ["core", "result", "Result", variant] ++
      parens args :: xs) := by
  have hrest :
      AllCarried r (Token.path ["core", "result", "Result", variant] ++ parens args :: xs) :=
    (h.group hargs _).path (by rcases hvariant with rfl | rfl <;> decide)
  refine hrest.cons (fun _ => ⟨variant, args, xs, hvariant, rfl⟩) ?_
  intro d inner heq
  cases heq

end

/-! ## Code taken apart -/

/-- Tokens that end with a group and in which every function is complete, so that nothing after them
is in an invocation or a function that they start. -/
structure Sealed (r : Reading) (xs : List Token) : Prop where
  last : ∃ d inner, xs.getLast? = some (.group d inner)
  functions {outer head : List Token} : xs = outer ++ .ident "fn" :: head →
    head.head?.any r.follows = true → ∃ t ∈ head, t.isBrace = true

namespace Sealed

variable {r : Reading} {xs ys before after rest : List Token} {t : Token}

theorem last_of_eq (h : Sealed r xs) (heq : xs = before ++ t :: after) (ht : t.isGroup = false) :
    ∃ d inner, after.getLast? = some (.group d inner) := by
  obtain ⟨d, inner, hlast⟩ := h.last
  refine ⟨d, inner, ?_⟩
  cases after with
  | nil =>
    rw [heq, List.getLast?_concat] at hlast
    cases hlast
    cases ht
  | cons t' after =>
    rw [heq, List.getLast?_append, List.getLast?_cons_cons, List.getLast?_cons] at hlast
    rw [List.getLast?_cons]
    exact hlast

theorem endsInBang (h : Sealed r xs) (hends : EndsInBang r (xs ++ before)) :
    EndsInBang r before := by
  obtain ⟨outer, name, bang, heq, hname, hbang⟩ := hends
  rcases append_eq_append_cons heq with ⟨b, -, hb⟩ | ⟨a, hxs, ha⟩
  · exact ⟨b, name, bang, hb, hname, hbang⟩
  · obtain ⟨d, inner, hlast⟩ := h.last_of_eq hxs rfl
    rcases a with _ | ⟨t, _ | ⟨t', a⟩⟩
    · cases hlast
    · cases ha
      cases hlast
      cases hbang
    · cases ha

theorem inFunction (h : Sealed r xs) (hin : InFunction r (xs ++ before) rest) :
    InFunction r before rest := by
  obtain ⟨outer, head, heq, hfollows, hhead, hbrace⟩ := hin
  rcases append_eq_append_cons heq with ⟨b, -, hb⟩ | ⟨a, hxs, rfl⟩
  · exact ⟨b, head, hb, hfollows, hhead, hbrace⟩
  · obtain ⟨d, inner, hlast⟩ := h.last_of_eq hxs rfl
    cases a with
    | nil => cases hlast
    | cons t a =>
      obtain ⟨t', ht', hbrace⟩ := h.functions hxs hfollows
      cases hbrace.symm.trans (hhead t' (List.mem_append_left _ ht'))

theorem inFunction_of_append (h : Sealed r xs) (heq : xs = before ++ t :: after)
    (hin : InFunction r before (t :: after ++ ys)) : InFunction r before (t :: after) := by
  obtain ⟨outer, head, rfl, hfollows, hhead, -⟩ := hin
  have hfollows : (head ++ t :: after).head?.any r.follows = true := by
    cases head <;> exact hfollows
  rw [List.append_assoc, List.cons_append] at heq
  obtain ⟨t', ht', hbrace⟩ := h.functions heq hfollows
  refine ⟨outer, head, rfl, hfollows, hhead, t', ?_, hbrace⟩
  refine (List.mem_append.1 ht').resolve_left fun hmem => ?_
  cases hbrace.symm.trans (hhead t' hmem)

theorem of_not_mem (hlast : ∃ d inner, xs.getLast? = some (.group d inner))
    (hfn : .ident "fn" ∉ xs) : Sealed r xs := by
  refine ⟨hlast, fun heq => ?_⟩
  rw [heq] at hfn
  exact absurd (List.mem_append_right _ List.mem_cons_self) hfn

end Sealed

section

variable {xs ys : List Token}

theorem Carried.of_append (h : Carried (xs ++ ys))
    (hlast : ∃ d inner, xs.getLast? = some (.group d inner)) : Carried xs := by
  obtain ⟨variant, args, rest, hvariant, heq⟩ := h
  rcases append_eq_append_cons heq with ⟨b, hpath, -⟩ | ⟨a, rfl, -⟩
  · obtain ⟨d, inner, hlast⟩ := hlast
    have hmem : Token.group d inner ∈ path ["core", "result", "Result", variant] :=
      hpath ▸ List.mem_append_left _ (List.mem_of_getLast? hlast)
    simp [path, pathSep] at hmem
  · exact ⟨variant, args, a, hvariant, rfl⟩

/-- The returns of code are those of its parts. -/
theorem AllCarried.of_append (h : AllCarried .strict (xs ++ ys)) (hxs : Sealed .strict xs) :
    AllCarried .strict xs ∧ AllCarried .strict ys := by
  constructor
  · intro after hexposed
    cases hexposed with
    | @here before _ _ hfn =>
      refine Carried.of_append (h (after ++ ys) ?_) (hxs.last_of_eq rfl rfl)
      rw [List.append_assoc]
      refine .here (fun hname => ?_) fun hin => hfn (hxs.inFunction_of_append rfl hin)
      -- `return` is a keyword, so it is not read as the name of an invocation
      cases hname
    | @inside before inner rest _ d hbang hfn hinner =>
      refine h after ?_
      rw [List.append_assoc]
      exact .inside hbang (fun hin => hfn (hxs.inFunction_of_append rfl hin)) hinner
  · intro after hexposed
    cases hexposed with
    | @here before _ hname hfn =>
      refine h after ?_
      rw [← List.append_assoc]
      exact .here hname fun hin => hfn (hxs.inFunction hin)
    | @inside before inner rest _ d hbang hfn hinner =>
      refine h after ?_
      rw [← List.append_assoc]
      exact .inside (fun hends => hbang (hxs.endsInBang hends))
        (fun hin => hfn (hxs.inFunction hin)) hinner

/-- A token that starts neither an invocation nor a function can be taken away. -/
theorem AllCarried.of_cons {r : Reading} {t : Token} (h : AllCarried r (t :: xs))
    (hi : Span.isInvocation (t :: xs) = false)
    (hbraces : t = .ident "fn" → ∀ t ∈ xs, t.isBrace = false) : AllCarried r xs := by
  have hfunction {before rest : List Token} (heq : xs = before ++ rest)
      (hin : InFunction r (t :: before) rest) : InFunction r before rest := by
    obtain ⟨outer, head, hbefore, hfollows, hhead, brace, hmem, hbrace⟩ := hin
    cases outer with
    | nil =>
      cases hbefore
      cases hbrace.symm.trans (hbraces rfl brace (heq ▸ List.mem_append_right _ hmem))
    | cons t' outer =>
      cases hbefore
      exact ⟨outer, head, rfl, hfollows, hhead, brace, hmem, hbrace⟩
  intro after hexposed
  cases hexposed with
  | @here before _ hname hfn =>
    have hcons : Exposed r (t :: before ++ .ident "return" :: after) after :=
      .here hname fun hin => hfn (hfunction rfl hin)
    exact h after hcons
  | @inside before inner rest _ d hbang hfn hinner =>
    have hends : ¬EndsInBang r (t :: before) := by
      rintro ⟨outer, name, bang, heq, hname, hmark⟩
      cases outer with
      | nil =>
        cases heq
        cases hmark.symm.trans hi
      | cons t' outer =>
        cases heq
        exact hbang ⟨outer, name, bang, rfl, hname, hmark⟩
    have hcons : Exposed r (t :: before ++ .group d inner :: rest) after :=
      .inside hends (fun hin => hfn (hfunction rfl hin)) hinner
    exact h after hcons

theorem AllCarried.of_group {r : Reading} {before inner rest : List Token} {d : Delimiter}
    (h : AllCarried r (before ++ .group d inner :: rest))
    (hbang : ∀ t ∈ before, t.isPunct '!' = false) (hfn : .ident "fn" ∉ before) :
    AllCarried r inner := by
  intro after hexposed
  refine h after (.inside ?_ ?_ hexposed)
  · rintro ⟨outer, name, bang, rfl, -, hmark⟩
    cases hmark.symm.trans (hbang bang (by simp))
  · rintro ⟨outer, head, rfl, -⟩
    exact hfn (List.mem_append_right _ List.mem_cons_self)

end

/-! ## Copied parts -/

/-- What keeps its own returns: an invocation, or a function through its body. -/
inductive KeepsReturns : List Token → Prop where
  | invocation {name : String} {bang : Token} {d : Delimiter} {inner : List Token} :
    bang.isPunct '!' = true → KeepsReturns [.ident name, bang, .group d inner]
  | function {head : List Token} {brace : Token} :
    (∀ t ∈ head, t.isBrace = false) → brace.isBrace = true →
    KeepsReturns (.ident "fn" :: head ++ [brace])

theorem Untouched.keepsReturns {prev : Option Token} {span rest : List Token}
    (h : Untouched prev span rest) (hbars : ∀ t ∈ span ++ rest, t.isPunct '|' = false) :
    KeepsReturns span := by
  cases h with
  | invocation hbang => exact .invocation hbang
  | closure hspan =>
    rw [Span.closureSpan?_eq_none hbars] at hspan
    cases hspan
  | function hhead hbrace => exact .function hhead hbrace

/-- A body without bars has no closures to copy. -/
theorem keepsReturns_of_mem_copies {ts : List Token}
    (hbars : Expansion.allThroughout (!isPunct '|' ·) ts = true) (prev : Option Token) :
    ∀ span ∈ Portion.copiesAll (Lowering.portions prev ts), KeepsReturns span := by
  induction prev, ts using Lowering.tokens_induction with
  | nil prev =>
    rw [Lowering.portions]
    exact List.forall_mem_nil _
  | nested prev t rest inner hnested ih =>
    obtain ⟨bang, d, rest, heq, hbang, hprev⟩ := Span.nestedBlock?_eq_some hnested
    cases heq
    obtain ⟨spacing, rfl⟩ := eq_of_isPunct hbang
    rw [Lowering.portions_nested hprev]
    simp only [Expansion.allThroughout, Bool.and_eq_true] at hbars
    exact ih hbars.2.2.2
  | untouched prev t rest n hnested hspan ih =>
    rw [Lowering.portions_untouched hnested hspan]
    obtain ⟨span, after, heq, rfl, hpos, huntouched⟩ := Span.untouchedSpan?_eq_some hspan
    cases span with
    | nil => cases hpos
    | cons t' span =>
      rw [List.cons_append, List.cons.injEq] at heq
      obtain ⟨rfl, rfl⟩ := heq
      simp only [List.length_cons, Nat.add_sub_cancel, List.take_left, List.drop_left] at ih ⊢
      have hkeeps := huntouched.keepsReturns fun x hx =>
        Bool.not_eq_true' _ ▸ Expansion.forall_of_allThroughout hbars x hx
      rw [← List.cons_append, Expansion.allThroughout_append, Bool.and_eq_true] at hbars
      exact List.forall_mem_cons.2 ⟨hkeeps, ih hbars.2⟩
  | leave prev rest hi ihexpr ihtail =>
    rw [Lowering.portions_return hi]
    have hrest := (Bool.and_eq_true_iff.1 hbars).2
    rw [← List.take_append_drop (Span.exprSpan rest) rest, Expansion.allThroughout_append,
      Bool.and_eq_true] at hrest
    exact List.forall_mem_append.2 ⟨ihexpr hrest.1, ihtail hrest.2⟩
  | rethrow prev rest hrethrow ih =>
    rw [Lowering.portions_rethrow hrethrow]
    exact ih (Bool.and_eq_true_iff.1 hbars).2
  | group prev d inner rest ihinner ihtail =>
    rw [Lowering.portions_group]
    simp only [Expansion.allThroughout, Expansion.throughout, Bool.and_eq_true] at hbars
    exact List.forall_mem_append.2 ⟨ihinner hbars.1.2, ihtail hbars.2⟩
  | token prev t rest ht hreturn hnested huntouched hrethrow ih =>
    rw [Lowering.portions_token ht hreturn hnested huntouched hrethrow]
    exact ih (Bool.and_eq_true_iff.1 hbars).2

/-- Whether an invocation or a function has a name by which it is one. -/
def isNamed (r : Reading) : List Token → Bool
  | .ident "fn" :: t :: _ => r.follows t
  | .ident name :: _ => r.names name
  | _ => false

namespace KeepsReturns

variable {span : List Token}

theorem allCarried_lax (h : KeepsReturns span) : AllCarried .lax span := by
  cases h with
  | invocation hbang => exact allCarried_invocation rfl hbang
  | @function head _ hhead hbrace =>
    refine allCarried_function ?_ hhead hbrace
    cases head <;> rfl

theorem allCarried_strict (h : KeepsReturns span) (hnamed : isNamed .strict span = true) :
    AllCarried .strict span := by
  cases h with
  | @invocation name bang d inner hbang =>
    refine allCarried_invocation ?_ hbang
    unfold isNamed at hnamed
    split at hnamed
    next heq =>
      cases heq
      obtain ⟨spacing, rfl⟩ := eq_of_isPunct hbang
      cases hnamed
    next heq =>
      cases heq
      exact hnamed
    next => cases hnamed
  | @function head _ hhead hbrace =>
    refine allCarried_function ?_ hhead hbrace
    cases head <;> exact hnamed

theorem sealed (h : KeepsReturns span) : Sealed .strict span := by
  cases h with
  | @invocation name bang d inner hbang =>
    obtain ⟨spacing, rfl⟩ := eq_of_isPunct hbang
    refine ⟨⟨d, inner, rfl⟩, fun {outer head} heq hfollows => ?_⟩
    rcases outer with _ | ⟨_, _ | ⟨_, _ | ⟨_, _ | _⟩⟩⟩
    · cases heq
      cases hfollows
    all_goals cases heq
  | @function head brace _ hbrace =>
    constructor
    · cases brace with
      | group d inner => exact ⟨d, inner, List.getLast?_concat⟩
      | _ => cases hbrace
    · intro outer after heq _
      rcases append_eq_append_cons heq with ⟨b, -, hb⟩ | ⟨a, -, rfl⟩
      · rcases b with _ | ⟨_, _ | _⟩
        · cases hb
          cases hbrace
        all_goals cases hb
      · exact ⟨brace, List.mem_append_right _ List.mem_cons_self, hbrace⟩

end KeepsReturns

/-! ## Lowered code -/

section

variable {r : Reading} {handling : String} {mode : RethrowMode} {tail : List Token}

theorem allCarried_nestedExpansion (hname : r.names "__guarded_proc" = true) (mode : RethrowMode)
    (handling : String) (inner : List Token) :
    AllCarried r (Lowering.nestedExpansion mode handling inner) := by
  have hcall : AllCarried r [.ident "__guarded_proc", mark '!',
      parens (.ident (Lowering.nestedMarker mode) :: .ident handling :: inner)] :=
    allCarried_invocation hname rfl
  have hsep := (hcall.token (t := .punct ':' .alone) rfl rfl).token (t := .punct ':' .joint) rfl rfl
  have hpath : "return" ∉ ["raise_this", "raise_this_macros"] := by decide
  exact hsep.path hpath

theorem AllCarried.earlyReturn {value : List Token} (hvalue : AllCarried r value)
    (htail : AllCarried r tail) : AllCarried r (Lowering.earlyReturn value ++ tail) := by
  have hunit : AllCarried r (if value.isEmpty then [parens []] else value) := by
    split
    · exact allCarried_nil.group allCarried_nil _
    · exact hvalue
  have hpath : "return" ∉ ["raise_this", "Outcome", "Return"] := by decide
  have hargs := (allCarried_nil.group hunit .parenthesis).path hpath
  have hcode := htail.carried hargs (.inl rfl)
  rwa [Lowering.earlyReturn, List.append_assoc, List.singleton_append]

theorem allCarried_failingReturn (htail : AllCarried r tail) (hhandling : handling ≠ "return")
    (method : String) (hmethod : method ≠ "return") :
    AllCarried r (Lowering.failingReturn handling method ++ tail) := by
  have hargs : AllCarried r [.ident handling, mark '.', .ident method, parens []] :=
    (((allCarried_nil.group allCarried_nil _).name hmethod).token rfl rfl).name hhandling
  have hcode := htail.carried hargs (.inr rfl)
  rwa [Lowering.failingReturn, List.append_assoc, List.singleton_append]

theorem AllCarried.rethrowReturn (htail : AllCarried r tail) (hhandling : handling ≠ "return")
    {failing : List Token} (h : Lowering.rethrowReturn handling mode = .ok failing) :
    AllCarried r (failing ++ tail) := by
  cases mode with
  | refused => cases h
  | owning =>
    cases h
    exact allCarried_failingReturn htail hhandling "rethrow" (by decide)
  | sharing =>
    cases h
    exact allCarried_failingReturn htail hhandling "rethrow_ref" (by decide)

theorem sealed_nestedExpansion (mode : RethrowMode) (handling : String) (inner : List Token) :
    Sealed r (Lowering.nestedExpansion mode handling inner) :=
  .of_not_mem ⟨_, _, rfl⟩ (by simp [Lowering.nestedExpansion, path, pathSep, mark, parens])

theorem sealed_earlyReturn (value : List Token) : Sealed r (Lowering.earlyReturn value) :=
  .of_not_mem ⟨_, _, rfl⟩ (by simp [Lowering.earlyReturn, path, pathSep, parens])

theorem sealed_failingReturn (handling method : String) :
    Sealed r (Lowering.failingReturn handling method) :=
  .of_not_mem ⟨_, _, rfl⟩ (by simp [Lowering.failingReturn, path, pathSep, parens])

theorem AllCarried.of_earlyReturn {value : List Token}
    (h : AllCarried r (Lowering.earlyReturn value)) : AllCarried r value := by
  cases value with
  | nil => exact allCarried_nil
  | cons t value =>
    have houtcome :
        AllCarried r (Token.path ["raise_this", "Outcome", "Return"] ++ [parens (t :: value)]) :=
      AllCarried.of_group h (by decide) (by simp [Token.path, pathSep])
    exact houtcome.of_group (by decide) (by simp [Token.path, pathSep])

/-- Lowering leaves no return that does not carry its value out, but in the parts that it copies. -/
theorem Assembled.allCarried {ps : List Portion} {code : List Token}
    (h : Assembled handling mode ps code) (hhandling : handling ≠ "return")
    (hname : r.names "__guarded_proc" = true)
    (hcopies : ∀ span ∈ Portion.copiesAll ps, AllCarried r span) : AllCarried r code := by
  induction h with
  | nil => exact allCarried_nil
  | @nested _ _ inner _ _ _ ih =>
    exact (allCarried_nestedExpansion hname mode handling inner).append (ih hcopies)
  | copied _ ih =>
    obtain ⟨hcopied, hrest⟩ := List.forall_mem_cons.1 hcopies
    exact hcopied.append (ih hrest)
  | leave _ _ ihexpr ihtail =>
    obtain ⟨hexpr, hrest⟩ := List.forall_mem_append.1 hcopies
    exact (ihexpr hexpr).earlyReturn (ihtail hrest)
  | rethrow hfailing _ ih => exact (ih hcopies).rethrowReturn hhandling hfailing
  | group _ _ ihinner ihtail =>
    obtain ⟨hinner, hrest⟩ := List.forall_mem_append.1 hcopies
    exact (ihtail hrest).group (ihinner hinner) _
  | token ht hreturn _ _ _ ih => exact (ih hcopies).token ht hreturn

/-- The copied parts are in the code as they are. -/
theorem Assembled.allCarried_copies {ps : List Portion} {code : List Token}
    (h : Assembled handling mode ps code)
    (hkeeps : ∀ span ∈ Portion.copiesAll ps, KeepsReturns span)
    (hcode : AllCarried .strict code) :
    ∀ span ∈ Portion.copiesAll ps, AllCarried .strict span := by
  induction h with
  | nil => exact List.forall_mem_nil _
  | @nested _ _ inner _ _ _ ih =>
    exact ih hkeeps (hcode.of_append (sealed_nestedExpansion mode handling inner)).2
  | copied _ ih =>
    obtain ⟨hspan, hrest⟩ := List.forall_mem_cons.1 hkeeps
    obtain ⟨hcopied, htail⟩ := hcode.of_append hspan.sealed
    exact List.forall_mem_cons.2 ⟨hcopied, ih hrest htail⟩
  | @leave _ value _ _ _ _ ihexpr ihtail =>
    obtain ⟨hexpr, hrest⟩ := List.forall_mem_append.1 hkeeps
    obtain ⟨hearly, htail⟩ := hcode.of_append (sealed_earlyReturn value)
    exact List.forall_mem_append.2 ⟨ihexpr hexpr hearly.of_earlyReturn, ihtail hrest htail⟩
  | rethrow hfailing _ ih =>
    obtain ⟨method, rfl⟩ := exists_failingReturn hfailing
    exact ih hkeeps (hcode.of_append (sealed_failingReturn handling method)).2
  | @group d ps inner _ tail _ _ ihinner ihtail =>
    obtain ⟨hgroup, hrest⟩ := List.forall_mem_append.1 hkeeps
    have hinner : AllCarried .strict inner :=
      @AllCarried.of_group _ [] _ _ _ hcode (List.forall_mem_nil _) List.not_mem_nil
    have htail : AllCarried .strict tail := by
      refine hcode.of_cons rfl ?_
      rintro ⟨⟩
    exact List.forall_mem_append.2 ⟨ihinner hgroup hinner, ihtail hrest htail⟩
  | token _ _ hi hbraces _ ih => exact ih hkeeps (hcode.of_cons hi hbraces)

end

/-- In a body without closures, every `return` of the lowered code that is outside of what lowering
takes for an invocation or a function carries its value out. It is every `return` outside of
invocations and functions if and only if it is so in each of the copied parts, taken by itself. This
holds if each of them has no `return`, or is rightly taken for an invocation or a function, with a
name that is no keyword. -/
theorem returns_are_carried {handling : String} {mode : RethrowMode} {body code : List Token}
    (hhandling : handling ≠ "return")
    (hbars : Expansion.allThroughout (!isPunct '|' ·) body = true)
    (h : lowerBody handling mode body = .ok code) :
    (∀ after, Exposed .lax code after → Carried after) ∧
      ((∀ after, Exposed .strict code after → Carried after) ↔
        ∀ span ∈ Portion.copiesAll (Lowering.portions none body),
          ∀ after, Exposed .strict span after → Carried after) ∧
      ((∀ span ∈ Portion.copiesAll (Lowering.portions none body),
          lacksReturn span = true ∨ isNamed .strict span = true) →
        ∀ after, Exposed .strict code after → Carried after) := by
  have hkeeps := keepsReturns_of_mem_copies hbars none
  have hcode := assembled_of_tokens h
  refine ⟨?_, ⟨hcode.allCarried_copies hkeeps, hcode.allCarried hhandling (by decide)⟩, ?_⟩
  · exact hcode.allCarried hhandling rfl fun span hspan => (hkeeps span hspan).allCarried_lax
  · intro hnamed
    refine hcode.allCarried hhandling (by decide) fun span hspan => ?_
    rcases hnamed span hspan with hlacks | hname
    · exact allCarried_of_lacksReturn hlacks
    · exact (hkeeps span hspan).allCarried_strict hname

-- A keyword before a mark and a group is taken for the name of an invocation. Here it is the
-- `return` itself, with a negated value, and it is left as it is.
example :
    let after : List Token := [mark '!', parens [.ident "a"], mark ';']
    lowerBody "__handling" .refused (.ident "return" :: after) = .ok (.ident "return" :: after) ∧
      Exposed .strict ([] ++ .ident "return" :: after) after ∧ ¬Carried after := by
  refine ⟨by cbv, .here ?_ ?_, ?_⟩
  · intro hname
    cases hname
  · rintro ⟨outer, head, heq, -⟩
    exact absurd heq.symm (List.append_ne_nil_of_right_ne_nil _ (List.cons_ne_nil _ _))
  · rintro ⟨_, _, _, -, heq⟩
    cases heq

/-- A body with a `return` in a branch after a negated condition, and with a function and an
invocation that have their own. In the group of the invocation stands what would be a `return` left
behind, but lowering does not come there. -/
theorem returns_are_carried_in_branch :
    let value : List Token := [.ident "f", parens [.literal "2"]]
    let condition : List Token := [.ident "if", mark '!', parens [.ident "c"]]
    let function : List Token :=
      [.ident "fn", .ident "g", parens [], braces [.ident "return", .literal "1"]]
    let invocation : List Token := [.ident "vec", mark '!',
      .group .bracket [.ident "return", mark '!', parens [.ident "a"]]]
    let body : List Token := condition ++ braces (.ident "return" :: value ++ [mark ';']) ::
      function ++ invocation ++ [mark ';', .ident "rethrow"]
    let after : List Token := earlyOutcome value ++ [mark ';']
    let code : List Token := condition ++ braces (.ident "return" :: after) ::
      function ++ invocation ++ mark ';' :: sendOn "__handling" "rethrow"
    Expansion.allThroughout (!isPunct '|' ·) body = true ∧
      Portion.copiesAll (Lowering.portions none body) = [condition, function, invocation] ∧
      lowerBody "__handling" .owning body = .ok code ∧
      (∀ span ∈ [condition, function, invocation],
        ∀ after, Exposed .strict span after → Carried after) ∧
      Exposed .strict code after ∧ Carried after := by
  intro value condition function invocation body after code
  have hbars : Expansion.allThroughout (!isPunct '|' ·) body = true := by decide
  have hcopies : Portion.copiesAll (Lowering.portions none body) =
      [condition, function, invocation] := by cbv
  have hok : lowerBody "__handling" .owning body = .ok code := by cbv
  obtain ⟨-, hiff, hcarried⟩ := returns_are_carried (by decide) hbars hok
  rw [hcopies] at hiff hcarried
  have hall : ∀ after, Exposed .strict code after → Carried after := hcarried (by decide)
  have hfn (before rest : List Token) (h : .ident "fn" ∉ before) :
      ¬InFunction .strict before rest := by
    rintro ⟨outer, head, rfl, -⟩
    exact h (List.mem_append_right _ List.mem_cons_self)
  have hbang : ¬EndsInBang .strict condition := by
    rintro ⟨outer, name, bang, heq, -, hbang⟩
    have hlast : parens [.ident "c"] = bang := by
      simpa [condition] using congrArg List.getLast? heq
    subst hlast
    cases hbang
  have hreturn : Exposed .strict ([] ++ .ident "return" :: after) after :=
    .here (fun hname => absurd hname (by decide)) (hfn _ _ List.not_mem_nil)
  have hexposed : Exposed .strict code after :=
    .inside hbang (hfn _ _ (by simp [condition, mark, parens])) hreturn
  exact ⟨hbars, hcopies, hok, hiff.1 hall, hexposed, hall after hexposed⟩

end Unwind
