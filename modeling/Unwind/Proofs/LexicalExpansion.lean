import Unwind.Proofs.LoweredCalls
import Unwind.Proofs.LoweringSteps
import Unwind.Proofs.RegionTree

/-!
# Expansion is lexical

A nested block is expanded by itself, and of what is around it only a mark and a name are handed
on. That is enough: expanding a block to the end gives the code of its tree, in which `rethrow` and
`return` are resolved by all that is around them, or it is refused because a `rethrow` has no clause
around it. One level of this is `Reads.lowers` for a body and `RegionReads.expands` for a block,
each using the other.
-/

namespace Unwind

open Token

/-! ## What is handed on -/

/-- All clauses around a place have the same name for what they handle, so it does not matter that a
block inside hands on only one. -/
def Uniform (around : List Scope) : Prop :=
  ∀ handling, Scope.clause handling ∈ around → handling = "__handling"

/-- What `rethrow` means from the parts around it. -/
def modeOf : List Scope → RethrowMode
  | [] => .refused
  | .clause _ :: _ => .owning
  | .body :: outer => if (innermostHandling? outer).isSome then .sharing else .refused

/-- Where a block stands from the parts around it. -/
def placementOf : List Scope → Placement
  | [] => .top
  | s :: outer => if (innermostHandling? (s :: outer)).isSome then .inClause else .inBody

theorem bodyMode_placementOf (around : List Scope) :
    (placementOf around).bodyMode = modeOf (.body :: around) := by
  cases around with
  | nil => rfl
  | cons s outer =>
    rw [placementOf, modeOf]
    cases (innermostHandling? (s :: outer)).isSome <;> rfl

theorem expand_nested {around : List Scope} (hne : around ≠ []) (ts : List Token) :
    Expansion.expand (.ident (Lowering.nestedMarker (modeOf around)) :: .ident "__handling" :: ts) =
      Expansion.ofTokens (placementOf around) (some "__handling") ts := by
  cases around with
  | nil => exact absurd rfl hne
  | cons s outer =>
    cases s with
    | clause handling => rfl
    | body =>
      have hbody : innermostHandling? (.body :: outer) = innermostHandling? outer := rfl
      rw [placementOf, modeOf, hbody]
      cases (innermostHandling? outer).isSome <;> rfl

theorem rethrowReturn_modeOf {around : List Scope} (h : Uniform around) :
    Expansion.Verdict (∃ handling, Scope.clause handling ∈ around) (rethrowCode around)
      (Lowering.rethrowReturn "__handling" (modeOf around)) := by
  cases around with
  | nil =>
    refine .refused ?_ _
    rintro ⟨_, hmem⟩
    cases hmem
  | cons s outer =>
    cases s with
    | clause handling =>
      obtain rfl := h handling List.mem_cons_self
      exact .inl ⟨⟨_, List.mem_cons_self⟩, rfl⟩
    | body =>
      rw [modeOf, rethrowCode]
      cases hfind : innermostHandling? outer with
      | none =>
        refine .refused ?_ _
        rintro ⟨handling, hmem⟩
        cases hmem with
        | tail _ hmem => cases List.findSome?_eq_none_iff.1 hfind _ hmem
      | some handling =>
        obtain ⟨s, hmem, hs⟩ := List.exists_of_findSome?_eq_some hfind
        cases s with
        | body => cases hs
        | clause handling' =>
          cases hs
          have hmem := List.mem_cons_of_mem Scope.body hmem
          obtain rfl := h handling hmem
          exact .inl ⟨⟨_, hmem⟩, rfl⟩

/-! ## Bodies and blocks -/

section

open Expansion

theorem regionCode_eq (around : List Scope) (runtime : String) (body : List Token)
    (clauses : List (List Token)) :
    regionCode runtime (exitCode around) body clauses =
      blockCode (placementOf around) ⟨runtime, "__handling"⟩
        (bodyClosure ⟨runtime, "__handling"⟩ body) clauses := by
  cases around with
  | nil => rfl
  | cons s outer =>
    rw [placementOf]
    cases (innermostHandling? (s :: outer)).isSome <;> rfl

theorem clauseCode_eq (runtime handling : String) (body : List Token) (head : ClauseHead) :
    clauseCode runtime handling body head = clauseCall ⟨runtime, handling⟩ body head := by
  cases head with
  | typed => rfl
  | all binding => cases binding <;> rfl

theorem clauseCalls_cons (names : Names) (c : BlockClause) (cs : List BlockClause) :
    clauseCalls names (c :: cs) = do
      let body ← lowerBody names.handling .owning c.body
      let calls ← clauseCalls names cs
      return clauseCall names body c.head :: calls := by
  simp [clauseCalls]

theorem ofTokens_eq {placement : Placement} {handling : Option String} {ts : List Token}
    {b : GuardedBlock} {names : Names} (hb : Parser.block ts = .ok b) (hcheck : b.check = .ok ())
    (hnames : ⟨b.runtime, handling.getD defaultHandling⟩ = names) :
    ofTokens placement handling ts = do
      let body ← lowerBody names.handling placement.bodyMode b.body
      let calls ← clauseCalls names b.clauses
      return blockCode placement names (bodyClosure names body) calls := by
  subst hnames
  rw [ofTokens, hb]
  show (do b.check; ofBlock placement handling b) = _
  rw [hcheck]
  rfl

theorem Uniform.body {around : List Scope} (h : Uniform around) : Uniform (.body :: around) := by
  intro handling hmem
  cases hmem with
  | tail _ hmem => exact h handling hmem

theorem Uniform.clause {around : List Scope} (h : Uniform around) :
    Uniform (.clause "__handling" :: around) := by
  intro handling hmem
  cases hmem with
  | head => rfl
  | tail _ hmem => exact h handling hmem

theorem rethrowCode_ne_nil (around : List Scope) : rethrowCode around ≠ [] := by
  unfold rethrowCode
  split
  · exact List.cons_ne_nil _ _
  · exact List.cons_ne_nil _ _
  · split <;> exact List.cons_ne_nil _ _

/-- Only from no tokens comes no code. -/
theorem Reads.eq_nil_of_code {prev : Option Token} {ts : List Token} {pieces : List Piece}
    {around : List Scope} (h : Reads prev ts pieces) (hcode : codeOf around pieces = []) :
    ts = [] := by
  cases h with
  | nil => rfl
  | token => cases hcode
  | kept _ _ hspan =>
    subst hspan
    cases hcode
  | group => cases hcode
  | leave => cases hcode
  | rethrow => exact absurd (List.append_eq_nil_iff.1 hcode).1 (rethrowCode_ne_nil around)
  | @region _ _ _ _ r =>
    cases r
    cases hcode

mutual

-- By recursion on the reading of the tree, for all that can be around it: the parts around are what
-- the mark and the name stand for, and they grow with each block and clause that is entered.
theorem Reads.lowers {prev : Option Token} {ts : List Token} {pieces : List Piece} :
    Reads prev ts pieces → ∀ {around : List Scope}, around ≠ [] → Uniform around →
    ∀ {n : Nat}, depthOf pieces ≤ n →
    Lowers (expandFully n) (AllLegal around pieces) ts (codeOf around pieces)
      (Lowering.tokens "__handling" (modeOf around) prev ts)
  | .nil, _, _, _, _, _ => by
    rw [Lowering.tokens]
    exact .nil
  | .token ht hreturn hnested huntouched hrethrow hrest, around, hne, hu, n, hn => by
    have ih := hrest.lowers hne hu (Nat.le_trans (Nat.le_max_right ..) hn)
    have hi := Span.isInvocation_of_untouchedSpan? huntouched
    rw [Lowering.tokens_token ht hreturn hnested huntouched hrethrow]
    exact (ih.token ht hi).congr (by rw [AllLegal, Piece.Legal, true_and])
  | .kept hnested huntouched hspan hquiet hrest, around, hne, hu, n, hn => by
    subst hspan
    have ih := hrest.lowers hne hu (Nat.le_trans (Nat.le_max_right ..) hn)
    have hall := ih.kept (allThroughout_imp (by simp [isQuiet]) _ hquiet)
    rw [List.cons_append, List.take_append_drop] at hall
    rw [Lowering.tokens_untouched hnested huntouched]
    exact hall.congr (by rw [AllLegal, Piece.Legal, true_and])
  | .group hinner hrest, around, hne, hu, n, hn => by
    obtain ⟨hn, hn'⟩ := Nat.max_le.1 hn
    rw [Lowering.tokens_group]
    exact (hinner.lowers hne hu hn).group (hrest.lowers hne hu hn') _
  | .rethrow hrethrow hrest, around, hne, hu, n, hn => by
    have ih := hrest.lowers hne hu (Nat.le_trans (Nat.le_max_right ..) hn)
    rw [Lowering.tokens_rethrow hrethrow]
    exact .rethrow (rethrowReturn_modeOf hu) ih
  | .leave hi hexpr hvalue hrest, around, hne, hu, n, hn => by
    subst hexpr
    obtain ⟨hn, hn'⟩ := Nat.max_le.1 hn
    rw [Lowering.tokens_return hi]
    exact (hvalue.lowers hne hu hn).leaving hvalue.eq_nil_of_code (hrest.lowers hne hu hn')
  | .region hnested hregion hrest, around, hne, hu, n, hn => by
    obtain ⟨hn, hn'⟩ := Nat.max_le.1 hn
    -- The call takes up one level, and the block behind it has the rest.
    obtain ⟨n, rfl⟩ : ∃ m, n = m + 1 :=
      Nat.exists_eq_add_one_of_ne_zero (Nat.ne_zero_of_lt hn)
    have hblock := hregion.expands hu (Nat.le_of_succ_le_succ hn) (some "__handling") rfl
    rw [← expand_nested hne] at hblock
    rw [Lowering.tokens_nested hnested]
    exact .call hblock (hrest.lowers hne hu hn')

theorem RegionReads.expands {ts : List Token} {r : Region} :
    RegionReads ts r → ∀ {around : List Scope}, Uniform around → ∀ {n : Nat}, r.depth ≤ n →
    ∀ (handling : Option String), handling.getD defaultHandling = "__handling" →
    Verdict (r.Legal around) (r.code around)
      (ofTokens (placementOf around) handling ts >>= complete (n + 1))
  | .mk (b := b) hb hcheck hbody hclauses, around, hu, n, hn, handling, hhandling => by
    obtain ⟨hn, hn'⟩ := Nat.max_le.1 hn
    have hlow := hbody.lowers (List.cons_ne_nil _ _) hu.body hn
    rw [ofTokens_eq hb hcheck (congrArg (Names.mk b.runtime) hhandling), bodyMode_placementOf,
      Region.code, regionCode_eq]
    exact hlow.blockCode (hclauses.lowers hu hn' b.runtime) _ _

theorem ClausesRead.lowers {cs : List BlockClause} {clauses : List (ClauseHead × List Piece)} :
    ClausesRead cs clauses → ∀ {around : List Scope}, Uniform around →
    ∀ {n : Nat}, clausesDepth clauses ≤ n → ∀ (runtime : String),
    LowersCalls (expandFully n) (ClausesLegal around clauses) (clausesCode runtime around clauses)
      (clauseCalls ⟨runtime, "__handling"⟩ cs)
  | .nil, around, hu, n, hn, runtime => .nil
  | .cons hbody hclauses, around, hu, n, hn, runtime => by
    obtain ⟨hn, hn'⟩ := Nat.max_le.1 hn
    rw [clauseCalls_cons, clausesCode, clauseCode_eq]
    have hlow := hbody.lowers (List.cons_ne_nil _ _) hu.clause hn
    exact .cons hlow (hclauses.lowers hu hn' runtime) _ _

end

/-- Expanding a block and all blocks in it gives the code of its tree, unless a `rethrow` is in no
clause. -/
theorem expansion_is_lexical {ts : List Token} {r : Region} (h : RegionReads ts r) {limit : Nat}
    (hlimit : r.depth < limit) :
    (r.Legal [] → expandFully limit (.ident "REGION" :: ts) = .ok (r.code [])) ∧
      (¬r.Legal [] →
        expandFully limit (.ident "REGION" :: ts) = .error .rethrowOutsideClause) := by
  obtain ⟨n, rfl⟩ : ∃ n, limit = n + 1 :=
    Nat.exists_eq_add_one_of_ne_zero (Nat.ne_zero_of_lt hlimit)
  have huniform : Uniform [] := fun _ hmem => nomatch hmem
  have hexpand := h.expands huniform (Nat.le_of_lt_succ hlimit) none rfl
  rcases hexpand with ⟨hlegal, hok⟩ | ⟨hlegal, hno⟩
  · exact ⟨fun _ => hok, fun hnot => absurd hlegal hnot⟩
  · exact ⟨fun hyes => absurd hyes hlegal, fun _ => hno⟩

end

-- In the type `fn()` the recognisers see a function, with the next braces as its body. A `rethrow`
-- in them is left alone and nothing is refused, so `Reads` has no rule for it.
example :
    let body : List Token := [.ident "let", .ident "f", mark ':', .ident "fn", parens [], mark '=',
      .ident "g", mark ';', .ident "if", .ident "c", braces [.ident "rethrow", mark ';']]
    lowerBody "__handling" .refused body = .ok body := by
  cbv

/-- The tokens of `rt => try { body } catch { clause }`. -/
def catchAllTokens (body clause : List Token) : List Token :=
  [.ident "rt", .punct '=' .joint, mark '>', .ident "try", braces body, .ident "catch",
    braces clause]

theorem block_catchAllTokens (body clause : List Token) :
    Parser.block (catchAllTokens body clause) = .ok ⟨"rt", body, [⟨.all none, clause⟩]⟩ := by
  cbv

/-- A block whose clause holds another one and a `rethrow`. The block inside rethrows in its body
and returns in its clause. -/
def twoLevels : Region :=
  .mk "rt" [] [(.all none,
    [.region (.mk "rt" [.rethrow, .token (mark ';')]
      [(.all none, [.leave [.token (.literal "1")], .token (mark ';')])]),
    .token (mark ';'), .rethrow])]

theorem expansion_is_lexical_two_levels :
    twoLevels.Legal [] ∧
      Expansion.expandFully 2 (.ident "REGION" :: catchAllTokens []
        [.ident "guarded", mark '!',
          braces (catchAllTokens [.ident "rethrow", mark ';']
            [.ident "return", .literal "1", mark ';']),
          mark ';', .ident "rethrow"]) = .ok (twoLevels.code []) := by
  have hlegal : twoLevels.Legal [] := by
    simp [twoLevels, Region.Legal, Piece.Legal, AllLegal, ClausesLegal]
  have hmark (prev : Option Token) (rest : List Token) (pieces : List Piece)
      (h : Reads (some (mark ';')) rest pieces) :
      Reads prev (mark ';' :: rest) (.token (mark ';') :: pieces) :=
    .token rfl rfl rfl rfl rfl h
  have hinner : RegionReads (catchAllTokens [.ident "rethrow", mark ';']
      [.ident "return", .literal "1", mark ';']) _ :=
    .mk (block_catchAllTokens _ _) rfl
      (.rethrow rfl (hmark _ _ _ .nil))
      (.cons (.leave rfl rfl (.token rfl rfl rfl rfl rfl .nil) (hmark _ _ _ .nil)) .nil)
  have hreads : RegionReads (catchAllTokens [] [.ident "guarded", mark '!', braces _, mark ';',
      .ident "rethrow"]) twoLevels :=
    .mk (block_catchAllTokens _ _) rfl .nil
      (.cons (.region rfl hinner (hmark _ _ _ (.rethrow rfl .nil))) .nil)
  exact ⟨hlegal, (expansion_is_lexical hreads (by decide)).1 hlegal⟩

end Unwind
