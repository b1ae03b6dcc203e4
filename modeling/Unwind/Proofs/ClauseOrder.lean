import Mathlib.Data.List.Forall2
import Unwind.Proofs.ClauseLists
import Unwind.Proofs.LexicalExpansion

/-!
# The order of clauses

That nothing comes after a catch-all is laid down three times: in the check of a clause list, in the
check of a block, and in what can be called on a region whose body has been run. They agree. A block
that is expanded has passed its check, so the calls in its code are a chain that can be called.
-/

namespace Unwind

open Token

/-! ## Chains of calls -/

/-- What a method is called on in the code of a block. -/
inductive Receiver where
  | machine
  /-- A region that takes clauses. -/
  | guarded
  /-- A region whose catch-all has been added, which can only be ended. -/
  | sealed
  | result
  deriving DecidableEq

/-- What the call of a method gives, if there is such a method. -/
def Receiver.call? : Receiver → String → Option Receiver
  | .machine, "guard" => some .guarded
  | .guarded, "catch" => some .guarded
  | .guarded, "catch_all" => some .sealed
  | .guarded, "end" | .sealed, "end" => some .result
  | _, _ => none

/-- Methods that can be called one after the other, from a machine to the result of a region. -/
def CallableChain (methods : List String) : Prop :=
  methods.foldlM Receiver.call? .machine = some .result

structure MethodCall where
  name : String
  args : List Token

/-- A call as it is written: `.name(args)`. -/
def MethodCall.tokens (call : MethodCall) : List Token :=
  [mark '.', .ident call.name, parens call.args]

/-- The method that adds a clause. -/
def ClauseHead.methodName : ClauseHead → String
  | .typed .. => "catch"
  | .all _ => "catch_all"

/-- The selector of a clause whose type has kind `k`. -/
def ClauseHead.selector (k : Kind) : ClauseHead → Selector
  | .typed .. => .kind k
  | .all _ => .any

/-! ## Three checks -/

namespace GuardedBlock

theorem checkOrder_true_cons (c : BlockClause) (rest : List BlockClause) :
    checkOrder true (c :: rest) ≠ .ok () := by
  rw [checkOrder]
  intro h
  cases h

theorem checkOrder_eq_ok_iff {after : Bool} {clauses : List BlockClause} :
    checkOrder after clauses = .ok () ↔
      (after = true → clauses = []) ∧ ∀ c ∈ clauses.dropLast, c.head.takesAll = false := by
  induction clauses generalizing after with
  | nil => exact iff_of_true rfl ⟨fun _ => rfl, List.forall_mem_nil _⟩
  | cons c rest ih =>
    cases after with
    | true =>
      exact iff_of_false (checkOrder_true_cons c rest) fun h => List.cons_ne_nil c rest (h.1 rfl)
    | false =>
      rw [checkOrder, ih]
      cases rest with
      | nil => simp
      | cons c' rest => simp

/-- The region in which clauses are added after others, of which the last is a catch-all if
`afterCatchAll`. -/
def receiver (afterCatchAll : Bool) : Receiver :=
  if afterCatchAll then .sealed else .guarded

theorem guarded_call?_methodName (head : ClauseHead) :
    Receiver.call? .guarded head.methodName = some (receiver head.takesAll) := by
  cases head <;> rfl

theorem sealed_call?_methodName (head : ClauseHead) :
    Receiver.call? .sealed head.methodName = none := by
  cases head <;> rfl

/-- The calls for clauses go through together with their check. -/
theorem foldlM_call?_eq_result {after : Bool} {clauses : List BlockClause} :
    (clauses.map (·.head.methodName) ++ ["end"]).foldlM Receiver.call? (receiver after) =
        some .result ↔ checkOrder after clauses = .ok () := by
  induction clauses generalizing after with
  | nil => cases after <;> exact iff_of_true rfl rfl
  | cons c rest ih =>
    rw [List.map_cons, List.cons_append, List.foldlM_cons]
    -- The flag of the check says on what the next call is made, so both stop at the same clause.
    cases after with
    | true =>
      rw [receiver, if_pos rfl, sealed_call?_methodName]
      refine iff_of_false ?_ (checkOrder_true_cons c rest)
      intro h
      cases h
    | false =>
      rw [receiver, if_neg Bool.false_ne_true, guarded_call?_methodName]
      exact ih

theorem check_eq_ok_iff {b : GuardedBlock} :
    b.check = .ok () ↔ b.clauses ≠ [] ∧ checkOrder false b.clauses = .ok () := by
  cases hclauses : b.clauses with
  | nil => simp [check, hclauses]
  | cons c rest => simp [check, hclauses]

theorem selector_ne_any (k : Kind) (head : ClauseHead) :
    head.selector k ≠ .any ↔ head.takesAll = false := by
  cases head <;> simp [ClauseHead.selector, ClauseHead.takesAll]

theorem check_iff_checkSelectors (b : GuardedBlock) (kindOf : BlockClause → Kind) :
    b.check = .ok () ↔
      checkSelectors (b.clauses.map fun c => c.head.selector (kindOf c)) = .ok () := by
  rw [check_eq_ok_iff, checkOrder_eq_ok_iff, checkSelectors_eq_ok_iff, ← List.map_dropLast,
    List.forall_mem_map, and_iff_right (fun h => absurd h Bool.false_ne_true), Ne, Ne,
    List.map_eq_nil_iff]
  simp only [selector_ne_any]

theorem check_iff_callableChain (b : GuardedBlock) :
    b.check = .ok () ↔ b.clauses ≠ [] ∧
      CallableChain ("guard" :: b.clauses.map (·.head.methodName) ++ ["end"]) := by
  rw [check_eq_ok_iff, ← foldlM_call?_eq_result]
  rfl

/-- What has passed the check has its catch-all, if any, after all typed clauses. -/
theorem map_methodName {clauses : List BlockClause} (h : checkOrder false clauses = .ok ()) :
    clauses.countP (·.head.takesAll) ≤ 1 ∧ clauses.map (·.head.methodName) =
      List.replicate (clauses.countP (!·.head.takesAll)) "catch" ++
        List.replicate (clauses.countP (·.head.takesAll)) "catch_all" := by
  induction clauses with
  | nil => exact ⟨Nat.zero_le _, rfl⟩
  | cons c rest ih =>
    rw [checkOrder] at h
    cases hhead : c.head with
    | all binding =>
      rw [hhead] at h
      obtain rfl := (checkOrder_eq_ok_iff.1 h).1 rfl
      simp [hhead, ClauseHead.takesAll, ClauseHead.methodName]
    | typed path binding =>
      rw [hhead] at h
      obtain ⟨hall, hnames⟩ := ih h
      have hcount : (c :: rest).countP (·.head.takesAll) = rest.countP (·.head.takesAll) :=
        List.countP_cons_of_neg (by rw [hhead]; exact Bool.false_ne_true)
      rw [hcount, List.map_cons, hnames, hhead, List.countP_cons_of_pos (by rw [hhead]; rfl)]
      exact ⟨hall, rfl⟩

end GuardedBlock

/-! ## The code of a block -/

section

open Expansion

/-- The code of a block from the chain of calls on its machine. -/
def chainCode (placement : Placement) (runtime : String) (chain : List MethodCall) : List Token :=
  [braces (allowance ++
    letStatement "__raise_outcome" (.ident runtime :: chain.flatMap MethodCall.tokens) ++
    [.ident "match", .ident "__raise_outcome", mark '?', braces
      (arm "Continue" [.ident "__raise_value"] ++ arm "Return" (earlyExit placement))])]

theorem blockCode_eq_chainCode (placement : Placement) (runtime handling : String)
    (body : List Token) (calls : List MethodCall) :
    blockCode placement ⟨runtime, handling⟩ (bodyClosure ⟨runtime, handling⟩ body)
        (calls.map MethodCall.tokens) =
      chainCode placement runtime
        (⟨"guard", partCode runtime [] [] body⟩ :: calls ++ [⟨"end", []⟩]) := by
  have hchain : List.flatMap MethodCall.tokens
      (⟨"guard", partCode runtime [] [] body⟩ :: calls ++ [⟨"end", []⟩]) =
        method "guard" (bodyClosure ⟨runtime, handling⟩ body) ++
          (calls.map MethodCall.tokens).flatten ++ method "end" [] := by
    rw [List.flatMap_append, List.flatMap_cons, List.flatMap_singleton, ← List.flatMap_def]
    rfl
  rw [chainCode, hchain]
  rfl

/-- The call that adds a clause to a region. -/
structure ClauseCall (runtime handling : String) (c : BlockClause) (call : MethodCall) : Prop where
  name : call.name = c.head.methodName
  code : ∃ body, lowerBody handling .owning c.body = .ok body ∧
    call.tokens = clauseCode runtime handling body c.head

theorem exists_clauseCall (runtime : String) {handling : String} {c : BlockClause}
    {body : List Token} (hbody : lowerBody handling .owning c.body = .ok body) :
    ∃ call, ClauseCall runtime handling c call ∧
      call.tokens = clauseCode runtime handling body c.head := by
  have hargs : ∃ args, method c.head.methodName args = clauseCode runtime handling body c.head := by
    cases c.head <;> exact ⟨_, rfl⟩
  obtain ⟨args, hargs⟩ := hargs
  exact ⟨⟨c.head.methodName, args⟩, ⟨rfl, body, hbody, hargs⟩, hargs⟩

theorem clauseCalls_eq_ok_iff {runtime handling : String} {clauses : List BlockClause}
    {code : List (List Token)} :
    clauseCalls ⟨runtime, handling⟩ clauses = .ok code ↔
      ∃ calls, List.Forall₂ (ClauseCall runtime handling) clauses calls ∧
        calls.map MethodCall.tokens = code := by
  induction clauses generalizing code with
  | nil =>
    constructor
    · intro h
      cases h
      exact ⟨[], .nil, rfl⟩
    · rintro ⟨calls, hcalls, rfl⟩
      cases hcalls
      rfl
  | cons c rest ih =>
    rw [clauseCalls_cons]
    constructor
    · intro h
      obtain ⟨body, hbody, h⟩ := bind_eq_ok_iff.1 h
      obtain ⟨code', hrest, h⟩ := bind_eq_ok_iff.1 h
      cases h
      obtain ⟨call, hcall, htokens⟩ := exists_clauseCall runtime hbody
      obtain ⟨calls, hcalls, rfl⟩ := ih.1 hrest
      refine ⟨call :: calls, .cons hcall hcalls, ?_⟩
      rw [List.map_cons, htokens, clauseCode_eq]
    · rintro ⟨calls, hcalls, rfl⟩
      cases hcalls with
      | @cons _ call _ calls hcall hcalls =>
        obtain ⟨body, hbody, htokens⟩ := hcall.code
        rw [hbody, ih.2 ⟨calls, hcalls, rfl⟩, List.map_cons, htokens, clauseCode_eq]
        rfl

theorem map_name {runtime handling : String} {clauses : List BlockClause} {calls : List MethodCall}
    (h : List.Forall₂ (ClauseCall runtime handling) clauses calls) :
    calls.map (·.name) = clauses.map (·.head.methodName) := by
  induction h with
  | nil => rfl
  | cons hcall _ ih => rw [List.map_cons, List.map_cons, hcall.name, ih]

/-- A block is expanded exactly if it passes the check and its parts can be lowered. -/
theorem ofTokens_eq_ok_iff {placement : Placement} {handling : Option String}
    {ts code : List Token} :
    ofTokens placement handling ts = .ok code ↔
      ∃ b body calls, Parser.block ts = .ok b ∧ b.check = .ok () ∧
        lowerBody (handling.getD defaultHandling) placement.bodyMode b.body = .ok body ∧
        List.Forall₂ (ClauseCall b.runtime (handling.getD defaultHandling)) b.clauses calls ∧
        code = chainCode placement b.runtime
          (⟨"guard", partCode b.runtime [] [] body⟩ :: calls ++ [⟨"end", []⟩]) := by
  constructor
  · intro h
    obtain ⟨b, hb, h⟩ := bind_eq_ok_iff.1 h
    obtain ⟨⟨⟩, hcheck, h⟩ := bind_eq_ok_iff.1 h
    obtain ⟨body, hbody, h⟩ := bind_eq_ok_iff.1 h
    obtain ⟨clauses, hclauses, h⟩ := bind_eq_ok_iff.1 h
    obtain ⟨calls, hcalls, rfl⟩ := clauseCalls_eq_ok_iff.1 hclauses
    rw [blockCode_eq_chainCode] at h
    cases h
    exact ⟨b, body, calls, hb, hcheck, hbody, hcalls, rfl⟩
  · rintro ⟨b, body, calls, hb, hcheck, hbody, hcalls, rfl⟩
    rw [ofTokens_eq hb hcheck rfl, hbody, clauseCalls_eq_ok_iff.2 ⟨calls, hcalls, rfl⟩,
      ← blockCode_eq_chainCode]
    rfl

end

/-- The check of a clause list, the check of a block and the methods of a region have one rule for
the order of clauses, and the code of a block keeps to it. -/
theorem clause_order_is_one_rule :
    (∀ selectors : List Selector,
      (checkSelectors selectors = .ok () ↔
        selectors ≠ [] ∧ ∀ s ∈ selectors.dropLast, s ≠ .any) ∧
      (checkSelectors selectors = .error .noClauses ↔ selectors = []) ∧
      ((∃ position, checkSelectors selectors = .error (.duplicateCatchAll position)) ↔
        2 ≤ selectors.count .any) ∧
      (∀ position, checkSelectors selectors = .error (.duplicateCatchAll position) ↔
        selectors[position]? = some .any ∧ (selectors.take position).count .any = 1) ∧
      ∀ position total, checkSelectors selectors = .error (.catchAllNotLast position total) ↔
        selectors.count .any = 1 ∧ selectors[position]? = some .any ∧ position + 1 < total ∧
          total = selectors.length) ∧
    (∀ (b : GuardedBlock) (kindOf : BlockClause → Kind),
      (b.check = .ok () ↔
        checkSelectors (b.clauses.map fun c => c.head.selector (kindOf c)) = .ok ()) ∧
      (b.check = .ok () ↔ b.clauses ≠ [] ∧
        CallableChain ("guard" :: b.clauses.map (·.head.methodName) ++ ["end"]))) ∧
    ∀ (placement : Placement) (handling : Option String) (ts code : List Token),
      Expansion.ofTokens placement handling ts = .ok code ↔
        ∃ b body calls,
          Parser.block ts = .ok b ∧ b.check = .ok () ∧
          lowerBody (handling.getD Expansion.defaultHandling) placement.bodyMode b.body =
            .ok body ∧
          List.Forall₂ (ClauseCall b.runtime (handling.getD Expansion.defaultHandling))
            b.clauses calls ∧
          b.clauses.countP (·.head.takesAll) ≤ 1 ∧
          calls.map (·.name) =
            List.replicate (b.clauses.countP (!·.head.takesAll)) "catch" ++
              List.replicate (b.clauses.countP (·.head.takesAll)) "catch_all" ∧
          CallableChain ("guard" :: calls.map (·.name) ++ ["end"]) ∧
          code = chainCode placement b.runtime
            (⟨"guard", partCode b.runtime [] [] body⟩ :: calls ++ [⟨"end", []⟩]) := by
  refine ⟨fun selectors => ⟨checkSelectors_eq_ok_iff selectors, checkSelectors_eq_noClauses_iff,
    exists_checkSelectors_eq_duplicate_iff, fun _ => checkSelectors_eq_duplicate_iff,
    fun _ _ => checkSelectors_eq_notLast_iff⟩,
    fun b kindOf => ⟨b.check_iff_checkSelectors kindOf, b.check_iff_callableChain⟩,
    fun placement handling ts code => ?_⟩
  rw [ofTokens_eq_ok_iff]
  constructor
  · rintro ⟨b, body, calls, hb, hcheck, hbody, hcalls, rfl⟩
    have hchain := (b.check_iff_callableChain.1 hcheck).2
    obtain ⟨hall, hnames⟩ := GuardedBlock.map_methodName (GuardedBlock.check_eq_ok_iff.1 hcheck).2
    rw [← map_name hcalls] at hchain hnames
    exact ⟨b, body, calls, hb, hcheck, hbody, hcalls, hall, hnames, hchain, rfl⟩
  · rintro ⟨b, body, calls, hb, hcheck, hbody, hcalls, -, -, -, rfl⟩
    exact ⟨b, body, calls, hb, hcheck, hbody, hcalls, rfl⟩

-- Where a list breaks the rule twice, the two checks do not report the same fault.
example (k : Kind) (path : TypePath) :
    checkSelectors [.any, .kind k, .any] = .error (.duplicateCatchAll 2) ∧
      GuardedBlock.check ⟨"rt", [], [⟨.all none, []⟩, ⟨.typed path "e", []⟩, ⟨.all none, []⟩]⟩ =
        .error .afterCatchAll :=
  ⟨rfl, rfl⟩

end Unwind
