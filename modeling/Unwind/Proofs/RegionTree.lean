import Unwind.Proofs.FullExpansion

/-!
# Region trees

A guarded block with the blocks nested in it, as a tree. `RegionReads` says which tree stands in
some tokens. A tree has a code, `Region.code`, in which `return` and `rethrow` are resolved by the
bodies and clauses around them alone, and it is legal if each `rethrow` is in some clause. Neither
speaks of marks or of the order in which blocks are expanded.
-/

namespace Unwind

open Token

mutual

/-- A piece of a body. -/
inductive Piece where
  | token (t : Token)
  /-- What keeps its own control flow: a closure, a function or another invocation. -/
  | kept (ts : List Token)
  | group (d : Delimiter) (inner : List Piece)
  | rethrow
  /-- A `return` with its expression. -/
  | leave (value : List Piece)
  | region (r : Region)

inductive Region where
  | mk (runtime : String) (body : List Piece) (clauses : List (ClauseHead × List Piece))

end

/-- The part of a block that a place is in. A clause has a name for what it handles. -/
inductive Scope where
  | body
  | clause (handling : String)

def Scope.handling? : Scope → Option String
  | .body => none
  | .clause handling => some handling

/-- What the innermost clause calls what it handles, of the parts around a place from the innermost
one. -/
def innermostHandling? (around : List Scope) : Option String :=
  around.findSome? Scope.handling?

/-! ## Legal trees -/

mutual

/-- Every `rethrow` has a clause around it. -/
def Piece.Legal (around : List Scope) : Piece → Prop
  | .token _ | .kept _ => True
  | .group _ inner => AllLegal around inner
  | .rethrow => ∃ handling, Scope.clause handling ∈ around
  | .leave value => AllLegal around value
  | .region r => r.Legal around

def AllLegal (around : List Scope) : List Piece → Prop
  | [] => True
  | p :: pieces => p.Legal around ∧ AllLegal around pieces

def Region.Legal (around : List Scope) : Region → Prop
  | .mk _ body clauses => AllLegal (.body :: around) body ∧ ClausesLegal around clauses

def ClausesLegal (around : List Scope) : List (ClauseHead × List Piece) → Prop
  | [] => True
  | (_, body) :: clauses =>
    AllLegal (.clause "__handling" :: around) body ∧ ClausesLegal around clauses

end

/-! ## Code -/

/-- An early outcome, `Ok(Outcome::Return(value))`. -/
def earlyOutcome (value : List Token) : List Token :=
  path ["core", "result", "Result", "Ok"] ++
    [parens (path ["raise_this", "Outcome", "Return"] ++ [parens value])]

/-- A return of `Err(handling.method())`. -/
def sendOn (handling method : String) : List Token :=
  .ident "return" :: path ["core", "result", "Result", "Err"] ++
    [parens [.ident handling, mark '.', .ident method, parens []]]

/-- A clause gives away what it handles, and a body in a clause sends a reference to it. Without a
clause around it a `rethrow` has no meaning. -/
def rethrowCode : List Scope → List Token
  | [] => [.ident "rethrow"]
  | .clause handling :: _ => sendOn handling "rethrow"
  | .body :: outer =>
    match innermostHandling? outer with
    | some handling => sendOn handling "rethrow_ref"
    | none => [.ident "rethrow"]

/-- How an early outcome leaves a block: only the outermost one has a function around it. -/
def exitCode : (around : List Scope) → List Token
  | [] => [.ident "return", .ident "__raise_value"]
  | _ :: _ => .ident "return" :: earlyOutcome [.ident "__raise_value"]

/-- The closure of a body or a clause, whose parameters start with the machine. -/
def partCode (runtime : String) (params statements body : List Token) : List Token :=
  Expansion.closure
    (Expansion.typed runtime (mark '&' :: .ident "mut" :: path ["raise_this", "Runtime"]) ++ params)
    (statements ++ Expansion.continuing body)

/-- The call for a clause, which binds the name for what it handles. -/
def clauseCode (runtime handling : String) (body : List Token) : ClauseHead → List Token
  | .typed type binding =>
    Expansion.method "catch" (partCode runtime
      (mark ',' :: Expansion.typed binding type.tokens ++
        mark ',' :: Expansion.typed handling (path ["raise_this", "Handling"]))
      (Expansion.mention runtime ++ Expansion.mention handling) body)
  | .all binding =>
    Expansion.method "catch_all" (partCode runtime
      (mark ',' :: Expansion.typed handling (path ["raise_this", "Handling"]))
      (Expansion.mention runtime ++ match binding with
        | some name =>
          Expansion.letStatement name (.ident handling :: Expansion.method "payload" [])
        | none => Expansion.mention handling) body)

/-- The code of a block from the way an early outcome leaves, its body and the calls for its
clauses. -/
def regionCode (runtime : String) (exit body : List Token) (clauses : List (List Token)) :
    List Token :=
  [braces (Expansion.allowance ++
    Expansion.letStatement "__raise_outcome" (.ident runtime ::
      Expansion.method "guard" (partCode runtime [] [] body) ++ clauses.flatten ++
      Expansion.method "end" []) ++
    [.ident "match", .ident "__raise_outcome", mark '?', braces
      (Expansion.arm "Continue" [.ident "__raise_value"] ++ Expansion.arm "Return" exit)])]

mutual

/-- The code of a piece from the parts of blocks around it. -/
def Piece.code (around : List Scope) : Piece → List Token
  | .token t => [t]
  | .kept ts => ts
  | .group d inner => [.group d (codeOf around inner)]
  | .rethrow => rethrowCode around
  | .leave value =>
    let value := codeOf around value
    .ident "return" :: earlyOutcome (if value.isEmpty then [parens []] else value)
  | .region r => r.code around

def codeOf (around : List Scope) : List Piece → List Token
  | [] => []
  | p :: pieces => p.code around ++ codeOf around pieces

def Region.code (around : List Scope) : Region → List Token
  | .mk runtime body clauses =>
    regionCode runtime (exitCode around) (codeOf (.body :: around) body)
      (clausesCode runtime around clauses)

def clausesCode (runtime : String) (around : List Scope) :
    List (ClauseHead × List Piece) → List (List Token)
  | [] => []
  | (head, body) :: clauses =>
    clauseCode runtime "__handling" (codeOf (.clause "__handling" :: around) body) head ::
      clausesCode runtime around clauses

end

/-! ## Depth -/

mutual

/-- How deep blocks are nested. -/
def Piece.depth : Piece → Nat
  | .token _ | .kept _ | .rethrow => 0
  | .group _ inner => depthOf inner
  | .leave value => depthOf value
  | .region r => r.depth + 1

def depthOf : List Piece → Nat
  | [] => 0
  | p :: pieces => max p.depth (depthOf pieces)

def Region.depth : Region → Nat
  | .mk _ body clauses => max (depthOf body) (clausesDepth clauses)

def clausesDepth : List (ClauseHead × List Piece) → Nat
  | [] => 0
  | (_, body) :: clauses => max (depthOf body) (clausesDepth clauses)

end

/-! ## Trees in tokens -/

/-- Whether a token has no part in control flow. -/
def isQuiet (t : Token) : Bool :=
  !(t.isIdent "return" || t.isIdent "rethrow" || t.isIdent "guarded" ||
    t.isIdent "__guarded_proc")

mutual

/-- The pieces that tokens consist of, after a given token. What keeps its own control flow has none
in it. -/
inductive Reads : Option Token → List Token → List Piece → Prop where
  | nil {prev : Option Token} : Reads prev [] []
  | token {prev : Option Token} {t : Token} {rest : List Token} {pieces : List Piece} :
    t.isGroup = false → t.isIdent "return" = false →
    Span.nestedBlock? prev (t :: rest) = none → Span.untouchedSpan? prev (t :: rest) = none →
    Span.rethrowsHere prev (t :: rest) = false → Reads (some t) rest pieces →
    Reads prev (t :: rest) (.token t :: pieces)
  | kept {prev : Option Token} {t : Token} {rest span : List Token} {n : Nat}
    {pieces : List Piece} :
    Span.nestedBlock? prev (t :: rest) = none → Span.untouchedSpan? prev (t :: rest) = some n →
    t :: rest.take (n - 1) = span → Expansion.allThroughout isQuiet span = true →
    Reads span.getLast? (rest.drop (n - 1)) pieces → Reads prev (t :: rest) (.kept span :: pieces)
  | group {prev : Option Token} {d : Delimiter} {inner rest : List Token}
    {inside pieces : List Piece} :
    Reads none inner inside → Reads (some (.group d inner)) rest pieces →
    Reads prev (.group d inner :: rest) (.group d inside :: pieces)
  | rethrow {prev : Option Token} {t : Token} {rest : List Token} {pieces : List Piece} :
    Span.rethrowsHere prev (t :: rest) = true → Reads (some t) rest pieces →
    Reads prev (t :: rest) (.rethrow :: pieces)
  | leave {prev : Option Token} {rest expr : List Token} {value pieces : List Piece} :
    Span.isInvocation (.ident "return" :: rest) = false →
    rest.take (Span.exprSpan rest) = expr → Reads none expr value →
    Reads (.ident "return" :: expr).getLast? (rest.drop (Span.exprSpan rest)) pieces →
    Reads prev (.ident "return" :: rest) (.leave value :: pieces)
  | region {prev : Option Token} {t : Token} {rest inner : List Token} {r : Region}
    {pieces : List Piece} :
    Span.nestedBlock? prev (t :: rest) = some inner → RegionReads inner r →
    Reads (rest.drop 1).head? (rest.drop 2) pieces → Reads prev (t :: rest) (.region r :: pieces)

/-- The tree of a block whose clauses are in order. -/
inductive RegionReads : List Token → Region → Prop where
  | mk {ts : List Token} {b : GuardedBlock} {body : List Piece}
    {clauses : List (ClauseHead × List Piece)} :
    Parser.block ts = .ok b → b.check = .ok () → Reads none b.body body →
    ClausesRead b.clauses clauses → RegionReads ts (.mk b.runtime body clauses)

inductive ClausesRead : List BlockClause → List (ClauseHead × List Piece) → Prop where
  | nil : ClausesRead [] []
  | cons {c : BlockClause} {cs : List BlockClause} {body : List Piece}
    {clauses : List (ClauseHead × List Piece)} :
    Reads none c.body body → ClausesRead cs clauses →
    ClausesRead (c :: cs) ((c.head, body) :: clauses)

end

end Unwind
