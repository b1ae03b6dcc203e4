import Unwind.Block.Lowering
import Unwind.Block.Parse

/-!
# Expanding guarded blocks

A block becomes a call of `guard` with its body as a closure, followed by a call for each clause in
order and by the end of the chain. What comes out is a value, or an early exit from the function
around the block.
-/

namespace Unwind

/-- Where a block stands. It decides how an early exit leaves it, and whether its body may
rethrow. -/
inductive Placement where
  | top
  /-- In the body of another block. -/
  | inBody
  /-- In a clause of another block. -/
  | inClause
  deriving DecidableEq

namespace Placement

def isNested : Placement → Bool
  | .top => false
  | .inBody | .inClause => true

/-- What `rethrow` means in the body of a block that stands here. -/
def bodyMode : Placement → RethrowMode
  | .top | .inBody => .refused
  | .inClause => .sharing

end Placement

namespace Expansion

open Token

/-- The names used in the code of a block. -/
structure Names where
  runtime : String
  handling : String

/-- The name of what a clause handles, unless a block around it has chosen one. -/
def defaultHandling : String := "__handling"

/-- A name and its type, which is given by its tokens. -/
def typed (name : String) (type : List Token) : List Token :=
  .ident name :: mark ':' :: type

def runtimeParam (names : Names) : List Token :=
  typed names.runtime (mark '&' :: .ident "mut" :: path ["raise_this", "Runtime"])

def handlingParam (names : Names) : List Token :=
  typed names.handling (path ["raise_this", "Handling"])

/-- The result type of every closure. -/
def resultType : List Token :=
  path ["raise_this", "Result"] ++ mark '<' :: path ["raise_this", "Outcome"] ++
    [mark '<', .ident "_", mark ',', .ident "_", .punct '>' .joint, mark '>']

/-- A closure with its result type. -/
def closure (params body : List Token) : List Token :=
  mark '|' :: params ++ [mark '|', .punct '-' .joint, mark '>'] ++ resultType ++ [braces body]

/-- The value of a body as an outcome. -/
def continuing (body : List Token) : List Token :=
  path ["core", "result", "Result", "Ok"] ++
    [parens (path ["raise_this", "Outcome", "Continue"] ++ [parens [braces body]])]

/-- Bind a pattern to an expression. -/
def letStatement (pattern : String) (expr : List Token) : List Token :=
  .ident "let" :: .ident pattern :: mark '=' :: expr ++ [mark ';']

/-- Mention a name, so that it counts as used. -/
def mention (name : String) : List Token :=
  letStatement "_" [mark '&', .ident name]

/-- A call of a method. -/
def method (name : String) (args : List Token) : List Token :=
  [mark '.', .ident name, parens args]

def bodyClosure (names : Names) (body : List Token) : List Token :=
  closure (runtimeParam names) (continuing body)

/-- The call for a clause. -/
def clauseCall (names : Names) (body : List Token) : ClauseHead → List Token
  | .typed type binding =>
    let params := runtimeParam names ++ mark ',' :: typed binding type.tokens ++
      mark ',' :: handlingParam names
    method "catch" (closure params
      (mention names.runtime ++ mention names.handling ++ continuing body))
  | .all binding =>
    let params := runtimeParam names ++ mark ',' :: handlingParam names
    let bind := match binding with
      | some name => letStatement name (.ident names.handling :: method "payload" [])
      | none => mention names.handling
    method "catch_all" (closure params (mention names.runtime ++ bind ++ continuing body))

/-- An arm that takes the value out of an outcome. -/
def arm (outcome : String) (result : List Token) : List Token :=
  path ["raise_this", "Outcome", outcome] ++
    [parens [.ident "__raise_value"], .punct '=' .joint, mark '>'] ++ result ++ [mark ',']

/-- How an early outcome leaves: as it is, or packed again for the block around this one. -/
def earlyExit (placement : Placement) : List Token :=
  if placement.isNested then Lowering.earlyReturn [.ident "__raise_value"]
  else [.ident "return", .ident "__raise_value"]

/-- The attribute on the chain of calls. -/
def allowance : List Token :=
  [mark '#', .group .bracket [.ident "allow", parens
    ([.ident "unreachable_code", mark ',', .ident "clippy"] ++ path ["needless_return"])]]

/-- The code of a block from the closure of its body and the calls for its clauses. -/
def blockCode (placement : Placement) (names : Names) (body : List Token)
    (clauses : List (List Token)) : List Token :=
  let chain := .ident names.runtime :: method "guard" body ++ clauses.flatten ++ method "end" []
  let arms := arm "Continue" [.ident "__raise_value"] ++ arm "Return" (earlyExit placement)
  [braces (allowance ++ letStatement "__raise_outcome" chain ++
    [.ident "match", .ident "__raise_outcome", mark '?', braces arms])]

/-- The calls for clauses, in order. -/
def clauseCalls (names : Names) (clauses : List BlockClause) :
    Except BlockError (List (List Token)) :=
  clauses.mapM fun clause => do
    let body ← lowerBody names.handling .owning clause.body
    return clauseCall names body clause.head

/-- The code of a block that has been read and checked. -/
def ofBlock (placement : Placement) (handling : Option String) (b : GuardedBlock) :
    Except BlockError (List Token) := do
  let names := { runtime := b.runtime, handling := handling.getD defaultHandling }
  let body ← lowerBody names.handling placement.bodyMode b.body
  let clauses ← clauseCalls names b.clauses
  return blockCode placement names (bodyClosure names body) clauses

/-- Read, check and expand a block. A block inside another takes over its name for what is
handled. -/
def ofTokens (placement : Placement) (handling : Option String) (ts : List Token) :
    Except BlockError (List Token) := do
  let b ← Parser.block ts
  b.check
  ofBlock placement handling b

/-- Expand a nested block, which starts with the name of what is handled. -/
def ofNested (placement : Placement) : List Token → Except BlockError (List Token)
  | [] => .error .emptyNested
  | .ident handling :: rest => ofTokens placement (some handling) rest
  | _ :: _ => .error .noHandling

/-- What is wrong with tokens that are not a guarded block. -/
def diagnose : List Token → BlockError
  | [] => .emptyBlock
  | .ident _ :: .punct '=' _ :: .punct '>' _ :: rest =>
    match rest with
    | [] => .nothingAfterArrow
    | t :: _ => if t.isIdent "try" then .tryWithoutBody else .notTry t
  | _ :: _ => .notNamed

/-- Expand tokens by the mark that they start with. -/
def expand : List Token → Except BlockError (List Token)
  | [] => .error .emptyInput
  | .ident marker :: rest =>
    match marker with
    | "REGION" => ofTokens .top none rest
    | "NESTED" => ofNested .inBody rest
    | "NESTED_HANDLER" => ofNested .inClause rest
    | "ERROR" => .error (diagnose rest)
    | "ERROR_NO_CLAUSES" => .error .noClauses
    | "ERROR_EMPTY" => .error .emptyBlock
    | marker => .error (.unknownMarker marker)
  | _ :: _ => .error .noMarker

end Expansion

end Unwind
