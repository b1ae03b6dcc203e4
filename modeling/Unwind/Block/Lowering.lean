import Unwind.Block.Error
import Unwind.Block.Span

/-!
# Lowering bodies

The bodies of a block become closures, so what should leave the function around the block leaves
the closure as a value: `return` carries its expression out as an early outcome, `rethrow` becomes
a failing return, and a nested block is expanded by itself, with a mark that says where it stands.
-/

namespace Unwind

/-- What `rethrow` means in a body. -/
inductive RethrowMode where
  /-- The body is in no clause. -/
  | refused
  /-- The body of a clause, which owns what it handles. -/
  | owning
  /-- A body nested in a clause, which shares what the clause handles. -/
  | sharing
  deriving DecidableEq

def RethrowMode.isAllowed : RethrowMode → Bool
  | .refused => false
  | .owning | .sharing => true

namespace Lowering

open Token

/-- An early outcome with a value, which is the unit value if no expression was given. -/
def earlyReturn (value : List Token) : List Token :=
  let value := if value.isEmpty then [parens []] else value
  .ident "return" :: path ["core", "result", "Result", "Ok"] ++
    [parens (path ["raise_this", "Outcome", "Return"] ++ [parens value])]

/-- A failing return that sends on what is handled. -/
def failingReturn (handling method : String) : List Token :=
  .ident "return" :: path ["core", "result", "Result", "Err"] ++
    [parens [.ident handling, mark '.', .ident method, parens []]]

/-- The mark of a nested block. -/
def nestedMarker (mode : RethrowMode) : String :=
  if mode.isAllowed then "NESTED_HANDLER" else "NESTED"

/-- The expansion of a nested block, to be done later. -/
def nestedExpansion (mode : RethrowMode) (handling : String) (inner : List Token) : List Token :=
  path ["raise_this", "raise_this_macros", "__guarded_proc"] ++
    [mark '!', parens (.ident (nestedMarker mode) :: .ident handling :: inner)]

/-- What replaces a `rethrow`. -/
def rethrowReturn (handling : String) : RethrowMode → Except BlockError (List Token)
  | .refused => .error .rethrowOutsideClause
  | .owning => .ok (failingReturn handling "rethrow")
  | .sharing => .ok (failingReturn handling "rethrow_ref")

/-- Lower tokens of a body; `prev` is the token before them. -/
def tokens (handling : String) (mode : RethrowMode) (prev : Option Token) (ts : List Token) :
    Except BlockError (List Token) :=
  match ts with
  | [] => .ok []
  | t :: rest =>
    match Span.nestedBlock? prev (t :: rest) with
    | some inner => do
      let tail ← tokens handling mode (rest.drop 1).head? (rest.drop 2)
      return nestedExpansion mode handling inner ++ tail
    | none =>
      match Span.untouchedSpan? prev (t :: rest) with
      | some n => do
        let copied := t :: rest.take (n - 1)
        let tail ← tokens handling mode copied.getLast? (rest.drop (n - 1))
        return copied ++ tail
      | none =>
        if t.isIdent "return" then do
          let expr := rest.take (Span.exprSpan rest)
          let value ← tokens handling mode none expr
          let tail ← tokens handling mode (t :: expr).getLast? (rest.drop (Span.exprSpan rest))
          return earlyReturn value ++ tail
        else if Span.rethrowsHere prev (t :: rest) then do
          let failing ← rethrowReturn handling mode
          let tail ← tokens handling mode (some t) rest
          return failing ++ tail
        else
          match t with
          | .group d inner => do
            let inner' ← tokens handling mode none inner
            let tail ← tokens handling mode (some (.group d inner)) rest
            return .group d inner' :: tail
          | t => do
            let tail ← tokens handling mode (some t) rest
            return t :: tail
termination_by sizeOf ts
decreasing_by
  · have := sizeOf_le_of_sublist (List.drop_sublist 2 rest)
    simp only [List.cons.sizeOf_spec]; omega
  · have := sizeOf_le_of_sublist (List.drop_sublist (n - 1) rest)
    simp only [List.cons.sizeOf_spec]; omega
  · have := sizeOf_le_of_sublist (List.take_sublist (Span.exprSpan rest) rest)
    simp only [List.cons.sizeOf_spec]; omega
  · have := sizeOf_le_of_sublist (List.drop_sublist (Span.exprSpan rest) rest)
    simp only [List.cons.sizeOf_spec]; omega
  · simp only [List.cons.sizeOf_spec]; omega
  · simp only [List.cons.sizeOf_spec, Token.group.sizeOf_spec]; omega
  · simp only [List.cons.sizeOf_spec, Token.group.sizeOf_spec]; omega
  · simp only [List.cons.sizeOf_spec]; omega

end Lowering

/-- Lower a body; `handling` names what the clause around it handles. -/
def lowerBody (handling : String) (mode : RethrowMode) (body : List Token) :
    Except BlockError (List Token) :=
  Lowering.tokens handling mode none body

end Unwind
