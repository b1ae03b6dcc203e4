import Unwind.Token.Basic

/-!
# Spans

What stands at a place in a body, and how many tokens it takes. A place is given by the tokens
from there on and the token before it.
-/

namespace Unwind.Span

/-- Whether the token before a place is a given punctuation character. -/
def follows (prev : Option Token) (c : Char) : Bool :=
  prev.any (Token.isPunct c)

/-- A name, an exclamation mark and a group. -/
def isInvocation : List Token → Bool
  | .ident _ :: bang :: .group .. :: _ => bang.isPunct '!'
  | _ => false

/-- The tokens of a guarded block nested here. A block named through a path is none. -/
def nestedBlock? (prev : Option Token) : List Token → Option (List Token)
  | .ident name :: bang :: .group _ inner :: _ =>
    if name = "guarded" && bang.isPunct '!' && !follows prev ':' then some inner else none
  | _ => none

/-- Whether a token ends an expression. -/
def endsExpr (t : Token) : Bool :=
  t.isPunct ';' || t.isPunct ','

/-- Whether `rethrow` stands here as a statement: not as a member or in a path, and at the end of
an expression. -/
def rethrowsHere (prev : Option Token) : List Token → Bool
  | [] => false
  | t :: rest =>
    t.isIdent "rethrow" && !follows prev '.' && !follows prev ':' && rest.head?.all endsExpr

/-- The number of tokens before the next `;` or `,`. -/
def exprSpan (ts : List Token) : Nat :=
  (ts.takeWhile (!endsExpr ·)).length

/-- The number of tokens up to and with the next group in braces, if there is one. -/
def braceSpan? (ts : List Token) : Option Nat :=
  (ts.findIdx? Token.isBrace).map (· + 1)

/-- Whether a bar after this token starts the parameters of a closure. -/
def canOpenClosure : Option Token → Bool
  | none => true
  | some (.punct c _) => c ≠ '?' && c ≠ '|'
  | some (.ident name) => name = "move" || name = "return" || name = "in"
  | some _ => false

/-- The length of the body of a closure: after a return type a group in braces, otherwise an
expression. -/
def closureBodySpan (ts : List Token) : Nat :=
  match ts with
  | dash :: angle :: _ =>
    if dash.isPunct '-' && angle.isPunct '>' then (braceSpan? ts).getD ts.length else exprSpan ts
  | ts => exprSpan ts

/-- The length of a closure after its first bar. A closure that is cut short takes all tokens. -/
def closureRestSpan (ts : List Token) : Nat :=
  match ts.dropWhile (!Token.isPunct '|' ·) with
  | [] => ts.length
  | _ :: body => (ts.length - body.length) + closureBodySpan body

/-- The length of the closure that starts here, if one does. -/
def closureSpan? (prev : Option Token) : List Token → Option Nat
  | [] => none
  | t :: rest =>
    if t.isIdent "move" then
      match rest with
      | bar :: rest => if bar.isPunct '|' then some (2 + closureRestSpan rest) else none
      | [] => none
    else if t.isPunct '|' && canOpenClosure prev then some (1 + closureRestSpan rest)
    else none

/-- The length of the function that is declared here, through its body. -/
def fnSpan? : List Token → Option Nat
  | [] => none
  | t :: rest => if t.isIdent "fn" then braceSpan? (t :: rest) else none

/-- The length of what keeps its own control flow and is left alone: an invocation, a closure or a
function. -/
def untouchedSpan? (prev : Option Token) (ts : List Token) : Option Nat :=
  if isInvocation ts then some 3 else (closureSpan? prev ts).or (fnSpan? ts)

end Unwind.Span
