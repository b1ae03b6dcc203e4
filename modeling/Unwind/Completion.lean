/-!
# Completions

How a body or a clause ends when it does not fail: with a value, or by an early exit from the
function around it.
-/

namespace Unwind

inductive Completion (α ε : Type) where
  | value (a : α)
  | early (e : ε)

namespace Completion

variable {α β ε : Type}

/-- Change the value; an early exit is kept as it is. -/
def map (f : α → β) : Completion α ε → Completion β ε
  | .value a => .value (f a)
  | .early e => .early e

def isEarly : Completion α ε → Bool
  | .value _ => false
  | .early _ => true

/-- The result, whichever way it came. -/
def get : Completion α α → α
  | .value a => a
  | .early a => a

end Completion

end Unwind
