import Unwind.Clauses
import Unwind.Sample

/-!
# Programs

Programs as data. A body is a list of statements. It has a current value, at first 0, and ends
with that value, by an early exit or with a failure.
-/

namespace Unwind

inductive Stmt where
  /-- Call a function; its result becomes the current value. -/
  | call (name : String) (body : List Stmt)
  /-- Call a function through `n` frames of that name, with the body in the innermost. -/
  | nest (n : Nat) (name : String) (body : List Stmt)
  /-- Run a guarded region. -/
  | guard (body : List Stmt) (clauses : List (Selector × List Stmt))
  /-- Run `n` regions inside each other, all with the same clauses. -/
  | nestGuard (n : Nat) (body : List Stmt) (clauses : List (Selector × List Stmt))
  /-- Run a body `n` times. -/
  | times (n : Nat) (body : List Stmt)
  /-- Run a body and go on if it fails. The failure is set aside under `name`, or dropped. -/
  | attempt (body : List Stmt) (name : Option String)
  /-- Fail with the failure that was set aside, and forget it. -/
  | resume (name : String)
  /-- Fail with a copy of the failure that was set aside. -/
  | resumeCopy (name : String)
  | defer (label : String)
  | raise (p : Payload)
  /-- Start a failure and drop it. -/
  | mint (p : Payload)
  /-- Send on the failure handled by an enclosing clause, the innermost being number 0. -/
  | rethrow (up : Nat)
  | leave (v : Int32)
  | value (v : Int32)
  /-- The current value becomes the integer in the payload handled by the innermost clause. -/
  | payloadValue
  | snap
  | note (text : String)
  | sample (f : SampleFunction)

/-- Why a program is not run. -/
inductive Refusal where
  | clauses (fault : ClauseFault)
  | tooMany (n : Nat)
  /-- There are not so many enclosing clauses. -/
  | notHandling (up : Nat)

namespace Stmt

/-- The largest number of nestings or repetitions that a statement may ask for. -/
def maxCount : Nat := 1000

def permitCount (n : Nat) : Except Refusal Unit :=
  if n ≤ maxCount then .ok () else .error (.tooMany n)

/-- The clauses of a statement may be missing altogether, but otherwise obey the rule for clause
lists. -/
def permitClauses (selectors : List Selector) : Except Refusal Unit :=
  if selectors.isEmpty then .ok () else (checkSelectors selectors).mapError .clauses

def permitUp (clauseDepth up : Nat) : Except Refusal Unit :=
  if up < clauseDepth then .ok () else .error (.notHandling up)

/-- Whether a statement may stand inside `clauseDepth` clauses, apart from the bodies in it. -/
def permit (clauseDepth : Nat) : Stmt → Except Refusal Unit
  | .nest n _ _ | .times n _ => permitCount n
  | .guard _ clauses => permitClauses (clauses.map (·.1))
  | .nestGuard n _ clauses => do
    permitCount n
    permitClauses (clauses.map (·.1))
  | .rethrow up => permitUp clauseDepth up
  | .payloadValue => permitUp clauseDepth 0
  | _ => .ok ()

end Stmt

end Unwind
