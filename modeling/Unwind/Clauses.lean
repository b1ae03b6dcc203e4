import Unwind.Payload

/-!
# Clause lists

A guarded region has at least one clause, at most one catch-all, and the catch-all comes last.
-/

namespace Unwind

/-- Why a clause list is refused. Positions count from zero. -/
inductive ClauseFault where
  | noClauses
  | catchAllNotLast (position total : Nat)
  | duplicateCatchAll (position : Nat)
  deriving DecidableEq

def ClauseFault.message : ClauseFault → String
  | .noClauses => "guarded region has no handler clauses"
  | .catchAllNotLast position total =>
    s!"catch-all at clause {position} of {total} must be the last clause"
  | .duplicateCatchAll position => s!"second catch-all at clause {position}"

/-- The position of the only catch-all among `selectors`, the first of which is at position `i`.
`seen` is the position of a catch-all before them; a second one is a fault. -/
def findCatchAll : (i : Nat) → (seen : Option Nat) → (selectors : List Selector) →
    Except ClauseFault (Option Nat)
  | _, seen, [] => .ok seen
  | i, seen, selector :: rest =>
    match selector.takesAll, seen with
    | false, _ => findCatchAll (i + 1) seen rest
    | true, none => findCatchAll (i + 1) (some i) rest
    | true, some _ => .error (.duplicateCatchAll i)

/-- Check the selectors of a clause list. Of several faults a second catch-all is the one
reported. -/
def checkSelectors (selectors : List Selector) : Except ClauseFault Unit :=
  if selectors.isEmpty then
    .error .noClauses
  else
    match findCatchAll 0 none selectors with
    | .error fault => .error fault
    | .ok none => .ok ()
    | .ok (some position) =>
      if position + 1 = selectors.length then .ok ()
      else .error (.catchAllNotLast position selectors.length)

end Unwind
