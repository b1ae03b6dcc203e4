import Unwind.Program.Stmt

/-!
# Running programs

The meaning of statements as actions of a machine. `hs` are the failures handled by the enclosing
clauses, innermost first.
-/

namespace Unwind

/-- How a body ends. -/
abbrev Ended := Completion Int32 Int32

/-- The meaning of a statement: from the current value to the next one, or out of the body. -/
abbrev Meaning := Int32 → Action Ended

namespace Stmt

/-- Report the value of a statement and go on with it. -/
def yield (v : Int32) : Action Ended :=
  Action.report [.note (.value v)] (.value v)

/-- Report how a region ended. -/
def yieldEnded : Ended → Action Ended
  | .value v => yield v
  | .early v => Action.report [.note (.early v)] (.early v)

/-- A guarded region that reports when it turns to its clauses. -/
def notedGuard (clauses : List (Clause Ended)) (body : Action Ended) : Action Ended := fun m =>
  (m.enterRegion body).andThen fun (region, result) =>
    (Action.report [.note (.dispatch region)] ()).andThen fun _ =>
      Machine.dispatch region clauses result

/-- Clause `index` of a region, reporting what it sees when it starts. -/
def notedClause (index : Nat) (selector : Selector) (body : Handled → Action Ended) :
    Clause Ended where
  selector
  run h := fun m =>
    let start : ClauseStart :=
      { index, region := h.region, failure := h.failure, depth := m.stack.depth
        active := m.regions.length }
    (Action.report [.note (.clause start)] ()).andThen (fun _ => body h) m

/-- Run a body, and go on from the current value `v` if it fails. -/
def attempting (name : Option String) (body : Action Ended) : Meaning := fun v m =>
  (body m).andThen fun
    | .ok ended => Action.done ended
    | .error f => fun m =>
      match name with
      | some name => ⟨[.note (.failed f)], .ok (.value v), m.keep name f⟩
      | none => ⟨[.note (.failed f), .note (.dropped f.payload)], .ok (.value v), m⟩

/-- Fail with the failure set aside under a name. -/
def resuming (name : String) (forget : Bool) : Meaning := fun v m =>
  match m.kept? name with
  | some f => Action.fail f (if forget then m.forget name else m)
  | none => Action.report [.note .nothingToResume] (.value v) m

/-- Run a body `n` times; the last value is the value of all. -/
def repeating (body : Action Ended) : Nat → Meaning
  | 0, v => Action.done (.value v)
  | n + 1, _ => body.andThen fun
    | .value v => repeating body n v
    | .early v => Action.done (.early v)

mutual

def run : Stmt → List Handled → Meaning
  | .call name body, hs, _ => (Machine.call name (runBody body hs 0)).andThen (yield ·.get)
  | .nest n name body, hs, _ =>
    (Action.nested (Machine.call name) n (runBody body hs 0)).andThen fun ended =>
      Action.done (.value ended.get)
  | .guard body clauses, hs, _ =>
    (notedGuard (runClauses 0 clauses hs) (runBody body hs 0)).andThen yieldEnded
  | .nestGuard n body clauses, hs, _ =>
    Action.nested (notedGuard (runClauses 0 clauses hs)) n (runBody body hs 0)
  | .times n body, hs, v => repeating (runBody body hs 0) n v
  | .attempt body name, hs, v => attempting name (runBody body hs 0) v
  | .resume name, _, v => resuming name true v
  | .resumeCopy name, _, v => resuming name false v
  | .defer label, _, v => Machine.defer (.noted label) (.value v)
  | .raise p, _, _ => Machine.raise p
  | .mint p, _, v => fun m => (m.mint p).andThen fun f =>
    Action.report [.note (.minted f)] (.value v)
  | .rethrow up, hs, v =>
    match hs[up]? with
    | some h => h.rethrow
    | none => Action.done (.value v)
  | .leave v, _, _ => Action.done (.early v)
  | .value v, _, _ => Action.done (.value v)
  | .payloadValue, hs, v =>
    match hs.head? with
    | some h => Action.done (.value h.failure.payload.integer)
    | none => Action.done (.value v)
  | .snap, _, v => fun m => Action.report [.note (.snap m.snapshot)] (.value v) m
  | .note text, _, v => Action.report [.note (.text text)] (.value v)
  | .sample f, _, _ => f.run.andThen yield

/-- Run statements in order, from the current value. -/
def runBody : List Stmt → List Handled → Meaning
  | [], _, v => Action.done (.value v)
  | stmt :: rest, hs, v => (run stmt hs v).andThen fun
    | .value v => runBody rest hs v
    | .early v => Action.done (.early v)

/-- The clauses of a region, the first of them being clause `i`. -/
def runClauses : (i : Nat) → List (Selector × List Stmt) → List Handled → List (Clause Ended)
  | _, [], _ => []
  | i, (selector, body) :: rest, hs =>
    notedClause i selector (fun h => runBody body (h :: hs) 0) :: runClauses (i + 1) rest hs

end

end Stmt

end Unwind
