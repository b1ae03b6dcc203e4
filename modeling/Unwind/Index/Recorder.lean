import Unwind.Index.Basic

/-!
# Recording a program

A recorder builds an index from a walk over a program: functions are entered and left, calls and
throws noted, regions opened, their clauses started, and closed. An operation that is refused
changes nothing, except that closing a region with a bad clause list still closes it.
-/

namespace Unwind

/-- What an operation was about, in messages. -/
inductive Construct where
  | call
  | throw
  | rethrow
  | region
  | clause
  | functionEnd
  | regionEnd
  deriving DecidableEq

def Construct.name : Construct → String
  | .call => "call"
  | .throw => "throw"
  | .rethrow => "rethrow"
  | .region => "try"
  | .clause => "catch"
  | .functionEnd => "end of function"
  | .regionEnd => "end of region"

/-- Why an operation is refused. -/
inductive WalkError where
  | redeclared (name : String) (first second : Location)
  | nestedFunction (outer inner : String)
  | outsideFunction (what : Construct) (loc : Location)
  | noOpenRegion (what : Construct) (loc : Location)
  | unclosedRegion (loc : Location)
  | unclosedFunction (name : String)
  | rethrowOutsideClause (loc : Location)
  | clauses (loc : Location) (fault : ClauseFault)
  deriving DecidableEq

namespace WalkError

def message : WalkError → String
  | .redeclared name first second =>
    s!"function `{name}` declared twice (at {first.text} and {second.text})"
  | .nestedFunction outer inner => s!"function `{inner}` declared inside `{outer}`"
  | .outsideFunction what loc => s!"{what.name} at {loc.text} is outside any function"
  | .noOpenRegion what loc => s!"{what.name} at {loc.text} has no open region"
  | .unclosedRegion loc => s!"region opened at {loc.text} is never closed"
  | .unclosedFunction name => s!"function `{name}` is never closed"
  | .rethrowOutsideClause loc => s!"rethrow at {loc.text} is not inside a catch clause"
  | .clauses loc _ => s!"invalid clauses for region at {loc.text}"

/-- The fault in a clause list behind an error. -/
def clauseFault? : WalkError → Option ClauseFault
  | .clauses _ fault => some fault
  | _ => none

end WalkError

/-- A step of a walk over a program. -/
inductive WalkOp where
  | enterFunction (name : String) (loc : Location)
  | leaveFunction
  | call (callee : String) (loc : Location)
  | throw (loc : Location) (kind : Kind)
  /-- Throw what the innermost clause handles. -/
  | rethrow (loc : Location)
  | openRegion (loc : Location)
  /-- Start the next clause of the innermost open region. -/
  | startClause (loc : Location) (selector : Selector)
  | closeRegion
  deriving DecidableEq

/-- A region that is being walked. -/
structure WalkedRegion where
  id : Nat
  /-- The clause being walked; none while in the body. -/
  clause : Option Nat := none
  deriving DecidableEq

structure Recorder where
  index : CallIndex := {}
  current : Option String := none
  /-- The open regions, innermost first. -/
  opened : List WalkedRegion := []
  deriving DecidableEq

namespace Recorder

/-- The regions whose bodies enclose the current point, outermost first. A region does not guard
its own clauses. -/
def guards (r : Recorder) : List Nat :=
  (r.opened.filter (·.clause.isNone)).reverse.map (·.id)

/-- The function being walked. -/
def inFunction (r : Recorder) (what : Construct) (loc : Location) : Except WalkError String :=
  match r.current with
  | some name => .ok name
  | none => .error (.outsideFunction what loc)

/-- Where a region was opened. -/
def locationOf (r : Recorder) (id : Nat) : Location :=
  match r.index.region? id with
  | some region => region.loc
  | none => {}

/-- The selectors of the clauses of a region. -/
def selectorsOf (r : Recorder) (id : Nat) : List Selector :=
  match r.index.region? id with
  | some region => region.clauses.map (·.selector)
  | none => []

/-- The selector of the clause that an open region is in. -/
def clauseSelector? (r : Recorder) (t : WalkedRegion) : Option Selector := do
  let i ← t.clause
  (r.selectorsOf t.id)[i]?

/-- The selector of the innermost clause around the current point. -/
def handled? (r : Recorder) : Option Selector :=
  r.opened.findSome? r.clauseSelector?

def addThrow (r : Recorder) (t : ThrowEntry) : Recorder :=
  { r with index := { r.index with throws := r.index.throws ++ [t] } }

def enterFunction (r : Recorder) (name : String) (loc : Location) : Except WalkError Recorder :=
  match r.current with
  | some outer => .error (.nestedFunction outer name)
  | none =>
    match (r.index.function? name).bind (·.decl) with
    | some first => .error (.redeclared name first loc)
    | none => .ok { r with
        index := r.index.update name fun entry => { entry with decl := some loc }
        current := some name }

def leaveFunction (r : Recorder) : Except WalkError Recorder :=
  match r.opened with
  | t :: _ => .error (.unclosedRegion (r.locationOf t.id))
  | [] => do
    let _ ← r.inFunction .functionEnd {}
    return { r with current := none }

def call (r : Recorder) (callee : String) (loc : Location) : Except WalkError Recorder := do
  let caller ← r.inFunction .call loc
  let guards := r.guards
  let calling := r.index.update caller fun entry =>
    { entry with calls := entry.calls ++ [⟨callee, loc, guards⟩] }
  return { r with
    index := calling.update callee fun entry =>
      { entry with callers := entry.callers ++ [⟨caller, loc, guards⟩] } }

def throw (r : Recorder) (loc : Location) (kind : Kind) : Except WalkError Recorder := do
  let function ← r.inFunction .throw loc
  return r.addThrow ⟨function, loc, some kind, false, r.guards⟩

def rethrow (r : Recorder) (loc : Location) : Except WalkError Recorder := do
  let function ← r.inFunction .rethrow loc
  match r.handled? with
  | none => .error (.rethrowOutsideClause loc)
  | some (.kind k) => .ok (r.addThrow ⟨function, loc, some k, true, r.guards⟩)
  | some .any => .ok (r.addThrow ⟨function, loc, none, true, r.guards⟩)

def openRegion (r : Recorder) (loc : Location) : Except WalkError Recorder := do
  let function ← r.inFunction .region loc
  let id := r.index.regions.length
  return { r with
    index := { r.index with regions := r.index.regions ++ [{ id, loc, function }] }
    opened := { id } :: r.opened }

def startClause (r : Recorder) (loc : Location) (selector : Selector) : Except WalkError Recorder :=
  match r.opened with
  | [] => .error (.noOpenRegion .clause loc)
  | t :: rest =>
    let regions := r.index.regions.modify t.id fun region =>
      { region with clauses := region.clauses ++ [⟨loc, selector⟩] }
    .ok { r with
      index := { r.index with regions }
      opened := { t with clause := some (r.selectorsOf t.id).length } :: rest }

/-- Close the innermost open region, then check its clauses. -/
def closeRegion (r : Recorder) : Recorder × Option WalkError :=
  match r.opened with
  | [] => (r, some (.noOpenRegion .regionEnd {}))
  | t :: rest =>
    let closed := { r with opened := rest }
    match checkSelectors (r.selectorsOf t.id) with
    | .ok () => (closed, none)
    | .error fault => (closed, some (.clauses (r.locationOf t.id) fault))

/-- The recorder after an operation; as before if the operation is refused. -/
def orRefuse (r : Recorder) : Except WalkError Recorder → Recorder × Option WalkError
  | .ok r' => (r', none)
  | .error e => (r, some e)

/-- Do one operation: the recorder afterwards and, if it was refused, why. -/
def step (r : Recorder) : WalkOp → Recorder × Option WalkError
  | .enterFunction name loc => r.orRefuse (r.enterFunction name loc)
  | .leaveFunction => r.orRefuse r.leaveFunction
  | .call callee loc => r.orRefuse (r.call callee loc)
  | .throw loc kind => r.orRefuse (r.throw loc kind)
  | .rethrow loc => r.orRefuse (r.rethrow loc)
  | .openRegion loc => r.orRefuse (r.openRegion loc)
  | .startClause loc selector => r.orRefuse (r.startClause loc selector)
  | .closeRegion => r.closeRegion

/-- Do operations in order, going on after one that is refused. Returns what was wrong with each. -/
def run (r : Recorder) : List WalkOp → Recorder × List (Option WalkError)
  | [] => (r, [])
  | op :: rest =>
    let first := r.step op
    let after := first.1.run rest
    (after.1, first.2 :: after.2)

/-- The index, once every function and region is closed. -/
def finish (r : Recorder) : Except WalkError CallIndex :=
  match r.opened, r.current with
  | t :: _, _ => .error (.unclosedRegion (r.locationOf t.id))
  | [], some name => .error (.unclosedFunction name)
  | [], none => .ok r.index

end Recorder

/-- The functions declared by a walk, in order: those whose operation was not refused. -/
def declared : List WalkOp → List (Option WalkError) → List (String × Location)
  | .enterFunction name loc :: ops, none :: errors => (name, loc) :: declared ops errors
  | _ :: ops, _ :: errors => declared ops errors
  | _, _ => []

end Unwind
