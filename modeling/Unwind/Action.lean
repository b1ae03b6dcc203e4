import Unwind.Machine

/-!
# Actions

The operations of a machine. An action takes the machine through a step and ends with a value or
with a failure in flight. Calls and guarded regions are scopes: whichever way their body ends, what
was deferred in it is released before anything outside sees the result.
-/

namespace Unwind

variable {α β : Type}

/-- What happened while something ran: its reports, its result and the machine afterwards. -/
structure Step (α : Type) where
  events : List Event
  result : α
  machine : Machine

/-- Go on after a step. -/
def Step.andThen (s : Step α) (next : α → Machine → Step β) : Step β :=
  let t := next s.result s.machine
  { t with events := s.events ++ t.events }

/-- Something that a machine can run and that may fail. -/
abbrev Action (α : Type) := Machine → Step (Except Failure α)

/-- The failure that a clause handles, and the region of the clause. -/
structure Handled where
  failure : Failure
  region : Nat

/-- A clause of a guarded region. -/
structure Clause (α : Type) where
  selector : Selector
  run : Handled → Action α

namespace Action

/-- End with a value, changing nothing. -/
def done (a : α) : Action α := fun m =>
  ⟨[], .ok a, m⟩

/-- End with a failure that is already in flight. -/
def fail (f : Failure) : Action α := fun m =>
  ⟨[], .error f, m⟩

/-- Report something. -/
def report (events : List Event) (a : α) : Action α := fun m =>
  ⟨events, .ok a, m⟩

/-- Go on with the value of an action; a failure is passed on. -/
def andThen (act : Action α) (next : α → Action β) : Action β := fun m =>
  (act m).andThen fun
    | .ok a => next a
    | .error f => fail f

/-- Put an action inside `n` copies of a scope. -/
def nested (scope : Action α → Action α) : Nat → Action α → Action α
  | 0, act => act
  | n + 1, act => scope (nested scope n act)

end Action

namespace Machine

/-- Start a failure in the current frame, without letting it fly. -/
def mint (p : Payload) : Machine → Step Failure := fun m =>
  let id := m.raises + 1
  let function := m.stack.topName
  { events := [.trace (.raise id p function)]
    result := { id, payload := p, origin := function, hopLimit := m.config.hopLimit }
    machine := { m with raises := id } }

/-- Fail with a new failure. -/
def raise (p : Payload) : Action α := fun m =>
  (m.mint p).andThen Action.fail

/-- Give the current frame a resource. -/
def defer (resource : Resource) (a : α) : Action α := fun m =>
  { events := [.trace (.defer m.stack.topName resource.label)]
    result := .ok a
    machine := { m with stack := m.stack.defer resource } }

/-- Run a body in a frame of its own. -/
def call (name : String) (body : Action α) : Action α := fun m =>
  let s := body (m.withFrame name)
  let t := s.machine.stack.popTo m.stack.depth
  let count := t.count
  let events := .trace (.enter name m.stack.depth) :: s.events ++ t.released.flatMap Release.events
  let machine := { s.machine with stack := t.stack }
  match s.result with
  | .ok a => ⟨events, .ok a, machine⟩
  | .error f =>
    { events := events ++ [.trace (.unwound f.id name count)]
      result := .error (f.record (.unwound name count))
      machine }

/-- Run the body of a new region. The region is left, and what was deferred in the body released,
before the result is handed on. -/
def enterRegion (body : Action α) : Machine → Step (Nat × Except Failure α) := fun m =>
  let id := m.entered + 1
  let s := body m.withRegion
  let t := s.machine.stack.returnTo m.stack.mark
  let count := t.count
  { events := .trace (.enterRegion id m.stack.topName) :: s.events ++
      t.released.flatMap Release.events ++ [.trace (.leaveRegion id count)]
    result := (id, s.result.mapError fun f =>
      if count = 0 then f else f.record (.released id count))
    machine := { s.machine.withoutRegion id with stack := t.stack } }

/-- Offer a failure to clauses in order, the first of them being clause `i` of its region. The
first that takes the payload runs and decides the result. -/
def offer (region : Nat) (f : Failure) : (i : Nat) → List (Clause α) → Action α
  | i, [] => fun m =>
    { events := [.trace (.noClause f.id region i)]
      result := .error (f.record (.passed region))
      machine := m }
  | i, clause :: rest =>
    if clause.selector.accepts f.kind then
      (Action.report [.trace (.caught f.id region i clause.selector)] ()).andThen fun _ =>
        clause.run ⟨f, region⟩
    else
      offer region f (i + 1) rest

/-- The result of a region from the result of its body: a value is kept, a failure is offered to
the clauses. -/
def dispatch (region : Nat) (clauses : List (Clause α)) : Except Failure α → Action α
  | .ok a => Action.done a
  | .error f => offer region f 0 clauses

/-- Run a guarded region. -/
def guard (body : Action α) (clauses : List (Clause α)) : Action α := fun m =>
  (m.enterRegion body).andThen fun (region, result) => dispatch region clauses result

end Machine

/-- Send the handled failure on to the next region outward. The clause keeps it, so it may
send the same failure on more than once. -/
def Handled.rethrow (h : Handled) : Action α := fun m =>
  { events := [.trace (.rethrow h.failure.id h.region h.failure.payload)]
    result := .error (h.failure.record (.rethrown h.region))
    machine := m }

end Unwind
