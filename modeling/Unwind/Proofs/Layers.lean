import Mathlib.Data.List.Induction
import Unwind.Proofs.Scopes

/-!
# Layers around an action

A nest of scopes as a list, the innermost first. Each layer is a call or a guarded region that
defers some resources and then runs what is inside it.
-/

namespace Unwind

variable {α : Type}

/-- The machine after resources were deferred, given newest first. -/
def Machine.acquire (m : Machine) (resources : List Resource) : Machine :=
  { m with stack := m.stack.acquire resources }

/-- Defer resources, the first of them first, and go on. -/
def Action.deferring (resources : List Resource) (act : Action α) : Action α :=
  resources.foldr (fun r rest => (Machine.defer r ()).andThen fun _ => rest) act

theorem Action.deferring_eq (resources : List Resource) (act : Action α) (m : Machine) :
    deferring resources act m =
      let s := act (m.acquire resources.reverse)
      let deferrals := resources.map fun r => .trace (.defer m.stack.topName r.label)
      { s with events := deferrals ++ s.events } := by
  induction resources generalizing m with
  | nil => rfl
  | cons r rest ih =>
    have hm : (Machine.acquire m [r]).acquire rest.reverse = m.acquire (r :: rest).reverse := by
      simp [Machine.acquire]
    have hstep : deferring (r :: rest) act m =
        let s := deferring rest act (m.acquire [r])
        { s with events := .trace (.defer m.stack.topName r.label) :: s.events } := rfl
    rw [hstep, ih, hm]
    rfl

/-- A scope around an action, which defers resources before the action is run. -/
inductive Layer (α : Type) where
  | call (name : String) (resources : List Resource)
  | guard (resources : List Resource) (clauses : List (Clause α))

namespace Layer

def wrap : Layer α → Action α → Action α
  | .call name resources, act => Machine.call name (act.deferring resources)
  | .guard resources clauses, act => Machine.guard (act.deferring resources) clauses

/-- Put an action inside layers. -/
def around : List (Layer α) → Action α → Action α
  | [], act => act
  | layer :: outer, act => around outer (layer.wrap act)

def isRegion : Layer α → Bool
  | .call .. => false
  | .guard .. => true

def callName? : Layer α → Option String
  | .call name _ => some name
  | .guard .. => none

/-- The number of the region that a layer is, if it and the layers around it are entered when
`entered` regions were. -/
def regionId (entered : Nat) (layer : Layer α) (outer : List (Layer α)) : Nat :=
  entered + (layer :: outer).countP isRegion

theorem around_append (inner outer : List (Layer α)) (act : Action α) :
    around (inner ++ outer) act = around outer (around inner act) := by
  induction inner generalizing act with
  | nil => rfl
  | cons layer rest ih => exact ih (layer.wrap act)

end Layer

end Unwind
