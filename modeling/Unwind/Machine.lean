import Unwind.Config
import Unwind.Event
import Unwind.Stack

/-!
# Machines

The state of a run: the call stack, the active regions, how many failures were raised and regions
entered so far, and the failures that the program has set aside under a name.
-/

namespace Unwind

/-- A resource that a function has deferred. -/
structure Resource where
  label : String
  /-- What its release reports, beside the release itself. -/
  onRelease : List Event

/-- The text of a resource in the text of a stack. -/
def Resource.text (r : Resource) : String :=
  s!"Resource({Text.quoted r.label})"

/-- What is reported when a resource is released. -/
def Release.events (r : Release Resource) : List Event :=
  .trace (.release r.function r.resource.label) :: r.resource.onRelease

def Frame.text (f : Frame Resource) : String :=
  let held := Text.bracketed (f.resources.map Resource.text)
  s!"Frame \x7b name: {Text.quoted f.name}, resources: {held} \x7d"

def CallStack.text (s : CallStack Resource) : String :=
  s!"CallStack \x7b frames: {Text.bracketed (s.frames.map Frame.text)} \x7d"

/-- A resource whose release is noted under its label. -/
def Resource.noted (label : String) : Resource :=
  ⟨label, [.note (.released label)]⟩

/-- What an operation on a stack reports, given what it released. -/
def StackOp.events (before : CallStack Resource) (released : List (Release Resource)) :
    StackOp Resource → List Event
  | .push name => [.trace (.enter name before.depth)]
  | _ => released.flatMap Release.events

/-- A region whose body is running. -/
structure OpenRegion where
  id : Nat
  /-- The depth of the stack when the region was entered. -/
  depth : Nat
  deriving DecidableEq

structure Machine where
  config : Config
  stack : CallStack Resource
  /-- The active regions, innermost first. -/
  regions : List OpenRegion := []
  /-- How many failures were raised. -/
  raises : Nat := 0
  /-- How many regions were entered. -/
  entered : Nat := 0
  /-- Failures set aside, each under its own name. -/
  kept : List (String × Failure) := []
  /-- Every active region was entered. -/
  numbered : ∀ r ∈ regions, r.id ≤ entered := by simp

namespace Machine

def new (config : Config) : Machine :=
  { config, stack := .ofRoot config.rootName }

/-- Enter a function. -/
def withFrame (m : Machine) (name : String) : Machine :=
  { m with stack := m.stack.push name }

/-- Number a new region and make it active. -/
def withRegion (m : Machine) : Machine :=
  { m with
    entered := m.entered + 1
    regions := ⟨m.entered + 1, m.stack.depth⟩ :: m.regions
    numbered := List.forall_mem_cons.2
      ⟨Nat.le_refl _, fun r hr => Nat.le_succ_of_le (m.numbered r hr)⟩ }

/-- Make a region inactive. -/
def withoutRegion (m : Machine) (id : Nat) : Machine :=
  { m with
    regions := m.regions.filter (·.id ≠ id)
    numbered := fun r hr => m.numbered r (List.mem_filter.1 hr).1 }

def snapshot (m : Machine) : Snapshot where
  depth := m.stack.depth
  frames := m.stack.frames.map fun f => (f.name, f.resources.map (·.label))
  regions := m.regions.reverse.map fun r => (r.id, r.depth)

/-- Set a failure aside, replacing an older one of that name. -/
def keep (m : Machine) (name : String) (f : Failure) : Machine :=
  { m with kept := (name, f) :: m.kept.filter (·.1 ≠ name) }

/-- The failure set aside under a name. -/
def kept? (m : Machine) (name : String) : Option Failure :=
  m.kept.lookup name

def forget (m : Machine) (name : String) : Machine :=
  { m with kept := m.kept.filter (·.1 ≠ name) }

/-- What is reported when the machine is given up and everything still held is released. -/
def drain (m : Machine) : List Event :=
  m.stack.drain.flatMap Release.events

end Machine

end Unwind
