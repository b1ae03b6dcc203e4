/-!
# Call stacks

A stack of call frames, each with the resources deferred in it. The outermost frame is never
popped, so a stack is a top frame and the frames below it. Resources are released newest first;
every operation that releases returns its releases in the order in which they happen, and how many
there were by its own count.
-/

namespace Unwind

variable {ρ : Type}

/-- An active call. -/
structure Frame (ρ : Type) where
  name : String
  /-- Held resources, newest first. -/
  held : List ρ := []

/-- A resource let go, and the function in whose frame it was held. -/
structure Release (ρ : Type) where
  function : String
  resource : ρ

namespace Frame

/-- The frame with its oldest `n` resources only. -/
def keepOldest (f : Frame ρ) (n : Nat) : Frame ρ :=
  { f with held := f.held.drop (f.held.length - n) }

/-- What is released when only the oldest `n` resources are kept. -/
def releasesTo (f : Frame ρ) (n : Nat) : List (Release ρ) :=
  (f.held.take (f.held.length - n)).map (⟨f.name, ·⟩)

/-- What is released when the frame is popped. -/
def releases (f : Frame ρ) : List (Release ρ) :=
  f.held.map (⟨f.name, ·⟩)

/-- Held resources, oldest first. -/
def resources (f : Frame ρ) : List ρ :=
  f.held.reverse

end Frame

/-- A place on the stack that can be returned to: the depth and the number of resources that the
top frame held. -/
structure Mark where
  depth : Nat
  held : Nat
  deriving DecidableEq

structure CallStack (ρ : Type) where
  top : Frame ρ
  /-- The frames below the top, innermost first. -/
  below : List (Frame ρ) := []

/-- What an operation released, and the stack that it left. -/
structure Teardown (ρ : Type) where
  released : List (Release ρ)
  /-- How many resources were released, counted frame by frame. -/
  count : Nat
  stack : CallStack ρ

namespace CallStack

/-- A stack of one frame. -/
def ofRoot (name : String) : CallStack ρ :=
  { top := { name } }

/-- All frames, outermost first. -/
def frames (s : CallStack ρ) : List (Frame ρ) :=
  (s.top :: s.below).reverse

def depth (s : CallStack ρ) : Nat :=
  s.below.length + 1

/-- The name of the current function. -/
def topName (s : CallStack ρ) : String :=
  s.top.name

def push (s : CallStack ρ) (name : String) : CallStack ρ :=
  { top := { name }, below := s.top :: s.below }

/-- Give the top frame a resource. -/
def defer (s : CallStack ρ) (resource : ρ) : CallStack ρ :=
  { s with top := { s.top with held := resource :: s.top.held } }

/-- Pop the top frame and release what it holds. The outermost frame stays, with its resources. -/
def pop (s : CallStack ρ) : Teardown ρ :=
  match s.below with
  | [] => ⟨[], 0, s⟩
  | next :: rest => ⟨s.top.releases, s.top.held.length, { top := next, below := rest }⟩

/-- Pop frames from `top` and the frames below it until at most `depth` frames are left. -/
def popFrames (depth : Nat) : (top : Frame ρ) → (below : List (Frame ρ)) → Teardown ρ
  | top, [] => ⟨[], 0, { top }⟩
  | top, next :: rest =>
    if (next :: rest).length < depth then
      ⟨[], 0, { top, below := next :: rest }⟩
    else
      let t := popFrames depth next rest
      { t with released := top.releases ++ t.released, count := top.held.length + t.count }

/-- Pop frames until at most `depth` frames, or only the outermost one, are left. -/
def popTo (s : CallStack ρ) (depth : Nat) : Teardown ρ :=
  popFrames depth s.top s.below

def mark (s : CallStack ρ) : Mark :=
  { depth := s.depth, held := s.top.held.length }

/-- Let the top frame keep its oldest `n` resources. -/
def trimTo (s : CallStack ρ) (n : Nat) : Teardown ρ :=
  ⟨s.top.releasesTo n, s.top.held.length - n, { s with top := s.top.keepOldest n }⟩

/-- Return to a mark: pop the frames above it, then, if the marked depth has been reached, release
what the top frame has acquired beyond the mark. -/
def returnTo (s : CallStack ρ) (mark : Mark) : Teardown ρ :=
  let popped := s.popTo mark.depth
  if popped.stack.depth = mark.depth then
    let trimmed := popped.stack.trimTo mark.held
    { trimmed with
      released := popped.released ++ trimmed.released
      count := popped.count + trimmed.count }
  else
    popped

/-- The releases when the whole stack is given up. -/
def drain (s : CallStack ρ) : List (Release ρ) :=
  (s.top :: s.below).flatMap Frame.releases

end CallStack

/-! ## Histories

A stack in free use: marks are saved under a name and may be returned to at any later time, however
stale they are by then. -/

inductive StackOp (ρ : Type) where
  | push (name : String)
  | pop
  | defer (resource : ρ)
  | mark (slot : String)
  | returnTo (slot : String)

structure StackHistory (ρ : Type) where
  stack : CallStack ρ
  marks : List (String × Mark) := []

namespace StackHistory

/-- Do one operation: what it releases and what follows. There is nothing to return to if no mark
was saved under the name. -/
def step? (h : StackHistory ρ) : StackOp ρ → Option (List (Release ρ) × StackHistory ρ)
  | .push name => some ([], { h with stack := h.stack.push name })
  | .pop => some (h.stack.pop.released, { h with stack := h.stack.pop.stack })
  | .defer resource => some ([], { h with stack := h.stack.defer resource })
  | .mark slot => some ([], { h with marks := (slot, h.stack.mark) :: h.marks })
  | .returnTo slot =>
    (h.marks.lookup slot).map fun mark =>
      ((h.stack.returnTo mark).released, { h with stack := (h.stack.returnTo mark).stack })

/-- The count that an operation returns, if it is one that releases. -/
def count? (h : StackHistory ρ) : StackOp ρ → Option Nat
  | .pop => some h.stack.pop.count
  | .returnTo slot => (h.marks.lookup slot).map fun mark => (h.stack.returnTo mark).count
  | .push _ | .defer _ | .mark _ => none

end StackHistory

end Unwind
