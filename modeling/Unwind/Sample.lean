import Unwind.Action
import Unwind.Completion

/-!
# A sample program

A small call graph that fails under a condition of the caller, written directly as actions.
-/

namespace Unwind

namespace Sample

/-- Fails with the integer 0 if `b`, otherwise with a record of 0. -/
def foo (b : Bool) : Action Int32 :=
  Machine.call "foo" (Machine.raise (if b then .int 0 else .record ⟨0⟩))

def baz (b : Bool) : Action Int32 :=
  Machine.call "baz" (foo b)

theorem foo_fails (b : Bool) (m : Machine) (v : Int32) : (foo b m).result ≠ .ok v := by
  intro h
  cases h

/-- Calls `foo`, itself and `baz`, and then fails with the integer 0. The recursion never gets past
the call of `foo`, which always fails. -/
def bar (b : Bool) (m : Machine) : Step (Except Failure Int32) :=
  m.call "bar" fun inside =>
    match _h : (foo b inside).result with
    | .ok _ =>
      (foo b inside).andThen fun _ =>
        Action.andThen (bar b) fun _ => (baz b).andThen fun _ => Machine.raise (.int 0)
    | .error f => (foo b inside).andThen fun _ => Action.fail f
termination_by b.toNat
decreasing_by exact absurd _h (foo_fails b inside _)

theorem bar_eq (b : Bool) : bar b = Machine.call "bar" (foo b) := by
  funext m
  rw [bar]
  refine congrArg (fun body => m.call "bar" body) (funext fun inside => ?_)
  split
  next v h => exact absurd h (foo_fails b inside v)
  next f h =>
    rw [Step.andThen, Action.fail, List.append_nil, ← h]

/-- A clause that leaves the function with `v`. -/
def exitWith (selector : Selector) (v : Int32) : Clause (Completion Unit Int32) where
  selector
  run _ := Action.done (.early v)

/-- The clauses of the entry points: 2 for a record, 3 for an integer, 1 for anything else. -/
def exits : List (Clause (Completion Unit Int32)) :=
  [exitWith (.kind .record) 2, exitWith (.kind .int) 3, exitWith .any 1]

/-- `foo` as a statement: its value is not used. -/
def fooStatement (b : Bool) : Action (Completion Unit Int32) :=
  (foo b).andThen fun _ => Action.done (.value ())

/-- Go on with `rest` unless the function has been left. -/
def unlessEarly (act : Action (Completion Unit Int32)) (rest : Action Int32) : Action Int32 :=
  act.andThen fun
    | .value () => rest
    | .early v => Action.done v

/-- The entry point: a guarded call of `foo` in a frame that holds a local record. -/
def entry (argc : Int32) : Action Int32 :=
  let atOne := decide (argc = 1)
  Machine.call "main" <|
    (Machine.defer ⟨"local", [.trace (.releaseLocal argc)]⟩ ()).andThen fun _ =>
      unlessEarly (Machine.guard (fooStatement atOne) exits) <|
        (foo atOne).andThen fun _ => Action.done 0

/-- The entry point with an inner region that takes integers only to send them on. -/
def entryRethrowing (argc : Int32) : Action Int32 :=
  let atOne := decide (argc = 1)
  let inner := Machine.guard (fooStatement atOne) [⟨.kind .int, Handled.rethrow⟩]
  Machine.call "main" <|
    unlessEarly (Machine.guard inner exits) (Action.done 0)

end Sample

/-- The functions of the sample program. -/
inductive SampleFunction where
  | foo (b : Bool)
  | bar (b : Bool)
  | baz (b : Bool)
  | entry (argc : Int32)
  | entryRethrowing (argc : Int32)
  /-- An initializer that fails. -/
  | globalInit

def SampleFunction.run : SampleFunction → Action Int32
  | .foo b => Sample.foo b
  | .bar b => Sample.bar b
  | .baz b => Sample.baz b
  | .entry argc => Sample.entry argc
  | .entryRethrowing argc => Sample.entryRethrowing argc
  | .globalInit => (Sample.foo true).andThen fun _ => Action.done 0

end Unwind
