import Unwind.Program.Run

/-!
# Entry points and startup

A failure that escapes an entry point is fatal. A startup runs named initializers in order, each in
a frame of its own, and then the entry point; the first failure ends it.
-/

namespace Unwind

variable {α : Type}

/-- A failure that reached the outermost frame. -/
inductive Fatal where
  | init (name : String) (f : Failure)
  | uncaught (entry : String) (f : Failure)

namespace Fatal

/-- The initializer or entry point that failed. -/
def name : Fatal → String
  | .init name _ => name
  | .uncaught entry _ => entry

def failure : Fatal → Failure
  | .init _ f => f
  | .uncaught _ f => f

def message : Fatal → String
  | .init name f => s!"initializer `{name}` raised uncaught {f.payload.text}"
  | .uncaught entry f => s!"uncaught {f.payload.text} escaped `{entry}`"

/-- What is reported before a run that ended fatally is aborted. -/
def lastWords (f : Fatal) : List Trace :=
  [.lastWords f.message, .lastWords f.failure.report, .terminating]

end Fatal

namespace Machine

/-- Run an entry point. -/
def enter (name : String) (body : Action α) : Machine → Step (Except Fatal α) := fun m =>
  (m.call name body).andThen fun
    | .ok a => fun m => ⟨[], .ok a, m⟩
    | .error f => fun m =>
      ⟨[.trace (.uncaught f.id name f.payload)], .error (.uncaught name f), m⟩

/-- Run initializers in order until one fails. -/
def initialise : List (String × Action α) → Machine → Step (Except Fatal Unit)
  | [] => fun m => ⟨[], .ok (), m⟩
  | (name, body) :: rest => fun m =>
    (m.call name body).andThen fun
      | .ok _ => initialise rest
      | .error f => fun m =>
        ⟨[.trace (.uncaughtInit f.id name f.payload)], .error (.init name f), m⟩

end Machine

/-- One thing to do on a machine: a body on the current frame, or an entry point. -/
structure Task where
  entry : Option String
  body : List Stmt

/-- How a task ends. -/
inductive Ending where
  | ended (e : Ended)
  | failed (f : Failure)
  | fatal (f : Fatal)

def Task.run (t : Task) : Machine → Step Ending := fun m =>
  let body := Stmt.runBody t.body [] 0
  match t.entry with
  | none => (body m).andThen fun
    | .ok e => fun m => ⟨[], .ended e, m⟩
    | .error f => fun m => ⟨[], .failed f, m⟩
  | some name => (m.enter name body).andThen fun
    | .ok e => fun m => ⟨[], .ended e, m⟩
    | .error f => fun m => ⟨[], .fatal f, m⟩

/-- Do tasks one after the other on the same machine. -/
def Task.runAll : List Task → Machine → List (Step Ending)
  | [], _ => []
  | t :: rest, m =>
    let s := t.run m
    s :: runAll rest s.machine

/-- A program with its initializers. -/
structure Startup where
  config : Config
  inits : List (String × List Stmt)
  entry : String
  body : List Stmt

namespace Startup

def text (p : Startup) : String :=
  let names := Text.bracketed (p.inits.map fun init => Text.quoted init.1)
  s!"Process \x7b config: {p.config.text}, initializers: {names} \x7d"

/-- The action of a body, which starts with nothing set aside. -/
def phase (body : List Stmt) : Action Ended := fun m =>
  Stmt.runBody body [] 0 { m with kept := [] }

/-- Run the initializers and then the entry point. -/
def run (p : Startup) : Step (Except Fatal Ended) :=
  ((Machine.new p.config).initialise (p.inits.map fun init => (init.1, phase init.2))).andThen fun
    | .error f => fun m => ⟨[], .error f, m⟩
    | .ok () => Machine.enter p.entry (phase p.body)

/-- All that is reported from start to end, with the final release of what is still held. -/
def events (s : Step (Except Fatal Ended)) : List Event :=
  s.events ++ s.machine.drain

end Startup

end Unwind
