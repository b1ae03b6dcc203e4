import Unwind.Failure

/-!
# Events

What a run reports, in the order in which it happens. Traces come from the machine itself; notes
come from the statements of the program that it runs.
-/

namespace Unwind

/-- What can be seen of a machine from outside. -/
structure Snapshot where
  depth : Nat
  /-- Names of the frames with the labels of the resources they hold; outermost frame and oldest
  resource first. -/
  frames : List (String × List String)
  /-- The active regions, outermost first, each with the depth at which it was entered. -/
  regions : List (Nat × Nat)
  deriving DecidableEq

inductive Level where
  | trace
  | debug
  | info
  | error
  deriving DecidableEq

def Level.name : Level → String
  | .trace => "TRACE"
  | .debug => "DEBUG"
  | .info => "INFO"
  | .error => "ERROR"

/-- Reports of the machine. -/
inductive Trace where
  /-- A frame was pushed on a stack of `depth` frames. -/
  | enter (function : String) (depth : Nat)
  | defer (function resource : String)
  | release (function resource : String)
  /-- The release of the local record in the sample program. -/
  | releaseLocal (i : Int32)
  | enterRegion (region : Nat) (function : String)
  | leaveRegion (region : Nat) (released : Nat)
  | raise (id : Nat) (payload : Payload) (function : String)
  | unwound (id : Nat) (function : String) (released : Nat)
  | caught (id : Nat) (region : Nat) (clause : Nat) (selector : Selector)
  | noClause (id : Nat) (region : Nat) (clauses : Nat)
  | rethrow (id : Nat) (region : Nat) (payload : Payload)
  | uncaught (id : Nat) (entry : String) (payload : Payload)
  | uncaughtInit (id : Nat) (initializer : String) (payload : Payload)
  /-- A text reported just before the end. -/
  | lastWords (text : String)
  | terminating
  deriving DecidableEq

namespace Trace

def title : Trace → String
  | .enter .. => "enter"
  | .defer .. => "defer"
  | .release .. => "release"
  | .releaseLocal .. => "release local"
  | .enterRegion .. => "enter region"
  | .leaveRegion .. => "leave region"
  | .raise .. => "raise"
  | .unwound .. => "unwound"
  | .caught .. => "caught"
  | .noClause .. => "no clause matched"
  | .rethrow .. => "rethrow"
  | .uncaught .. => "uncaught"
  | .uncaughtInit .. => "uncaught during init"
  | .lastWords text => text
  | .terminating => "terminating"

def level : Trace → Level
  | .enter .. | .defer .. | .release .. | .releaseLocal .. | .enterRegion .. | .leaveRegion .. =>
    .trace
  | .raise .. | .unwound .. | .caught .. | .noClause .. | .rethrow .. => .debug
  | .uncaught .. | .uncaughtInit .. | .lastWords _ => .error
  | .terminating => .info

end Trace

/-- What a clause of a program sees when it starts. -/
structure ClauseStart where
  index : Nat
  region : Nat
  failure : Failure
  depth : Nat
  /-- The number of active regions. -/
  active : Nat
  deriving DecidableEq

/-- Reports of the statements of a program. -/
inductive Note where
  | value (v : Int32)
  | early (v : Int32)
  | dispatch (region : Nat)
  | clause (start : ClauseStart)
  | failed (f : Failure)
  | dropped (p : Payload)
  | nothingToResume
  | released (label : String)
  | minted (f : Failure)
  | snap (s : Snapshot)
  | text (t : String)
  deriving DecidableEq

inductive Event where
  | trace (t : Trace)
  | note (n : Note)
  deriving DecidableEq

end Unwind
