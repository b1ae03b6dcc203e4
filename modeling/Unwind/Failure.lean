import Unwind.Payload

/-!
# Failures in flight

A failure keeps its number, payload and origin all the way out. Every frame and region that it
leaves adds a hop to its trail, innermost first, until the trail has reached its limit.
-/

namespace Unwind

/-- A position in a program text. -/
structure Site where
  file : String
  line : Nat
  column : Nat
  deriving DecidableEq

def Site.text (site : Site) : String :=
  s!"{site.file}:{site.line}:{site.column}"

/-- The text of a failure's number. Failures are numbered from one in the order in which they are
raised. -/
def failureText (id : Nat) : String :=
  s!"#{id}"

/-- The text of a region's number. Guarded regions are numbered from one in the order in which they
are entered. -/
def regionText (id : Nat) : String :=
  s!"region #{id}"

/-- One step of a failure on its way out. -/
inductive Hop where
  /-- A call frame was left and `count` resources in it were released. -/
  | unwound (function : String) (count : Nat)
  /-- The body of a region was left and `count` resources deferred in it were released. -/
  | released (region count : Nat)
  /-- No clause of the region took the payload. -/
  | passed (region : Nat)
  /-- A clause of the region took the payload and sent it on. -/
  | rethrown (region : Nat)
  deriving DecidableEq

namespace Hop

def text : Hop → String
  | .unwound function count => s!"unwound `{function}` ({count} released)"
  | .released region count => s!"left {regionText region} ({count} released)"
  | .passed region => s!"passed {regionText region}"
  | .rethrown region => s!"rethrown from {regionText region}"

/-- The function whose frame was left. -/
def function? : Hop → Option String
  | .unwound function _ => some function
  | _ => none

def isRethrown : Hop → Bool
  | .rethrown _ => true
  | _ => false

end Hop

/-- A payload in flight. -/
structure Failure where
  id : Nat
  payload : Payload
  /-- The function whose frame was on top when the payload was raised. -/
  origin : String
  /-- Where the payload was raised, if that is known. -/
  site : Option Site := none
  /-- The trail, innermost hop first. -/
  hops : List Hop := []
  hopLimit : Nat
  deriving DecidableEq

namespace Failure

def kind (f : Failure) : Kind :=
  f.payload.kind

/-- Add a hop to the trail unless the trail is full. -/
def record (f : Failure) (hop : Hop) : Failure :=
  if f.hops.length < f.hopLimit then { f with hops := f.hops ++ [hop] } else f

/-- The functions left so far, innermost first. -/
def functionsLeft (f : Failure) : List String :=
  f.hops.filterMap Hop.function?

/-- How many clauses have taken this failure and sent it on. -/
def timesSentOn (f : Failure) : Nat :=
  f.hops.countP Hop.isRethrown

def siteText (f : Failure) : String :=
  match f.site with
  | some site => site.text
  | none => "<site>"

/-- The failure and its trail, a line for each hop. -/
def report (f : Failure) : String :=
  let head := s!"{f.payload.text} raised {failureText f.id} in `{f.origin}` at {f.siteText}"
  if f.hops.isEmpty then head
  else head ++ "\n\nPropagation (innermost first):" ++
    String.join (f.hops.map fun hop => "\n  " ++ hop.text)

end Failure

end Unwind
