import Unwind.Clauses
import Unwind.Index.Location

/-!
# The index of a program

The functions of a program and the calls between them, its guarded regions with their clauses, and
the places where it throws, each with the regions that guard it.
-/

namespace Unwind

/-- The text of the number of a region in an index. Regions are numbered from zero in the order in
which they are opened. -/
def regionEntryText (id : Nat) : String :=
  s!"try#{id}"

/-- A clause of a region. -/
structure RegionClause where
  loc : Location
  selector : Selector
  deriving DecidableEq

/-- A guarded region with its clauses in order. -/
structure RegionEntry where
  id : Nat
  loc : Location
  /-- The function that contains the region. -/
  function : String
  clauses : List RegionClause := []
  deriving DecidableEq

/-- The position of the first clause that is certain to take a payload. A payload of unknown kind is
taken by a catch-all only. -/
def RegionEntry.firstTaking (r : RegionEntry) (kind : Option Kind) : Option Nat :=
  r.clauses.findIdx? fun c =>
    match kind with
    | some k => c.selector.accepts k
    | none => c.selector.takesAll

/-- A call, seen from one of its ends. -/
structure CallEntry where
  /-- The function at the other end. -/
  function : String
  loc : Location
  /-- The regions that guard the call, outermost first. -/
  guards : List Nat
  deriving DecidableEq

structure FunctionEntry where
  name : String
  /-- Missing for a function that is only called. -/
  decl : Option Location := none
  callers : List CallEntry := []
  calls : List CallEntry := []
  deriving DecidableEq

/-- A place where a payload is thrown. -/
structure ThrowEntry where
  function : String
  loc : Location
  /-- Missing if a payload of unknown kind is sent on. -/
  kind : Option Kind
  /-- Whether a handled payload is sent on. -/
  rethrow : Bool
  /-- The regions that guard the place, outermost first. -/
  guards : List Nat
  deriving DecidableEq

/-- Where a thrown payload can end up. -/
inductive Fate where
  /-- A clause takes it. The function is that of the region, the location that of the clause. -/
  | taken (region clause : Nat) (function : String) (loc : Location)
  /-- It leaves a function that nothing new calls. -/
  | escapes (function : String)
  deriving DecidableEq

def Fate.isTaken : Fate → Bool
  | .taken .. => true
  | .escapes _ => false

structure CallIndex where
  /-- The functions in the order in which they were first named. The name of an entry is its only
  key, so that it is filed under its own name needs no proof, but that no two entries have the same
  one does. -/
  functions : List FunctionEntry := []
  regions : List RegionEntry := []
  throws : List ThrowEntry := []
  deriving DecidableEq

namespace CallIndex

def function? (ix : CallIndex) (name : String) : Option FunctionEntry :=
  ix.functions.find? (·.name = name)

def region? (ix : CallIndex) (id : Nat) : Option RegionEntry :=
  ix.regions[id]?

/-- The calls of a function; none for an unknown one. -/
def callsTo (ix : CallIndex) (name : String) : List CallEntry :=
  match ix.function? name with
  | some entry => entry.callers
  | none => []

/-- The clause of a region that takes a payload. -/
def takenBy (ix : CallIndex) (kind : Option Kind) (id : Nat) : Option Fate := do
  let region ← ix.region? id
  let i ← region.firstTaking kind
  let clause ← region.clauses[i]?
  some (.taken id i region.function clause.loc)

/-- The clause that takes a payload thrown under a stack of regions, the innermost region first. -/
def takenUnder (ix : CallIndex) (guards : List Nat) (kind : Option Kind) : Option Fate :=
  guards.reverse.findSome? (ix.takenBy kind)

/-- Change the entry of a function, which is made if it is missing. -/
def updateIn (name : String) (f : FunctionEntry → FunctionEntry) :
    List FunctionEntry → List FunctionEntry
  | [] => [f { name }]
  | entry :: rest => if entry.name = name then f entry :: rest else entry :: updateIn name f rest

def update (ix : CallIndex) (name : String) (f : FunctionEntry → FunctionEntry) : CallIndex :=
  { ix with functions := updateIn name f ix.functions }

/-- The functions in the order of their names. -/
def sortedFunctions (ix : CallIndex) : List FunctionEntry :=
  ix.functions.mergeSort fun a b => Location.textLE a.name b.name

end CallIndex

end Unwind
