import Unwind.Index.Basic

/-!
# Fate trees

Where a thrown payload can end up. From the place of the throw the callers are followed outward
until the regions around a call take the payload, or no caller is left that is not already on the
path.
-/

namespace Unwind

/-- The place of a throw, or a call on the way out of it. -/
inductive PathNode where
  | node (function : String) (loc : Location) (children : List PathNode)

namespace PathNode

def function : PathNode → String
  | .node function _ _ => function

def loc : PathNode → Location
  | .node _ loc _ => loc

def children : PathNode → List PathNode
  | .node _ _ children => children

end PathNode

structure FateTree where
  root : PathNode
  kind : Option Kind
  /-- The ends of the paths, from left to right. -/
  fates : List Fate

/-- Whether every path ends at a clause. -/
def FateTree.isAlwaysTaken (t : FateTree) : Bool :=
  !t.fates.isEmpty && t.fates.all Fate.isTaken

namespace CallIndex

/-- The functions that call something. -/
def callerNames (ix : CallIndex) : List String :=
  ix.functions.flatMap fun entry => entry.callers.map (·.function)

/-- The calls of a function from functions that are not on the path. -/
def freshCallers (ix : CallIndex) (path : List String) (function : String) : List CallEntry :=
  (ix.callsTo function).filter (·.function ∉ path)

/-- How many callers a path leaves untouched. It bounds the number of steps that are left. -/
def untouched (ix : CallIndex) (path : List String) : Nat :=
  (ix.callerNames.filter (· ∉ path)).length

theorem mem_callerNames {ix : CallIndex} {name : String} {c : CallEntry}
    (h : c ∈ ix.callsTo name) : c.function ∈ ix.callerNames := by
  unfold callsTo function? at h
  split at h
  next entry hentry =>
    exact List.mem_flatMap.2 ⟨entry, List.mem_of_find?_eq_some hentry, List.mem_map.2 ⟨c, h, rfl⟩⟩
  next => simp at h

private theorem length_filter_lt {xs : List String} {path : List String} {x : String}
    (hx : x ∈ xs) (hp : x ∉ path) :
    (xs.filter (· ∉ x :: path)).length < (xs.filter (· ∉ path)).length := by
  have hsub : xs.filter (· ∉ x :: path) = (xs.filter (· ∉ path)).filter (· ≠ x) := by
    rw [List.filter_filter]
    refine List.filter_congr fun y _ => ?_
    simp
  rw [hsub]
  have hx' : x ∈ xs.filter (· ∉ path) := List.mem_filter.2 ⟨hx, by simpa using hp⟩
  exact List.length_filter_lt_length_iff_exists.2 ⟨x, hx', by simp⟩

theorem untouched_lt {ix : CallIndex} {path : List String} {name : String} {c : CallEntry}
    (h : c ∈ ix.freshCallers path name) :
    ix.untouched (c.function :: path) < ix.untouched path := by
  rw [freshCallers, List.mem_filter] at h
  exact length_filter_lt (mem_callerNames h.1) (by simpa using h.2)

/-- The ends of the paths outward from a function that a payload leaves. -/
def fatesFrom (ix : CallIndex) (kind : Option Kind) (path : List String) (function : String) :
    List Fate :=
  if (ix.freshCallers path function).isEmpty then
    [.escapes function]
  else
    (ix.freshCallers path function).attach.flatMap fun ⟨c, _⟩ =>
      match ix.takenUnder c.guards kind with
      | some fate => [fate]
      | none => ix.fatesFrom kind (c.function :: path) c.function
termination_by ix.untouched path
decreasing_by exact untouched_lt ‹_›

/-- The calls followed outward from a function that a payload leaves. -/
def pathsFrom (ix : CallIndex) (kind : Option Kind) (path : List String) (function : String) :
    List PathNode :=
  (ix.freshCallers path function).attach.map fun ⟨c, _⟩ =>
    .node c.function c.loc <|
      match ix.takenUnder c.guards kind with
      | some _ => []
      | none => ix.pathsFrom kind (c.function :: path) c.function
termination_by ix.untouched path
decreasing_by exact untouched_lt ‹_›

/-- The fate tree of a place. A clause around the place itself is the only fate; otherwise every
caller is followed. -/
def fateTree (ix : CallIndex) (t : ThrowEntry) : FateTree :=
  match ix.takenUnder t.guards t.kind with
  | some fate => { root := .node t.function t.loc [], kind := t.kind, fates := [fate] }
  | none =>
    { root := .node t.function t.loc (ix.pathsFrom t.kind [] t.function)
      kind := t.kind
      fates := ix.fatesFrom t.kind [] t.function }

end CallIndex

end Unwind
