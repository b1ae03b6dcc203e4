import Unwind.Index.FateTree
import Unwind.Index.Recorder
import Unwind.Text.Quoted

/-!
# Reports on an index
-/

namespace Unwind

namespace Fate

def text : Fate → String
  | .taken region clause function loc =>
    s!"{loc.text} ({regionEntryText region}) clause {clause} in {function}"
  | .escapes function => s!"uncaught in {function}"

/-- The text of a fate with the selector of its clause. -/
def describe (ix : CallIndex) : Fate → String
  | .taken region clause function loc =>
    let found := (ix.region? region).bind (·.clauses[clause]?)
    let selector := (found.map (·.selector.text)).getD ""
    s!"{loc.text} ({regionEntryText region}) clause {clause} `{selector}` in {function}"
  | .escapes function => s!"uncaught in {function}"

end Fate

namespace PathNode

mutual

/-- A line for the node and for each node below it, two columns further in at each level. -/
def lines (depth : Nat) : PathNode → List String
  | .node function loc children =>
    let indent := "".pushn ' ' (2 * depth)
    s!"{indent}{function} {loc.text}\n" :: linesOf (depth + 1) children

def linesOf (depth : Nat) : List PathNode → List String
  | [] => []
  | child :: rest => lines depth child ++ linesOf depth rest

end

end PathNode

def FateTree.text (t : FateTree) : String :=
  String.join (t.root.lines 0 ++ t.fates.map fun fate => s!"=> {fate.text}\n")

namespace CallIndex

/-- One end of a call. -/
def callLine (role : String) (c : CallEntry) : String :=
  s!"  {role} {c.function} at {c.loc.text} {Text.bracketed (c.guards.map regionEntryText)}\n"

def functionLines (f : FunctionEntry) : List String :=
  let decl := (f.decl.map Location.text).getD "undeclared"
  s!"Node: {f.name} ({decl})\n" ::
    f.callers.map (callLine "caller:") ++ f.calls.map (callLine "calls: ")

/-- Every function with its callers and the functions it calls. -/
def callsText (ix : CallIndex) : String :=
  String.join (ix.sortedFunctions.flatMap functionLines)

def throwLines (ix : CallIndex) (t : ThrowEntry) : List String :=
  let what := if t.rethrow then "rethrow" else "throw"
  let kind := (t.kind.map Kind.name).getD "unknown"
  s!"{what}: {t.loc.text} : {kind}\n" ::
    (ix.fateTree t).fates.map fun fate => s!"  catch: {fate.describe ix}\n"

/-- For every throw the clauses that take it, and the functions where it escapes. -/
def fatesText (ix : CallIndex) : String :=
  String.join (ix.throws.flatMap ix.throwLines)

end CallIndex

/-- A walk over the sample program. -/
def sampleWalk : List WalkOp :=
  let loc line column : Location := { file := "sample_proj/src/main.cpp", line, column }
  [ .enterFunction "foo" (loc 7 1),
    .throw (loc 11 9) .int,
    .throw (loc 13 5) .record,
    .leaveFunction,
    .enterFunction "baz" (loc 17 1),
    .call "foo" (loc 19 5),
    .leaveFunction,
    .enterFunction "bar" (loc 23 1),
    .call "foo" (loc 25 5),
    .call "bar" (loc 26 5),
    .call "baz" (loc 27 5),
    .throw (loc 28 5) .int,
    .call "foo" (loc 29 5),
    .leaveFunction,
    .enterFunction "main" (loc 35 1),
    .openRegion (loc 38 5),
    .call "foo" (loc 40 9),
    .startClause (loc 42 5) (.kind .record),
    .startClause (loc 47 5) (.kind .int),
    .startClause (loc 51 5) .any,
    .closeRegion,
    .call "foo" (loc 55 5),
    .leaveFunction ]

end Unwind
