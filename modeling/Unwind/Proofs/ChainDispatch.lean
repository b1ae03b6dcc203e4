import Unwind.Index.Report
import Unwind.Proofs.FirstClause

/-!
# Dispatch along a call chain

An index tells, region by region, which clause takes a payload. Here a call chain of the index is
run on a machine, and the clause that runs first is the one that the index tells. Both sides are
searches through the scopes of the chain, the innermost first: `takes` is what the index says of a
scope, and `layer` is what the machine runs for it.
-/

namespace Unwind

variable {α : Type}

/-- A function of a call chain, with the regions that guard what it does there, outermost first. -/
structure Stage where
  function : String
  guards : List Nat

def ThrowEntry.stage (t : ThrowEntry) : Stage :=
  ⟨t.function, t.guards⟩

def CallEntry.stage (c : CallEntry) : Stage :=
  ⟨c.function, c.guards⟩

/-- A clause of a region that guards the stage at some position of a chain. -/
@[ext] structure ClausePlace where
  position : Nat
  region : Nat
  clause : Nat

variable (ix : CallIndex) (bodies : ClausePlace → Handled → Action α)

namespace CallIndex

/-- The clauses of a region, for a machine to run. -/
def clausesAt (position region : Nat) : List (Clause α) :=
  match ix.region? region with
  | some entry => entry.clauses.mapIdx fun i c => ⟨c.selector, bodies ⟨position, region, i⟩⟩
  | none => []

/-- Run an action in a function, under the regions that guard it there. -/
def runStage (position : Nat) (stage : Stage) (act : Action α) : Action α :=
  Machine.call stage.function <|
    stage.guards.foldr (fun region act => Machine.guard act (ix.clausesAt bodies position region))
      act

/-- Run an action inside stages, the innermost of which is at `position`. -/
def runStages : (position : Nat) → List Stage → Action α → Action α
  | _, [], act => act
  | position, stage :: outer, act =>
    runStages (position + 1) outer (ix.runStage bodies position stage act)

end CallIndex

/-- The regions that guard stages, in the order in which a run of the stages enters them. Each comes
with the position of its stage. -/
def entryOrder : (position : Nat) → List Stage → List (Nat × Nat)
  | _, [] => []
  | position, stage :: outer =>
    entryOrder (position + 1) outer ++ stage.guards.map fun region => (position, region)

/-- The first clause to run in a run of stages, begun when `entered` regions were entered, is the
one at a certain place. -/
def RunsFirst (stages : List Stage) (entered : Nat) (events : List Event) (place : ClausePlace) :
    Prop :=
  ∃ n, firstCaught events = some (entered + 1 + n, place.clause) ∧
    (entryOrder 0 stages)[n]? = some (place.position, place.region)

theorem RunsFirst.unique {stages : List Stage} {entered : Nat} {events : List Event}
    {place place' : ClausePlace} (h : RunsFirst stages entered events place)
    (h' : RunsFirst stages entered events place') : place = place' := by
  obtain ⟨n, hcaught, hplace⟩ := h
  obtain ⟨n', hcaught', hplace'⟩ := h'
  rw [hcaught, Option.some.injEq, Prod.mk.injEq] at hcaught'
  obtain rfl : n = n' := Nat.add_left_cancel hcaught'.1
  rw [hplace, Option.some.injEq, Prod.mk.injEq] at hplace'
  exact ClausePlace.ext hplace'.1 hplace'.2 hcaught'.2

/-! ## The scopes of a chain -/

/-- A scope of a run of stages. -/
inductive ChainScope where
  | region (position id : Nat)
  | function (name : String)

namespace ChainScope

/-- The scopes of stages, innermost first. -/
def ofStages : (position : Nat) → List Stage → List ChainScope
  | _, [] => []
  | position, stage :: outer =>
    stage.guards.reverse.map (.region position) ++ .function stage.function ::
      ofStages (position + 1) outer

/-- What a machine runs for a scope. -/
def layer : ChainScope → Layer α
  | .region position id => .guard [] (ix.clausesAt bodies position id)
  | .function name => .call name []

def guard? : ChainScope → Option (Nat × Nat)
  | .region position id => some (position, id)
  | .function _ => none

theorem isPlain_layer (scope : ChainScope) : (scope.layer ix bodies).IsPlain := by
  cases scope <;> rfl

theorem around_regions (position : Nat) (guards : List Nat) (act : Action α) :
    Layer.around ((guards.reverse.map (region position)).map (layer ix bodies)) act =
      guards.foldr (fun id act => Machine.guard act (ix.clausesAt bodies position id)) act := by
  induction guards with
  | nil => rfl
  | cons id inner ih =>
    rw [List.reverse_cons, List.map_append, List.map_append, Layer.around_append, ih]
    rfl

theorem around_ofStages (position : Nat) (stages : List Stage) (act : Action α) :
    Layer.around ((ofStages position stages).map (layer ix bodies)) act =
      ix.runStages bodies position stages act := by
  induction stages generalizing position act with
  | nil => rfl
  | cons stage outer ih =>
    rw [ofStages, List.map_append, Layer.around_append, around_regions]
    exact ih (position + 1) (ix.runStage bodies position stage act)

theorem entryOrder_eq (position : Nat) (stages : List Stage) :
    entryOrder position stages = ((ofStages position stages).filterMap guard?).reverse := by
  induction stages generalizing position with
  | nil => rfl
  | cons stage outer ih =>
    have hregions : (stage.guards.reverse.map (region position)).filterMap guard? =
        stage.guards.reverse.map fun id => (position, id) := by
      rw [List.filterMap_map]
      exact congrFun List.filterMap_eq_map' _
    rw [entryOrder, ofStages, ih, List.filterMap_append, List.reverse_append, hregions,
      ← List.map_reverse, List.reverse_reverse]
    rfl

theorem countP_isRegion (scopes : List ChainScope) :
    (scopes.map (layer ix bodies)).countP Layer.isRegion = (scopes.filterMap guard?).length := by
  induction scopes with
  | nil => rfl
  | cons scope rest ih =>
    rw [List.map_cons, List.countP_cons, ih]
    cases scope <;> rfl

/-- A region is entered after as many others as there are around it. -/
theorem entryOrder_getElem? {position : Nat} {stages : List Stage} {inner outer : List ChainScope}
    {position' id : Nat}
    (h : ofStages position stages = inner ++ region position' id :: outer) :
    (entryOrder position stages)[(outer.filterMap guard?).length]? = some (position', id) := by
  have hguards : (inner ++ region position' id :: outer).filterMap guard? =
      inner.filterMap guard? ++ (position', id) :: outer.filterMap guard? := by
    rw [List.filterMap_append]
    rfl
  rw [entryOrder_eq, h, hguards]
  simp

end ChainScope

/-! ## What the index tells -/

/-- The place of a clause that takes a payload at some position of a chain. -/
def Fate.placeAt (position : Nat) : Fate → Option ClausePlace
  | .taken region clause _ _ => some ⟨position, region, clause⟩
  | .escapes _ => none

/-- The place of the clause that takes a payload, if a scope has one. -/
def ChainScope.takes (kind : Option Kind) : ChainScope → Option ClausePlace
  | .region position id => (ix.takenBy kind id).bind (·.placeAt position)
  | .function _ => none

namespace CallIndex

/-- The index finds a clause in a region just if a clause of the region takes the payload. -/
theorem takenBy_cases (kind : Option Kind) (id : Nat) :
    (ix.takenBy kind id = none ∧ (ix.region? id).bind (·.firstTaking kind) = none) ∨
      ∃ i function loc, ix.takenBy kind id = some (.taken id i function loc) ∧
        (ix.region? id).bind (·.firstTaking kind) = some i := by
  unfold takenBy
  cases ix.region? id with
  | none => exact .inl ⟨rfl, rfl⟩
  | some region =>
    cases hfirst : region.firstTaking kind with
    | none => exact .inl ⟨by simp [hfirst], hfirst⟩
    | some i =>
      obtain ⟨hlt, -⟩ := List.findIdx?_eq_some_iff_getElem.1 hfirst
      have hclause : region.clauses[i]? = some region.clauses[i] := List.getElem?_eq_getElem hlt
      exact .inr ⟨i, region.function, region.clauses[i].loc, by simp [hfirst, hclause], hfirst⟩

theorem findSome?_takes_regions (kind : Option Kind) (position : Nat) (ids : List Nat) :
    (ids.map (.region position)).findSome? (ChainScope.takes ix kind) =
      (ids.findSome? (ix.takenBy kind)).bind (·.placeAt position) := by
  induction ids with
  | nil => rfl
  | cons id rest ih =>
    rw [List.map_cons, List.findSome?_cons, List.findSome?_cons, ChainScope.takes, ih]
    obtain ⟨h, -⟩ | ⟨i, function, loc, h, -⟩ := ix.takenBy_cases kind id <;> rw [h] <;> rfl

/-- The first scope of a stage whose clause takes the payload. -/
theorem findSome?_takes_cons (kind : Option Kind) (position : Nat) (stage : Stage)
    (outer : List Stage) :
    (ChainScope.ofStages position (stage :: outer)).findSome? (ChainScope.takes ix kind) =
      ((ix.takenUnder stage.guards kind).bind (·.placeAt position)).or
        ((ChainScope.ofStages (position + 1) outer).findSome? (ChainScope.takes ix kind)) := by
  rw [ChainScope.ofStages, List.findSome?_append, findSome?_takes_regions, takenUnder]
  rfl

/-- A stack of regions has a clause for a payload just if the index names one. -/
theorem takenUnder_eq_taken {ix : CallIndex} {kind : Option Kind} {guards : List Nat} {fate : Fate}
    (h : ix.takenUnder guards kind = some fate) :
    ∃ region clause function loc, fate = .taken region clause function loc := by
  obtain ⟨id, -, hid⟩ := List.exists_of_findSome?_eq_some h
  obtain ⟨hnone, -⟩ | ⟨i, function, loc, hsome, -⟩ := ix.takenBy_cases kind id
  · rw [hnone] at hid
    contradiction
  · rw [hsome, Option.some.injEq] at hid
    exact ⟨id, i, function, loc, hid.symm⟩

theorem findSome?_takes_eq_none_iff (kind : Option Kind) (position : Nat) (stages : List Stage) :
    (ChainScope.ofStages position stages).findSome? (ChainScope.takes ix kind) = none ↔
      ∀ fate ∈ stages.map fun stage => ix.takenUnder stage.guards kind, fate = none := by
  induction stages generalizing position with
  | nil => simp [ChainScope.ofStages]
  | cons stage outer ih =>
    rw [findSome?_takes_cons, Option.or_eq_none_iff, ih, List.map_cons, List.forall_mem_cons]
    cases h : ix.takenUnder stage.guards kind with
    | none => simp
    | some fate =>
      obtain ⟨region, clause, function, loc, rfl⟩ := takenUnder_eq_taken h
      simp [Fate.placeAt]

theorem findSome?_takes_eq_some_iff (kind : Option Kind) (position : Nat) (stages : List Stage)
    (place : ClausePlace) :
    (ChainScope.ofStages position stages).findSome? (ChainScope.takes ix kind) = some place ↔
      let fates := stages.map fun stage => ix.takenUnder stage.guards kind
      ∃ j function loc, place.position = position + j ∧
        fates[j]? = some (some (.taken place.region place.clause function loc)) ∧
        ∀ i < j, fates[i]? = some none := by
  induction stages generalizing position with
  | nil => simp [ChainScope.ofStages]
  | cons stage outer ih =>
    rw [findSome?_takes_cons, List.map_cons]
    -- A stage with a clause for the payload hides the stages further out. One without such a clause
    -- only moves them by one position.
    cases h : ix.takenUnder stage.guards kind with
    | none =>
      rw [Option.bind_none, Option.none_or, ih]
      constructor
      · rintro ⟨j, function, loc, hposition, hfate, hbefore⟩
        refine ⟨j + 1, function, loc, by omega, hfate, fun i hi => ?_⟩
        cases i with
        | zero => rfl
        | succ i => exact hbefore i (Nat.lt_of_succ_lt_succ hi)
      · rintro ⟨j, function, loc, hposition, hfate, hbefore⟩
        cases j with
        | zero => simp at hfate
        | succ j =>
          exact ⟨j, function, loc, by omega, hfate, fun i hi => hbefore (i + 1) (by omega)⟩
    | some fate =>
      obtain ⟨region, clause, function, loc, rfl⟩ := takenUnder_eq_taken h
      change some (ClausePlace.mk position region clause) = some place ↔ _
      constructor
      · rintro ⟨⟩
        exact ⟨0, function, loc, rfl, rfl, fun i hi => absurd hi (Nat.not_lt_zero i)⟩
      · rintro ⟨j, function, loc, hposition, hfate, hbefore⟩
        cases j with
        | zero =>
          obtain ⟨rfl, rfl⟩ : region = place.region ∧ clause = place.clause := by
            simp only [List.getElem?_cons_zero, Option.some.injEq, Fate.taken.injEq] at hfate
            exact ⟨hfate.1, hfate.2.1⟩
          rw [← Nat.add_zero position, ← hposition]
        | succ j => simpa using hbefore 0 j.succ_pos

end CallIndex

/-! ## What the machine does -/

theorem CallIndex.findIdx?_clausesAt (position id : Nat) (k : Kind) :
    (ix.clausesAt bodies position id).findIdx? (·.selector.accepts k) =
      (ix.region? id).bind (·.firstTaking (some k)) := by
  unfold clausesAt
  cases ix.region? id with
  | none => rfl
  | some entry =>
    have hselectors : (entry.clauses.mapIdx fun i c =>
        Clause.mk c.selector (bodies ⟨position, id, i⟩)).map (·.selector) =
          entry.clauses.map (·.selector) := by
      refine List.ext_getElem? fun i => ?_
      rw [List.getElem?_map, List.getElem?_mapIdx, List.getElem?_map]
      cases entry.clauses[i]? <;> rfl
    have hfind := congrArg (List.findIdx? (Selector.accepts · k)) hselectors
    rwa [List.findIdx?_map, List.findIdx?_map] at hfind

variable {ix} {bodies} in
theorem CallIndex.run_of_clausesAt {position id i : Nat} {c : Clause α}
    (h : (ix.clausesAt bodies position id)[i]? = some c) :
    c.run = bodies ⟨position, id, i⟩ := by
  unfold clausesAt at h
  split at h
  · rw [List.getElem?_mapIdx, Option.map_eq_some_iff] at h
    obtain ⟨clause, -, rfl⟩ := h
    rfl
  · contradiction

namespace ChainScope

variable {ix}

theorem passes_layer {k : Kind} {scope : ChainScope} (h : scope.takes ix (some k) = none) :
    (scope.layer ix bodies).Passes k := by
  cases scope with
  | function name => trivial
  | region position id =>
    have hidx := ix.findIdx?_clausesAt bodies position id k
    obtain ⟨-, hnone⟩ | ⟨i, function, loc, htaken, -⟩ := ix.takenBy_cases (some k) id
    · rw [hnone, List.findIdx?_eq_none_iff] at hidx
      exact List.find?_eq_none.2 fun c hc => by simp [hidx c hc]
    · rw [takes, htaken] at h
      contradiction

theorem layer_of_takes {k : Kind} {scope : ChainScope} {place : ClausePlace}
    (h : scope.takes ix (some k) = some place) :
    scope = .region place.position place.region ∧
      let clauses := ix.clausesAt bodies place.position place.region
      clauses.findIdx (·.selector.accepts k) = place.clause ∧
        ∃ c, clauses.find? (·.selector.accepts k) = some c ∧ c.run = bodies place := by
  cases scope with
  | function name => cases h
  | region position id =>
    have hidx := ix.findIdx?_clausesAt bodies position id k
    obtain ⟨hnone, -⟩ | ⟨i, function, loc, htaken, hfirst⟩ := ix.takenBy_cases (some k) id
    · rw [takes, hnone] at h
      contradiction
    · rw [takes, htaken] at h
      cases h
      rw [hfirst, List.findIdx?_eq_some_iff_findIdx_eq] at hidx
      obtain ⟨hlt, hidx⟩ := hidx
      obtain ⟨c, hc⟩ : ∃ c, (ix.clausesAt bodies position id)[i]? = some c :=
        ⟨_, List.getElem?_eq_getElem hlt⟩
      refine ⟨rfl, hidx, c, ?_, CallIndex.run_of_clausesAt hc⟩
      rw [List.find?_eq_getElem?_findIdx, hidx, hc]

/-- The machine runs the clause that the index tells before any other. -/
theorem runs_of_takes {p : Payload} {stages : List Stage} {place : ClausePlace}
    (h : (ofStages 0 stages).findSome? (takes ix (some p.kind)) = some place) (m : Machine) :
    ∃ n before after f selector start,
      (ix.runStages bodies 0 stages (Machine.raise p) m).events =
        before ++ .trace (.caught f.id (m.entered + 1 + n) place.clause selector) ::
          (bodies place ⟨f, m.entered + 1 + n⟩ start).events ++ after ∧
      firstCaught before = none ∧ f.payload = p ∧
      (entryOrder 0 stages)[n]? = some (place.position, place.region) := by
  obtain ⟨inner, scope, outer, hscopes, htakes, hinner⟩ := List.findSome?_eq_some_iff.1 h
  obtain ⟨rfl, hindex, c, hc, hrun⟩ := layer_of_takes bodies htakes
  have hplain : ∀ l ∈ inner.map (layer ix bodies) ++ outer.map (layer ix bodies), l.IsPlain := by
    rw [← List.map_append, List.forall_mem_map]
    exact fun scope _ => isPlain_layer ix bodies scope
  have hpasses : ∀ l ∈ inner.map (layer ix bodies), l.Passes p.kind :=
    List.forall_mem_map.2 fun scope hs => passes_layer bodies (hinner scope hs)
  obtain ⟨before, after, f, start, hevents, hbefore, hpayload⟩ :=
    Layer.caught_by_innermost hplain hpasses hc m
  rw [hindex, hrun, countP_isRegion, Nat.add_right_comm] at hevents
  refine ⟨_, before, after, f, c.selector, start, ?_, hbefore, hpayload,
    entryOrder_getElem? hscopes⟩
  rw [← hevents, ← around_ofStages, hscopes, List.map_append]
  rfl

/-- If the index tells no clause, the machine runs none and the payload gets out. -/
theorem escapes_of_takes {p : Payload} {stages : List Stage}
    (h : (ofStages 0 stages).findSome? (takes ix (some p.kind)) = none) (m : Machine) :
    let s := ix.runStages bodies 0 stages (Machine.raise p) m
    firstCaught s.events = none ∧ ∃ f, s.result = .error f ∧ f.payload = p := by
  rw [List.findSome?_eq_none_iff] at h
  have hplain : ∀ l ∈ (ofStages 0 stages).map (layer ix bodies), l.IsPlain :=
    List.forall_mem_map.2 fun scope _ => isPlain_layer ix bodies scope
  have hpasses : ∀ l ∈ (ofStages 0 stages).map (layer ix bodies), l.Passes p.kind :=
    List.forall_mem_map.2 fun scope hs => passes_layer bodies (h scope hs)
  rw [← around_ofStages]
  have hout := Layer.escapes_around (p := p) (fun l hl => (hpasses l hl).letsThrough) m
  exact ⟨Layer.firstCaught_around_of_passes hplain hpasses m, _, hout.result,
    Failure.recordAll_payload _ _⟩

variable (ix)

theorem runsFirst_iff (p : Payload) (stages : List Stage) (m : Machine) (place : ClausePlace) :
    RunsFirst stages m.entered (ix.runStages bodies 0 stages (Machine.raise p) m).events place ↔
      (ofStages 0 stages).findSome? (takes ix (some p.kind)) = some place := by
  have hruns : ∀ place, (ofStages 0 stages).findSome? (takes ix (some p.kind)) = some place →
      RunsFirst stages m.entered (ix.runStages bodies 0 stages (Machine.raise p) m).events
        place := by
    intro place h
    obtain ⟨n, before, after, f, selector, start, hevents, hbefore, -, hplace⟩ :=
      runs_of_takes bodies h m
    refine ⟨n, ?_, hplace⟩
    simp [hevents, hbefore, Event.caught?]
  -- A run has one first clause, so the converse follows from what the index finds.
  refine ⟨fun h => ?_, hruns place⟩
  cases hfirst : (ofStages 0 stages).findSome? (takes ix (some p.kind)) with
  | none =>
    obtain ⟨n, hcaught, -⟩ := h
    rw [(escapes_of_takes bodies hfirst m).1] at hcaught
    contradiction
  | some place' => rw [h.unique (hruns place' hfirst)]

theorem escapes_iff (p : Payload) (stages : List Stage) (m : Machine) :
    let s := ix.runStages bodies 0 stages (Machine.raise p) m
    (firstCaught s.events = none ∧ ∃ f, s.result = .error f ∧ f.payload = p) ↔
      (ofStages 0 stages).findSome? (takes ix (some p.kind)) = none := by
  intro s
  refine ⟨fun h => ?_, fun h => escapes_of_takes bodies h m⟩
  cases hfirst : (ofStages 0 stages).findSome? (takes ix (some p.kind)) with
  | none => rfl
  | some place =>
    obtain ⟨n, hcaught, -⟩ := (runsFirst_iff ix bodies p stages m place).2 hfirst
    rw [h.1] at hcaught
    contradiction

end ChainScope

open ChainScope

/-- A call chain of an index is run on a machine and a payload is raised in its innermost function.
The first clause to run is the one that the index finds for the first place of the chain for which
it finds any. If it finds none, no clause runs and the payload gets out, and only then. -/
theorem dispatch_follows_index (ix : CallIndex) (bodies : ClausePlace → Handled → Action α)
    {t : ThrowEntry} {p : Payload} (h : t.kind = some p.kind) (chain : List CallEntry)
    (m : Machine) :
    let stages := t.stage :: chain.map (·.stage)
    let fates := ix.takenUnder t.guards t.kind :: chain.map fun c => ix.takenUnder c.guards t.kind
    let s := ix.runStages bodies 0 stages (Machine.raise p) m
    (∀ place, RunsFirst stages m.entered s.events place ↔
      (∃ function loc, fates[place.position]? =
        some (some (.taken place.region place.clause function loc))) ∧
      ∀ j < place.position, fates[j]? = some none) ∧
    (∀ place, RunsFirst stages m.entered s.events place →
      ∃ before after f region selector start,
        s.events = before ++ .trace (.caught f.id region place.clause selector) ::
          (bodies place ⟨f, region⟩ start).events ++ after ∧
        firstCaught before = none ∧ f.payload = p) ∧
    ((firstCaught s.events = none ∧ ∃ f, s.result = .error f ∧ f.payload = p) ↔
      ∀ fate ∈ fates, fate = none) := by
  intro stages fates s
  have hfates : stages.map (fun stage => ix.takenUnder stage.guards (some p.kind)) = fates := by
    simp [stages, fates, h, ThrowEntry.stage, CallEntry.stage, Function.comp_def]
  have hnone := ix.findSome?_takes_eq_none_iff (some p.kind) 0 stages
  have hsome := ix.findSome?_takes_eq_some_iff (some p.kind) 0 stages
  rw [hfates] at hnone
  simp only [hfates, Nat.zero_add] at hsome
  refine ⟨fun place => ?_, fun place hplace => ?_, ?_⟩
  · rw [runsFirst_iff, hsome]
    constructor
    · rintro ⟨j, function, loc, rfl, hfate, hbefore⟩
      exact ⟨⟨function, loc, hfate⟩, hbefore⟩
    · rintro ⟨⟨function, loc, hfate⟩, hbefore⟩
      exact ⟨place.position, function, loc, rfl, hfate, hbefore⟩
  · rw [runsFirst_iff] at hplace
    obtain ⟨n, before, after, f, selector, start, hevents, hbefore, hpayload, -⟩ :=
      runs_of_takes bodies hplace m
    exact ⟨before, after, f, _, selector, start, hevents, hbefore, hpayload⟩
  · exact (escapes_iff ix bodies p stages m).trans hnone

/-- In the sample program the integer thrown by `foo`, called under the region in `main`, is taken
by the second clause of that region. -/
theorem dispatch_follows_index_sample :
    let loc line column : Location := { file := "sample_proj/src/main.cpp", line, column }
    let ix := (Recorder.run {} sampleWalk).1.index
    let t : ThrowEntry := ⟨"foo", loc 11 9, some .int, false, []⟩
    let c : CallEntry := ⟨"main", loc 40 9, [0]⟩
    let stages := [t.stage, c.stage]
    t ∈ ix.throws ∧ c ∈ ix.callsTo "foo" ∧
      RunsFirst stages 0
        (ix.runStages (fun _ _ => Action.done ()) 0 stages (Machine.raise (.int 5))
          (Machine.new {})).events ⟨1, 0, 1⟩ := by
  intro loc ix t c stages
  refine ⟨by decide, by decide, ?_⟩
  refine ((dispatch_follows_index ix _ (t := t) (p := .int 5) rfl [c] _).1 _).2 ?_
  exact ⟨⟨"main", loc 47 5, by decide⟩, by decide⟩

end Unwind
