import Unwind.Proofs.RecorderState

/-!
# Refused operations

An operation makes its changes to a recorder one after another, and some refusals come only after a
change: a function is entered in the index before its declaration is looked at, and a region is
closed before its clauses are checked. `Changes` has the operations in this form, where a refusal
leaves behind what has been changed. They come to the same as `Recorder.step`, which hands back the
old recorder (`Changes.outcome_ofOp`), so of a refused operation nothing stays, except that a region
with a bad clause list is closed. Whether there was such a region can still be told at the end, from
the regions that are closed (`Recorder.Coherent.allAccepted_run`).
-/

namespace Unwind

/-! ## Operations as changes -/

/-- Changes to a recorder, one after another. A refusal ends them, and those before it stay. -/
abbrev Changes (α : Type) : Type :=
  EStateM WalkError Recorder α

namespace Changes

/-- Make an entry for a function that has none. -/
def ensureFunction (name : String) : Changes Unit :=
  modify fun r => { r with index := r.index.update name id }

def updateFunction (name : String) (f : FunctionEntry → FunctionEntry) : Changes Unit := do
  ensureFunction name
  modify fun r => { r with index := r.index.update name f }

/-- The function being walked. -/
def currentFunction (what : Construct) (loc : Location) : Changes String := do
  match (← get).current with
  | some name => return name
  | none => throw (.outsideFunction what loc)

def enterFunction (name : String) (loc : Location) : Changes Unit := do
  match (← get).current with
  | some outer => throw (.nestedFunction outer name)
  | none =>
    ensureFunction name
    match ((← get).index.function? name).bind (·.decl) with
    | some first => throw (.redeclared name first loc)
    | none =>
      updateFunction name fun entry => { entry with decl := some loc }
      modify fun r => { r with current := some name }

def leaveFunction : Changes Unit := do
  match (← get).opened with
  | t :: _ => throw (.unclosedRegion ((← get).locationOf t.id))
  | [] =>
    let function := (← get).current
    modify fun r => { r with current := none }
    match function with
    | some _ => return ()
    | none => throw (.outsideFunction .functionEnd {})

def call (callee : String) (loc : Location) : Changes Unit := do
  let caller ← currentFunction .call loc
  let guards := (← get).guards
  updateFunction caller fun entry => { entry with calls := entry.calls ++ [⟨callee, loc, guards⟩] }
  updateFunction callee fun entry =>
    { entry with callers := entry.callers ++ [⟨caller, loc, guards⟩] }

def noteThrow (loc : Location) (kind : Kind) : Changes Unit := do
  let function ← currentFunction .throw loc
  modify fun r => r.addThrow ⟨function, loc, some kind, false, r.guards⟩

def noteRethrow (loc : Location) : Changes Unit := do
  let function ← currentFunction .rethrow loc
  match (← get).handled? with
  | none => throw (.rethrowOutsideClause loc)
  | some (.kind k) => modify fun r => r.addThrow ⟨function, loc, some k, true, r.guards⟩
  | some .any => modify fun r => r.addThrow ⟨function, loc, none, true, r.guards⟩

def openRegion (loc : Location) : Changes Unit := do
  let function ← currentFunction .region loc
  let id := (← get).index.regions.length
  modify fun r =>
    { r with index := { r.index with regions := r.index.regions ++ [{ id, loc, function }] } }
  modify fun r => { r with opened := { id } :: r.opened }

def startClause (loc : Location) (selector : Selector) : Changes Unit := do
  match (← get).opened with
  | [] => throw (.noOpenRegion .clause loc)
  | t :: rest =>
    modify fun r =>
      { r with opened := { t with clause := some (r.selectorsOf t.id).length } :: rest }
    modify fun r => { r with index := r.index.addClauses t.id [⟨loc, selector⟩] }

def closeRegion : Changes Unit := do
  match (← get).opened with
  | [] => throw (.noOpenRegion .regionEnd {})
  | t :: rest =>
    modify fun r => { r with opened := rest }
    match checkSelectors ((← get).selectorsOf t.id) with
    | .ok () => return ()
    | .error fault => throw (.clauses ((← get).locationOf t.id) fault)

def ofOp : WalkOp → Changes Unit
  | .enterFunction name loc => enterFunction name loc
  | .leaveFunction => leaveFunction
  | .call callee loc => call callee loc
  | .throw loc kind => noteThrow loc kind
  | .rethrow loc => noteRethrow loc
  | .openRegion loc => openRegion loc
  | .startClause loc selector => startClause loc selector
  | .closeRegion => closeRegion

/-- The recorder after changes and, if they were refused, why. -/
def outcome : EStateM.Result WalkError Recorder Unit → Recorder × Option WalkError
  | .ok _ r => (r, none)
  | .error e r => (r, some e)

end Changes

namespace CallIndex

/-- An entry that is made first changes nothing for what is done with it. -/
theorem update_ensured (ix : CallIndex) (name : String) (f : FunctionEntry → FunctionEntry) :
    (ix.update name id).update name f = ix.update name f := by
  have hupdate (fns : List FunctionEntry) :
      updateIn name f (updateIn name id fns) = updateIn name f fns := by
    induction fns with
    | nil => exact if_pos rfl
    | cons entry fns ih =>
      by_cases h : entry.name = name
      · rw [updateIn, if_pos h]
        rfl
      · rw [updateIn, if_neg h, updateIn, if_neg h, updateIn, if_neg h, ih]
  exact congrArg (fun functions => { ix with functions }) (hupdate ix.functions)

theorem entryOf_ensured (ix : CallIndex) (name : String) :
    (ix.update name id).entryOf name = ix.entryOf name :=
  (entryIn_updateIn (fun _ => rfl) ix.functions name name).trans (if_pos rfl)

/-- The entry of a function that is declared need not be made. -/
theorem update_id_of_decl {ix : CallIndex} {name : String} {loc : Location}
    (h : (ix.entryOf name).decl = some loc) : ix.update name id = ix := by
  have hupdate (fns : List FunctionEntry) (h : (entryIn fns name).decl = some loc) :
      updateIn name id fns = fns := by
    induction fns with
    | nil => cases h
    | cons entry fns ih =>
      by_cases hname : entry.name = name
      · exact if_pos hname
      · rw [entryIn, List.find?_cons_of_neg (by simpa using hname)] at h
        rw [updateIn, if_neg hname, ih h]
  exact congrArg (fun functions => { ix with functions }) (hupdate ix.functions h)

end CallIndex

namespace Changes

variable (r : Recorder)

theorem run_updateFunction (name : String) (f : FunctionEntry → FunctionEntry) :
    (updateFunction name f).run r = .ok () { r with index := r.index.update name f } := by
  have hupdate := r.index.update_ensured name f
  exact congrArg (fun index => EStateM.Result.ok () { r with index }) hupdate

/-- An operation that needs a function around it does as much by changes as at once, if it does so
where there is one. -/
theorem outcome_inFunction {what : Construct} {loc : Location} {next : String → Changes Unit}
    {next' : String → Except WalkError Recorder}
    (h : ∀ function, r.current = some function →
      outcome ((next function).run r) = r.orRefuse (next' function)) :
    outcome ((currentFunction what loc >>= next).run r) =
      r.orRefuse (r.inFunction what loc >>= next') := by
  rw [Recorder.inFunction, currentFunction]
  simp only [EStateM.run_bind, EStateM.run_get]
  cases hc : r.current with
  | none => rfl
  | some function => exact h function hc

/-- If a function is declared twice, it has its entry from the first time, and making one changes
nothing. -/
theorem outcome_enterFunction (name : String) (loc : Location) :
    outcome ((enterFunction name loc).run r) = r.step (.enterFunction name loc) := by
  rw [Recorder.step, Recorder.enterFunction, enterFunction, ensureFunction]
  simp only [EStateM.run_bind, EStateM.run_get]
  cases hc : r.current with
  | some outer => rfl
  | none =>
    simp only [EStateM.run_bind, EStateM.run_modify, EStateM.run_get,
      CallIndex.function?_bind_decl, CallIndex.entryOf_ensured]
    cases hd : (r.index.entryOf name).decl with
    | some first =>
      simp only [CallIndex.update_id_of_decl hd]
      rfl
    | none =>
      simp only [EStateM.run_bind, run_updateFunction, EStateM.run_modify,
        CallIndex.update_ensured]
      rfl

/-- The function is taken out before it is known that there is one. -/
theorem outcome_leaveFunction : outcome (leaveFunction.run r) = r.step .leaveFunction := by
  rw [Recorder.step, Recorder.leaveFunction, leaveFunction]
  simp only [EStateM.run_bind, EStateM.run_get]
  cases ho : r.opened with
  | cons t rest => rfl
  | nil =>
    simp only [EStateM.run_bind, EStateM.run_get, EStateM.run_modify, Recorder.inFunction]
    cases hc : r.current with
    | some function =>
      rw [ho]
      rfl
    | none =>
      have hsame : { r with current := none } = r := hc ▸ rfl
      simp only [EStateM.run_throw, hsame]
      rfl

theorem outcome_startClause (loc : Location) (selector : Selector) :
    outcome ((startClause loc selector).run r) = r.step (.startClause loc selector) := by
  rw [Recorder.step, Recorder.startClause, startClause]
  simp only [EStateM.run_bind, EStateM.run_get]
  cases ho : r.opened with
  | nil => rfl
  | cons t rest => rfl

theorem outcome_closeRegion : outcome (closeRegion.run r) = r.step .closeRegion := by
  rw [Recorder.step, Recorder.closeRegion, closeRegion]
  simp only [EStateM.run_bind, EStateM.run_get]
  cases ho : r.opened with
  | nil => rfl
  | cons t rest =>
    have hselectors : { r with opened := rest }.selectorsOf t.id = r.selectorsOf t.id := rfl
    simp only [EStateM.run_bind, EStateM.run_get, EStateM.run_modify, hselectors]
    cases checkSelectors (r.selectorsOf t.id) <;> rfl

/-- Change by change, every operation comes to the same, refused or not. -/
theorem outcome_ofOp (op : WalkOp) : outcome ((ofOp op).run r) = r.step op := by
  cases op with
  | enterFunction name loc => exact outcome_enterFunction r name loc
  | leaveFunction => exact outcome_leaveFunction r
  | call callee loc =>
    refine outcome_inFunction r fun caller hc => ?_
    simp only [EStateM.run_bind, EStateM.run_get, run_updateFunction]
    rfl
  | throw loc kind => exact outcome_inFunction r fun _ _ => rfl
  | rethrow loc =>
    refine outcome_inFunction r fun function hc => ?_
    simp only [EStateM.run_bind, EStateM.run_get]
    rcases r.handled? with _ | ⟨k | _⟩ <;> rfl
  | openRegion loc => exact outcome_inFunction r fun _ _ => rfl
  | startClause loc selector => exact outcome_startClause r loc selector
  | closeRegion => exact outcome_closeRegion r

end Changes

/-! ## What a refusal leaves behind -/

/-- Whether an operation was refused because of a clause list. -/
def rejectsClauses (outcome : Option WalkError) : Bool :=
  (outcome.bind WalkError.clauseFault?).isSome

/-- The operations whose outcomes pass a test. -/
def keptBy (keep : Option WalkError → Bool) (ops : List WalkOp)
    (outcomes : List (Option WalkError)) : List WalkOp :=
  ((ops.zip outcomes).filter (keep ·.2)).map (·.1)

namespace Recorder

variable {r r' : Recorder} {e : WalkError}

theorem orRefuse_eq_some {result : Except WalkError Recorder} :
    r.orRefuse result = (r', some e) ↔ result = .error e ∧ r' = r := by
  cases result with
  | ok r₁ => simp [orRefuse]
  | error e' => simp [orRefuse, eq_comm, and_comm]

theorem clauseFault?_of_inFunction {what : Construct} {loc : Location}
    {next : String → Except WalkError Recorder} (h : (r.inFunction what loc >>= next) = .error e)
    (hnext : ∀ function, next function = .error e → e.clauseFault? = none) :
    e.clauseFault? = none := by
  unfold inFunction at h
  cases hc : r.current with
  | none =>
    rw [hc] at h
    cases h
    rfl
  | some function =>
    rw [hc] at h
    exact hnext function h

/-- Where no region is closed, nothing stays of a refused operation, and no clauses are checked. -/
theorem step_eq_some_of_ne {op : WalkOp} (hop : op ≠ .closeRegion)
    (h : r.step op = (r', some e)) : r' = r ∧ e.clauseFault? = none := by
  cases op
  case closeRegion => exact absurd rfl hop
  all_goals
    obtain ⟨h, rfl⟩ := orRefuse_eq_some.1 h
    refine ⟨rfl, ?_⟩
  case enterFunction name loc =>
    unfold enterFunction at h
    split at h
    next =>
      cases h
      rfl
    next =>
      split at h <;> cases h
      rfl
  case leaveFunction =>
    unfold leaveFunction at h
    split at h
    next =>
      cases h
      rfl
    next =>
      refine clauseFault?_of_inFunction h fun function h => ?_
      cases h
  case rethrow loc =>
    refine clauseFault?_of_inFunction h fun function h => ?_
    split at h <;> cases h
    rfl
  case startClause loc selector =>
    unfold startClause at h
    split at h <;> cases h
    rfl
  case call | throw | openRegion =>
    refine clauseFault?_of_inFunction h fun function h => ?_
    cases h

/-- A refused operation changes nothing, unless it closes a region with a bad clause list. -/
theorem step_eq_some {op : WalkOp} (h : r.step op = (r', some e)) :
    (r' = r ∧ e.clauseFault? = none) ∨
      (op = .closeRegion ∧ ∃ t rest fault, r.opened = t :: rest ∧
        checkSelectors (r.selectorsOf t.id) = .error fault ∧
        e = .clauses (r.locationOf t.id) fault ∧ r' = { r with opened := rest }) := by
  by_cases hop : op = .closeRegion
  · subst hop
    rw [step, closeRegion] at h
    split at h
    next =>
      cases h
      exact .inl ⟨rfl, rfl⟩
    next t rest ho =>
      split at h
      next => cases h
      next fault hcheck =>
        cases h
        exact .inr ⟨rfl, t, rest, fault, ho, hcheck, rfl, rfl⟩
  · exact .inl (step_eq_some_of_ne hop h)

/-- Of an operation that fails for another reason than its clauses nothing stays. -/
theorem step_of_refused {op : WalkOp} (h : (r.step op).2.isSome = true)
    (hclauses : rejectsClauses (r.step op).2 = false) : (r.step op).1 = r := by
  obtain ⟨e, he⟩ := Option.isSome_iff_exists.1 h
  rcases step_eq_some (Prod.ext rfl he) with ⟨hsame, -⟩ | ⟨-, _, _, _, -, -, rfl, -⟩
  · exact hsame
  · rw [he] at hclauses
    cases hclauses

/-- Operations that fail for other reasons than their clauses can be left out. -/
theorem run_keptBy {keep : Option WalkError → Bool} {ops : List WalkOp}
    (h : ∀ o ∈ (r.run ops).2, keep o = false → o.isSome = true ∧ rejectsClauses o = false) :
    r.run (keptBy keep ops (r.run ops).2) = ((r.run ops).1, (r.run ops).2.filter keep) := by
  induction ops generalizing r with
  | nil => rfl
  | cons op ops ih =>
    rw [run, List.forall_mem_cons] at h
    have hrest := ih h.2
    cases hkeep : keep (r.step op).2 with
    | true =>
      rw [run, List.filter_cons_of_pos hkeep, keptBy, List.zip_cons_cons,
        List.filter_cons_of_pos (by exact hkeep), List.map_cons, run]
      exact congrArg (fun after => (after.1, (r.step op).2 :: after.2)) hrest
    | false =>
      obtain ⟨hsome, hclauses⟩ := h.1 hkeep
      rw [step_of_refused hsome hclauses] at hrest
      rw [run, List.filter_cons_of_neg (by simp [hkeep]), keptBy, List.zip_cons_cons,
        List.filter_cons_of_neg (by simp [hkeep]), step_of_refused hsome hclauses]
      exact hrest

/-! ## Closed regions -/

/-- A region is on record and is not open any more. -/
structure HasClosed (r : Recorder) (id : Nat) (entry : RegionEntry) : Prop where
  entry : r.index.region? id = some entry
  closed : ∀ t ∈ r.opened, t.id ≠ id

/-- The same regions are on record, and the same ones are open. -/
structure SameRegions (r r' : Recorder) : Prop where
  regions : r'.index.regions = r.index.regions
  opened : r'.opened = r.opened

theorem SameRegions.hasClosed_iff (h : r.SameRegions r') (id : Nat) (entry : RegionEntry) :
    r'.HasClosed id entry ↔ r.HasClosed id entry := by
  have hentry : r'.index.region? id = r.index.region? id := by
    rw [CallIndex.region?, h.regions]
    rfl
  constructor
  · rintro ⟨hentry', hclosed⟩
    exact ⟨hentry ▸ hentry', h.opened ▸ hclosed⟩
  · rintro ⟨hentry', hclosed⟩
    exact ⟨hentry.trans hentry', h.opened.symm ▸ hclosed⟩

theorem sameRegions_orRefuse {result : Except WalkError Recorder}
    (h : ∀ r', result = .ok r' → r.SameRegions r') : r.SameRegions (r.orRefuse result).1 := by
  cases result with
  | ok r' => exact h r' rfl
  | error e => exact ⟨rfl, rfl⟩

theorem sameRegions_inFunction {what : Construct} {loc : Location}
    {next : String → Except WalkError Recorder}
    (h : ∀ function r', next function = .ok r' → r.SameRegions r') :
    r.SameRegions (r.orRefuse (r.inFunction what loc >>= next)).1 := by
  refine sameRegions_orRefuse fun r' hr' => ?_
  obtain ⟨function, -, hnext⟩ := inFunction_bind_eq_ok hr'
  exact h function r' hnext

theorem sameRegions_enterFunction (name : String) (loc : Location) :
    r.SameRegions (r.step (.enterFunction name loc)).1 := by
  refine sameRegions_orRefuse fun r' h => ?_
  unfold enterFunction at h
  split at h
  next => cases h
  next =>
    split at h <;> cases h
    exact ⟨rfl, rfl⟩

theorem sameRegions_leaveFunction : r.SameRegions (r.step .leaveFunction).1 := by
  refine sameRegions_orRefuse fun r' h => ?_
  unfold leaveFunction at h
  split at h
  next => cases h
  next =>
    obtain ⟨_, -, h⟩ := inFunction_bind_eq_ok h
    cases h
    exact ⟨rfl, rfl⟩

theorem sameRegions_rethrow (loc : Location) : r.SameRegions (r.step (.rethrow loc)).1 := by
  refine sameRegions_inFunction fun function r' h => ?_
  split at h <;> cases h <;> exact ⟨rfl, rfl⟩

/-- A clause is added to a region that is open. -/
theorem hasClosed_startClause (loc : Location) (selector : Selector) (id : Nat)
    (entry : RegionEntry) :
    (r.step (.startClause loc selector)).1.HasClosed id entry ↔ r.HasClosed id entry := by
  rw [Recorder.step, startClause]
  cases ho : r.opened with
  | nil => exact Iff.rfl
  | cons t rest =>
    have hkept (hne : t.id ≠ id) :
        (r.index.addClauses t.id [⟨loc, selector⟩]).region? id = r.index.region? id :=
      List.getElem?_modify_ne _ _ hne
    constructor
    · rintro ⟨hentry, hclosed⟩
      obtain ⟨hne, hrest⟩ := List.forall_mem_cons.1 hclosed
      exact ⟨(hkept hne).symm.trans hentry, ho ▸ List.forall_mem_cons.2 ⟨hne, hrest⟩⟩
    · rintro ⟨hentry, hclosed⟩
      obtain ⟨hne, hrest⟩ := List.forall_mem_cons.1 (ho ▸ hclosed)
      exact ⟨(hkept hne).trans hentry, List.forall_mem_cons.2 ⟨hne, hrest⟩⟩

namespace Coherent

/-- A new region is open. -/
theorem hasClosed_openRegion (h : r.Coherent) (loc : Location) (id : Nat) (entry : RegionEntry) :
    (r.step (.openRegion loc)).1.HasClosed id entry ↔ r.HasClosed id entry := by
  cases hc : r.current with
  | none =>
    rw [Recorder.step, openRegion, Recorder.inFunction, hc]
    exact Iff.rfl
  | some function =>
    obtain ⟨p, hp, -⟩ := h.exists_place hc
    rw [step_openRegion hp]
    constructor
    · rintro ⟨hentry, hclosed⟩
      obtain ⟨hne, hclosed⟩ := List.forall_mem_cons.1 hclosed
      obtain ⟨hlt, -⟩ := List.getElem?_eq_some_iff.1 hentry
      have hold : id < r.index.regions.length :=
        Nat.lt_of_le_of_ne (Nat.le_of_lt_succ (Nat.lt_of_lt_of_eq hlt List.length_append)) hne.symm
      exact ⟨(List.getElem?_append_left hold).symm.trans hentry, hclosed⟩
    · rintro ⟨hentry, hclosed⟩
      obtain ⟨hlt, -⟩ := List.getElem?_eq_some_iff.1 hentry
      refine ⟨CallIndex.region?_note hentry _, List.forall_mem_cons.2 ⟨?_, hclosed⟩⟩
      exact Nat.ne_of_gt hlt

/-- The innermost region is closed, good or bad, and no other one. -/
theorem hasClosed_closeRegion (h : r.Coherent) (id : Nat) (entry : RegionEntry) :
    (r.step .closeRegion).1.HasClosed id entry ↔
      r.HasClosed id entry ∨
        r.opened.head?.map (·.id) = some id ∧ r.index.region? id = some entry := by
  cases ho : r.opened with
  | nil =>
    rw [Recorder.step, Recorder.closeRegion, ho]
    refine (or_iff_left ?_).symm
    rintro ⟨hhead, -⟩
    cases hhead
  | cons t rest =>
    have hstep : (r.step .closeRegion).1 = { r with opened := rest } := by
      rw [Recorder.step, Recorder.closeRegion, ho]
      simp only
      cases checkSelectors (r.selectorsOf t.id) <;> rfl
    have hnested := h.nested
    rw [ho, List.map_cons, List.pairwise_cons] at hnested
    rw [hstep]
    constructor
    · rintro ⟨hentry, hclosed⟩
      by_cases hid : t.id = id
      · exact .inr ⟨congrArg some hid, hentry⟩
      · exact .inl ⟨hentry, ho ▸ List.forall_mem_cons.2 ⟨hid, hclosed⟩⟩
    · rintro (⟨hentry, hclosed⟩ | ⟨hhead, hentry⟩)
      · exact ⟨hentry, (List.forall_mem_cons.1 (ho ▸ hclosed)).2⟩
      · refine ⟨hentry, fun t' ht' => ?_⟩
        have hlt := hnested.1 t'.id (List.mem_map_of_mem ht')
        rw [← Option.some.inj hhead]
        exact Nat.ne_of_lt hlt

/-- What is closed stays as it is, and only the innermost region can be closed. -/
theorem hasClosed_step (h : r.Coherent) (op : WalkOp) (id : Nat) (entry : RegionEntry) :
    (r.step op).1.HasClosed id entry ↔
      r.HasClosed id entry ∨ op = .closeRegion ∧
        r.opened.head?.map (·.id) = some id ∧ r.index.region? id = some entry := by
  have hother (hop : op ≠ .closeRegion)
      (hsame : (r.step op).1.HasClosed id entry ↔ r.HasClosed id entry) :
      (r.step op).1.HasClosed id entry ↔
        r.HasClosed id entry ∨ op = .closeRegion ∧
          r.opened.head?.map (·.id) = some id ∧ r.index.region? id = some entry :=
    hsame.trans (or_iff_left fun hclose => hop hclose.1).symm
  cases op with
  | enterFunction name loc =>
    exact hother WalkOp.noConfusion ((sameRegions_enterFunction name loc).hasClosed_iff id entry)
  | leaveFunction =>
    exact hother WalkOp.noConfusion (sameRegions_leaveFunction.hasClosed_iff id entry)
  | call callee loc =>
    have hsame : r.SameRegions (r.step (.call callee loc)).1 :=
      sameRegions_inFunction fun _ _ hr' => by cases hr'; exact ⟨rfl, rfl⟩
    exact hother WalkOp.noConfusion (hsame.hasClosed_iff id entry)
  | throw loc kind =>
    have hsame : r.SameRegions (r.step (.throw loc kind)).1 :=
      sameRegions_inFunction fun _ _ hr' => by cases hr'; exact ⟨rfl, rfl⟩
    exact hother WalkOp.noConfusion (hsame.hasClosed_iff id entry)
  | rethrow loc =>
    exact hother WalkOp.noConfusion ((sameRegions_rethrow loc).hasClosed_iff id entry)
  | openRegion loc => exact hother WalkOp.noConfusion (h.hasClosed_openRegion loc id entry)
  | startClause loc selector =>
    exact hother WalkOp.noConfusion (hasClosed_startClause loc selector id entry)
  | closeRegion =>
    rw [h.hasClosed_closeRegion, and_iff_right rfl]

end Coherent

/-- The regions that are closed have clause lists that pass the check. -/
def AllAccepted (r : Recorder) : Prop :=
  ∀ id entry, r.HasClosed id entry → checkSelectors (entry.clauses.map (·.selector)) = .ok ()

/-- Clauses are rejected only where a region is closed, and then if the check finds a fault. -/
theorem rejectsClauses_step_iff (r : Recorder) (op : WalkOp) :
    rejectsClauses (r.step op).2 = true ↔
      op = .closeRegion ∧ ∃ t rest fault, r.opened = t :: rest ∧
        checkSelectors (r.selectorsOf t.id) = .error fault := by
  constructor
  · intro h
    cases he : (r.step op).2 with
    | none =>
      rw [he] at h
      cases h
    | some e =>
      rcases step_eq_some (Prod.ext rfl he) with ⟨-, hfault⟩ | ⟨hop, t, rest, fault, ho, hcheck, -⟩
      · rw [he, rejectsClauses, Option.bind_some, hfault] at h
        cases h
      · exact ⟨hop, t, rest, fault, ho, hcheck⟩
  · rintro ⟨rfl, t, rest, fault, ho, hcheck⟩
    rw [step, closeRegion, ho]
    simp only [hcheck]
    rfl

namespace Coherent

/-- The check of a region that is closed is a check of what stays on record. -/
theorem allAccepted_step (h : r.Coherent) (op : WalkOp) :
    (r.step op).1.AllAccepted ↔ r.AllAccepted ∧ rejectsClauses (r.step op).2 = false := by
  have hselectors {t : WalkedRegion} {entry : RegionEntry}
      (hentry : r.index.region? t.id = some entry) :
      r.selectorsOf t.id = entry.clauses.map (·.selector) := by
    rw [selectorsOf, hentry]
  constructor
  · intro hall
    refine ⟨fun id entry hclosed => hall id entry ((h.hasClosed_step ..).2 (.inl hclosed)), ?_⟩
    refine Bool.eq_false_iff.2 fun hrejects => ?_
    obtain ⟨rfl, t, rest, fault, ho, hcheck⟩ := (rejectsClauses_step_iff r op).1 hrejects
    obtain ⟨entry, hentry, -⟩ := h.walked t (ho ▸ List.mem_cons_self)
    have hclosed : (r.step .closeRegion).1.HasClosed t.id entry :=
      (h.hasClosed_step ..).2 (.inr ⟨rfl, by rw [ho]; rfl, hentry⟩)
    rw [hselectors hentry, hall _ _ hclosed] at hcheck
    cases hcheck
  · rintro ⟨hall, hrejects⟩ id entry hclosed
    rcases (h.hasClosed_step op id entry).1 hclosed with hold | ⟨rfl, hhead, hentry⟩
    · exact hall id entry hold
    · obtain ⟨t, ht, rfl⟩ := Option.map_eq_some_iff.1 hhead
      obtain ⟨rest, ho⟩ := List.head?_eq_some_iff.1 ht
      cases hcheck : checkSelectors (entry.clauses.map (·.selector)) with
      | ok _ => rfl
      | error fault =>
        rw [← hselectors hentry] at hcheck
        have := (rejectsClauses_step_iff r .closeRegion).2 ⟨rfl, t, rest, fault, ho, hcheck⟩
        exact absurd (this.symm.trans hrejects) Bool.noConfusion

/-- At the end of a run the closed regions tell whether clauses were rejected on the way. -/
theorem allAccepted_run (h : r.Coherent) (ops : List WalkOp) :
    (r.run ops).1.AllAccepted ↔
      r.AllAccepted ∧ ∀ o ∈ (r.run ops).2, rejectsClauses o = false := by
  induction ops generalizing r with
  | nil => exact (and_iff_left (List.forall_mem_nil _)).symm
  | cons op ops ih =>
    rw [Recorder.run, List.forall_mem_cons, ← and_assoc, ← h.allAccepted_step op]
    exact ih (h.step op)

end Coherent

/-- When a recorder is finished, all its regions are closed. -/
theorem allAccepted_of_finish {ix : CallIndex} (h : r.finish = .ok ix) :
    r.AllAccepted ↔
      ∀ entry ∈ ix.regions, checkSelectors (entry.clauses.map (·.selector)) = .ok () := by
  unfold finish at h
  split at h
  · cases h
  · cases h
  · rename_i ho hc
    cases h
    constructor
    · intro hall entry hentry
      obtain ⟨id, hid⟩ := List.mem_iff_getElem?.1 hentry
      exact hall id entry ⟨hid, ho ▸ List.forall_mem_nil _⟩
    · intro hall id entry hclosed
      exact hall entry (List.mem_of_getElem? hclosed.entry)

end Recorder

/-- After any operations on a new recorder, one that is refused leaves it as it was, though its
changes are made one after another: all of the index, the current function and the open regions with
their clauses. The only exception is a region with a bad clause list, which is closed.

So operations that fail for other reasons can be left out of a sequence: the recorder at the end and
the outcomes of the others are the same. If the recorder can be finished, all clause lists in its
index pass the check just if none was rejected on the way. -/
theorem refused_operations_leave_no_trace (ops : List WalkOp) :
    let r := (Recorder.run {} ops).1
    let outcomes := (Recorder.run {} ops).2
    (∀ op r' e, Changes.outcome ((Changes.ofOp op).run r) = (r', some e) →
      (r' = r ∧ e.clauseFault? = none) ∨
        (op = .closeRegion ∧ ∃ t rest fault, r.opened = t :: rest ∧
          checkSelectors (r.selectorsOf t.id) = .error fault ∧
          e = .clauses (r.locationOf t.id) fault ∧ r' = { r with opened := rest })) ∧
    (∀ op, Changes.outcome ((Changes.ofOp op).run r) = r.step op) ∧
    (∀ keep : Option WalkError → Bool,
      (∀ o ∈ outcomes, keep o = false → o.isSome = true ∧ rejectsClauses o = false) →
      Recorder.run {} (keptBy keep ops outcomes) = (r, outcomes.filter keep)) ∧
    ∀ ix, r.finish = .ok ix →
      ((∀ o ∈ outcomes, rejectsClauses o = false) ↔
        ∀ entry ∈ ix.regions, checkSelectors (entry.clauses.map (·.selector)) = .ok ()) := by
  intro r outcomes
  refine ⟨fun op r' e h => ?_, Changes.outcome_ofOp r, fun keep h => Recorder.run_keptBy h,
    fun ix hfinish => ?_⟩
  · rw [Changes.outcome_ofOp] at h
    exact Recorder.step_eq_some h
  · have hnew : Recorder.AllAccepted {} := by
      rintro id entry ⟨hentry, -⟩
      cases hentry
    rw [← Recorder.allAccepted_of_finish hfinish, Recorder.Coherent.new.allAccepted_run]
    exact (and_iff_right hnew).symm

/-- A call, a rethrow, the end of a function, the end of a region and a second declaration are
refused and can be left out. A region with two catch-alls is closed, and its clauses stay bad. -/
theorem refused_operations_leave_no_trace_in_walk :
    let done : List WalkOp := [.enterFunction "f" {}, .openRegion {}, .startClause {} .any]
    let walk : List WalkOp := [.call "g" {}, .enterFunction "f" {}, .rethrow {}, .openRegion {},
      .leaveFunction, .startClause {} .any, .closeRegion, .closeRegion, .leaveFunction,
      .enterFunction "f" {}]
    let bad := done ++ [.startClause {} .any]
    let r := (Recorder.run {} walk).1
    let r' := (Recorder.run {} bad).1
    Recorder.run {} (done ++ [.closeRegion, .leaveFunction]) = (r, List.replicate 5 none) ∧
      (∀ ix, r.finish = .ok ix →
        ∀ entry ∈ ix.regions, checkSelectors (entry.clauses.map (·.selector)) = .ok ()) ∧
      Changes.outcome ((Changes.ofOp .closeRegion).run r') =
        ({ r' with opened := [] }, some (.clauses {} (.duplicateCatchAll 1))) := by
  intro done walk bad r r'
  obtain ⟨-, -, hkept, haccepted⟩ := refused_operations_leave_no_trace walk
  have hclauses : ∀ o ∈ (Recorder.run {} walk).2, rejectsClauses o = false := by decide
  refine ⟨?_, fun ix hix => (haccepted ix hix).1 hclauses, ?_⟩
  · refine (hkept (·.isNone) fun o ho hsome => ⟨?_, hclauses o ho⟩).trans ?_
    · rw [← Option.not_isNone, hsome]
      rfl
    · exact Prod.ext rfl (by decide)
  · obtain ⟨-, hstep, -⟩ := refused_operations_leave_no_trace bad
    exact (hstep .closeRegion).trans (by decide)

end Unwind
