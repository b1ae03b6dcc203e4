import Unwind.Startup

/-!
# Actions built from the operations of a machine

`Action.Built` says of an action that it is put together from the operations of a machine and from
nothing else. How the parts hang together is left open: what follows a step may depend in any way on
its result, be it a value or a failure, and on the machine as it can be seen then. So a failure may
be dropped, kept as a value and let fly again later, or sent on from any clause that has seen it.

The meanings of statements and the functions of the sample program are built in this way, and so is
a whole list of tasks.
-/

namespace Unwind

variable {α β γ : Type}

theorem Step.andThen_assoc (s : Step α) (f : α → Machine → Step β) (g : β → Machine → Step γ) :
    (s.andThen f).andThen g = s.andThen fun a m => (f a m).andThen g := by
  simp [Step.andThen]

namespace Action

/-- Actions put together from the operations of a machine. -/
inductive Built : {α : Type} → Action α → Prop where
  | done {α : Type} (a : α) : Built (done a)
  | fail {α : Type} (f : Failure) : Built (fail f : Action α)
  | report {α : Type} (events : List Event) (a : α) : Built (report events a)
  /-- What the program has set aside changes. -/
  | remember {α : Type} (change : List (String × Failure) → List (String × Failure)) (a : α) :
    Built fun m => ⟨[], .ok a, { m with kept := change m.kept }⟩
  /-- A failure is started and becomes a value of the program. -/
  | mint {α : Type} (p : Payload) {next : Failure → Action α} :
    (∀ f, Built (next f)) → Built fun m => (m.mint p).andThen next
  | defer {α : Type} (resource : Resource) (a : α) : Built (Machine.defer resource a)
  /-- What is done depends on the machine. -/
  | inspect {α : Type} {act : Machine → Action α} :
    (∀ m, Built (act m)) → Built fun m => act m m
  | andThen {α β : Type} {act : Action α} {next : Except Failure α → Action β} :
    Built act → (∀ r, Built (next r)) → Built fun m => (act m).andThen next
  | call {α : Type} (name : String) {body : Action α} : Built body → Built (Machine.call name body)
  /-- A guarded body, with anything that follows from its number and its result. -/
  | region {α β : Type} {body : Action α} {next : Nat × Except Failure α → Action β} :
    Built body → (∀ r, Built (next r)) → Built fun m => (m.enterRegion body).andThen next

namespace Built

theorem bind {act : Action α} {next : α → Action β} (h : act.Built) (hn : ∀ a, (next a).Built) :
    (act.andThen next).Built := by
  refine h.andThen fun r => ?_
  cases r with
  | ok a => exact hn a
  | error f => exact .fail f

theorem raise (p : Payload) : (Machine.raise p : Action α).Built :=
  .mint p fun f => .fail f

/-- It is enough that on each machine the action does what some built action does. -/
theorem of_each {act : Action α} (h : ∀ m, ∃ other : Action α, other.Built ∧ act m = other m) :
    act.Built := by
  have heq : act = fun m => (h m).choose m := funext fun m => (h m).choose_spec.2
  rw [heq]
  exact .inspect fun m => (h m).choose_spec.1

theorem reportFail (events : List Event) (f : Failure) :
    Built (fun m => ⟨events, .error f, m⟩ : Action α) := by
  have h : Built fun m => (Action.report events () m).andThen fun _ => (Action.fail f : Action α) :=
    (Built.report events ()).andThen fun _ => .fail f
  simpa [Action.report, Step.andThen, Action.fail] using h

theorem rethrow (h : Handled) : (h.rethrow : Action α).Built :=
  .reportFail _ _

theorem offer {region : Nat} {f : Failure} {i : Nat} {clauses : List (Clause α)}
    (h : ∀ c ∈ clauses, ∀ handled, (c.run handled).Built) :
    (Machine.offer region f i clauses).Built := by
  induction clauses generalizing i with
  | nil => exact .reportFail _ _
  | cons clause rest ih =>
    unfold Machine.offer
    split
    · exact (Built.report _ ()).bind fun _ => h clause List.mem_cons_self _
    · exact ih fun c hc => h c (List.mem_cons_of_mem _ hc)

theorem dispatch {region : Nat} {clauses : List (Clause α)} {r : Except Failure α}
    (h : ∀ c ∈ clauses, ∀ handled, (c.run handled).Built) :
    (Machine.dispatch region clauses r).Built := by
  cases r with
  | ok a => exact .done a
  | error f => exact .offer h

theorem guard {body : Action α} {clauses : List (Clause α)} (hb : body.Built)
    (h : ∀ c ∈ clauses, ∀ handled, (c.run handled).Built) :
    (Machine.guard body clauses).Built :=
  hb.region fun _ => .dispatch h

theorem nested {scope : Action α → Action α} (hscope : ∀ act, act.Built → (scope act).Built)
    {act : Action α} (h : act.Built) (n : Nat) : (nested scope n act).Built := by
  induction n with
  | zero => exact h
  | succ n ih => exact hscope _ ih

/-- An entry point, with anything that follows from its result. -/
theorem enter (name : String) {body : Action α} {next : Except Fatal α → Action β}
    (h : body.Built) (hn : ∀ r, (next r).Built) :
    Built fun m => (m.enter name body).andThen next := by
  simp only [Machine.enter, Step.andThen_assoc]
  refine (h.call name).andThen fun r => ?_
  cases r with
  | ok a => exact hn (.ok a)
  | error f =>
    exact (Built.report [.trace (.uncaught f.id name f.payload)] ()).bind fun _ =>
      hn (.error (.uncaught name f))

end Built

/-- Run actions in turn on the same machine, whatever becomes of each. -/
def inTurn : List (Action α) → Action Unit
  | [] => done ()
  | act :: rest => fun m => (act m).andThen fun _ => inTurn rest

theorem Built.inTurn {acts : List (Action α)} (h : ∀ act ∈ acts, act.Built) :
    (inTurn acts).Built := by
  induction acts with
  | nil => exact .done ()
  | cons act rest ih =>
    rw [List.forall_mem_cons] at h
    exact h.1.andThen fun _ => ih h.2

end Action

namespace Sample

theorem foo_built (b : Bool) : (foo b).Built :=
  .call "foo" (.raise _)

theorem exits_built : ∀ c ∈ exits, ∀ h, (c.run h).Built := by
  simp only [exits, List.forall_mem_cons]
  exact ⟨fun _ => .done _, fun _ => .done _, fun _ => .done _, fun _ h => nomatch h⟩

theorem fooStatement_built (b : Bool) : (fooStatement b).Built :=
  (foo_built b).bind fun _ => .done _

theorem unlessEarly_built {act : Action (Completion Unit Int32)} {rest : Action Int32}
    (h : act.Built) (hrest : rest.Built) : (unlessEarly act rest).Built := by
  refine h.bind fun c => ?_
  cases c with
  | value u => exact hrest
  | early v => exact .done v

theorem entry_built (argc : Int32) : (entry argc).Built := by
  refine .call "main" ((Action.Built.defer _ ()).bind fun _ => ?_)
  refine unlessEarly_built (.guard (fooStatement_built _) exits_built) ?_
  exact (foo_built _).bind fun _ => .done _

theorem entryRethrowing_built (argc : Int32) : (entryRethrowing argc).Built := by
  refine .call "main" (unlessEarly_built (.guard ?_ exits_built) (.done _))
  refine .guard (fooStatement_built _) fun c hc h => ?_
  cases List.mem_singleton.1 hc
  exact .rethrow h

end Sample

theorem SampleFunction.run_built (f : SampleFunction) : f.run.Built := by
  cases f with
  | foo b => exact Sample.foo_built b
  | bar b =>
    rw [run, Sample.bar_eq]
    exact .call _ (Sample.foo_built b)
  | baz b => exact .call _ (Sample.foo_built b)
  | entry argc => exact Sample.entry_built argc
  | entryRethrowing argc => exact Sample.entryRethrowing_built argc
  | globalInit => exact (Sample.foo_built true).bind fun _ => .done _

namespace Stmt

theorem yield_built (v : Int32) : (yield v).Built :=
  .report _ _

theorem yieldEnded_built (e : Ended) : (yieldEnded e).Built := by
  cases e <;> exact .report _ _

theorem notedGuard_built {clauses : List (Clause Ended)} {body : Action Ended}
    (hb : body.Built) (h : ∀ c ∈ clauses, ∀ handled, (c.run handled).Built) :
    (notedGuard clauses body).Built :=
  hb.region fun _ => (Action.Built.report _ ()).bind fun _ => .dispatch h

theorem notedClause_built {index : Nat} {selector : Selector} {body : Handled → Action Ended}
    {handled : Handled} (h : (body handled).Built) :
    ((notedClause index selector body).run handled).Built :=
  .of_each fun _ => ⟨_, (Action.Built.report _ ()).bind fun _ => h, rfl⟩

theorem attempting_built {name : Option String} {body : Action Ended} {v : Int32}
    (h : body.Built) : (attempting name body v).Built := by
  refine h.andThen fun r => ?_
  rcases r with f | ended
  · cases name with
    | none => exact .report _ _
    | some name =>
      exact (Action.Built.remember (fun kept => (name, f) :: kept.filter (·.1 ≠ name)) ()).bind
        fun _ => .report [.note (.failed f)] (Completion.value v)
  · exact .done ended

theorem resuming_built (name : String) (forget : Bool) (v : Int32) :
    (resuming name forget v).Built := by
  refine .of_each fun m => ?_
  unfold resuming
  split
  next f _ =>
    cases forget with
    | false => exact ⟨_, .fail f, rfl⟩
    | true =>
      exact ⟨_, (Action.Built.remember (fun kept => kept.filter (·.1 ≠ name)) ()).bind
        fun _ => .fail f, rfl⟩
  next => exact ⟨_, .report _ _, rfl⟩

theorem repeating_built {body : Action Ended} (h : body.Built) (n : Nat) (v : Int32) :
    (repeating body n v).Built := by
  induction n generalizing v with
  | zero => exact .done _
  | succ n ih =>
    refine h.bind fun e => ?_
    cases e with
    | value v => exact ih v
    | early v => exact .done _

mutual

theorem run_built : ∀ (stmt : Stmt) (hs : List Handled) (v : Int32), (stmt.run hs v).Built
  | .call name body, hs, _ => by
    rw [run]
    exact ((runBody_built body hs 0).call name).bind fun _ => yield_built _
  | .nest n name body, hs, _ => by
    rw [run]
    exact (Action.Built.nested (fun _ h => h.call name) (runBody_built body hs 0) n).bind
      fun _ => .done _
  | .guard body clauses, hs, _ => by
    rw [run]
    exact (notedGuard_built (runBody_built body hs 0) (runClauses_built 0 clauses hs)).bind
      yieldEnded_built
  | .nestGuard n body clauses, hs, _ => by
    rw [run]
    exact .nested (fun _ h => notedGuard_built h (runClauses_built 0 clauses hs))
      (runBody_built body hs 0) n
  | .times n body, hs, v => by
    rw [run]
    exact repeating_built (runBody_built body hs 0) n v
  | .attempt body name, hs, v => by
    rw [run]
    exact attempting_built (runBody_built body hs 0)
  | .resume name, _, v => by rw [run]; exact resuming_built name true v
  | .resumeCopy name, _, v => by rw [run]; exact resuming_built name false v
  | .defer label, _, v => by rw [run]; exact .defer _ _
  | .raise p, _, _ => by rw [run]; exact .raise p
  | .mint p, _, v => by rw [run]; exact .mint p fun _ => .report _ _
  | .rethrow up, hs, v => by
    rw [run]
    split
    · exact .rethrow _
    · exact .done _
  | .leave v, _, _ => by rw [run]; exact .done _
  | .value v, _, _ => by rw [run]; exact .done _
  | .payloadValue, hs, v => by
    rw [run]
    split <;> exact .done _
  | .snap, _, v => by rw [run]; exact .inspect fun _ => .report _ _
  | .note text, _, v => by rw [run]; exact .report _ _
  | .sample f, _, _ => by rw [run]; exact f.run_built.bind yield_built

theorem runBody_built : ∀ (body : List Stmt) (hs : List Handled) (v : Int32),
    (runBody body hs v).Built
  | [], _, v => by rw [runBody]; exact .done _
  | stmt :: rest, hs, v => by
    rw [runBody]
    refine (run_built stmt hs v).bind fun e => ?_
    cases e with
    | value v => exact runBody_built rest hs v
    | early v => exact .done _

theorem runClauses_built : ∀ (i : Nat) (clauses : List (Selector × List Stmt)) (hs : List Handled),
    ∀ c ∈ runClauses i clauses hs, ∀ h, (c.run h).Built
  | _, [], _, c, hc, _ => by simp [runClauses] at hc
  | i, (selector, body) :: rest, hs, c, hc, h => by
    rw [runClauses, List.mem_cons] at hc
    rcases hc with rfl | hc
    · exact notedClause_built (runBody_built body (h :: hs) 0)
    · exact runClauses_built (i + 1) rest hs c hc h

end

end Stmt

namespace Task

/-- A task as an action, with its ending as a value. -/
def action (t : Task) : Action Ending := fun m =>
  (t.run m).andThen Action.done

theorem action_built (t : Task) : t.action.Built := by
  have hbody := Stmt.runBody_built t.body [] 0
  unfold action run
  cases t.entry with
  | none =>
    simp only [Step.andThen_assoc]
    refine hbody.andThen fun r => ?_
    cases r <;> exact .done _
  | some name =>
    simp only [Step.andThen_assoc]
    refine hbody.enter name fun r => ?_
    cases r <;> exact .done _

/-- Doing tasks one after the other is one action. -/
theorem runAll_eq_inTurn (tasks : List Task) (m : Machine) :
    (runAll tasks m).flatMap (·.events) = (Action.inTurn (tasks.map action) m).events ∧
      (runAll tasks m).foldl (fun _ s => s.machine) m =
        (Action.inTurn (tasks.map action) m).machine := by
  induction tasks generalizing m with
  | nil => exact ⟨rfl, rfl⟩
  | cons t rest ih =>
    obtain ⟨hevents, hmachine⟩ := ih (t.run m).machine
    refine ⟨?_, hmachine⟩
    rw [runAll, List.flatMap_cons, hevents]
    simp [Action.inTurn, Step.andThen, action, Action.done]

end Task

end Unwind
