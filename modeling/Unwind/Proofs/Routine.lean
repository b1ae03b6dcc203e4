import Unwind.Proofs.Custody

/-!
# Routines

Programs over a machine, as data. A `Routine sight n k α` stands where `n` failures are known and
`k` clauses are around it. It names them by position and sees of them what a `View` shows; a routine
that is `blind` never sees a trail. It may do what it likes with a failure: let it fly more than
once, show it, drop it, or set it aside under a name and take it up again, in another call or clause
or after them. What an enclosing clause handles it may send on, any number of times.

`Routine.run` is the meaning of a routine in terms of the operations of a machine, and
`Routine.points` lists the points that a run comes through.
-/

namespace Unwind

/-- Whether a program may look at trails. -/
inductive Sight where
  | blind
  | full

variable {sight : Sight} {n k : Nat} {α β τ : Type}

/-! ## What a routine can see and report -/

/-- What there is to see of a failure besides its trail. -/
structure Sighting where
  id : Nat
  payload : Payload
  origin : String
  site : Option Site
  deriving DecidableEq

def Failure.sighting (f : Failure) : Sighting :=
  ⟨f.id, f.payload, f.origin, f.site⟩

/-- The region that a trace is about. -/
def Trace.region? : Trace → Option Nat
  | .enterRegion id _ | .leaveRegion id _ | .caught _ id _ _ | .noClause _ id _ | .rethrow _ id _ =>
    some id
  | _ => none

namespace Event

def region? : Event → Option Nat
  | .trace t => t.region?
  | .note _ => none

/-- The failures that an event shows. -/
def failures : Event → List Failure
  | .trace _ => []
  | .note n => n.failures

/-- An event that shows no failure and is not about a region. -/
def IsPlain (e : Event) : Prop :=
  e.region? = none ∧ e.failures = []

end Event

abbrev PlainEvent := { e : Event // e.IsPlain }

namespace PlainEvent

def events (es : List PlainEvent) : List Event :=
  es.map (·.1)

theorem forall_events {es : List PlainEvent} : ∀ e ∈ events es, e.IsPlain := by
  intro e he
  obtain ⟨e', -, rfl⟩ := List.mem_map.1 he
  exact e'.2

/-- A note that shows no failure. -/
def note (n : Note) (h : n.failures = []) : PlainEvent :=
  ⟨.note n, rfl, h⟩

/-- A trace that is not about a region. -/
def trace (t : Trace) (h : t.region? = none) : PlainEvent :=
  ⟨.trace t, h, rfl⟩

end PlainEvent

/-- The failures that are known at a point of a routine and what the clauses around that point are
handling, in both cases the latest first. -/
structure Env (n k : Nat) where
  known : Fin n → Failure
  handled : Fin k → Handled

namespace Env

/-- The position of the latest failure, or of the latest clause. -/
abbrev latest : Fin (n + 1) :=
  ⟨0, n.succ_pos⟩

def empty : Env 0 0 :=
  ⟨fun i => i.elim0, fun i => i.elim0⟩

/-- Come to know a failure. -/
def know (σ : Env n k) (f : Failure) : Env (n + 1) k where
  known := Fin.cases f σ.known
  handled := σ.handled

/-- Enter a clause. What it handles is known in it. -/
def handle (σ : Env n k) (h : Handled) : Env (n + 1) (k + 1) where
  known := Fin.cases h.failure σ.known
  handled := Fin.cases h σ.handled

end Env

/-- What a routine can look at, and the type of what it sees. -/
inductive View (sight : Sight) (n k : Nat) : Type → Type where
  | machine : View sight n k Snapshot
  | failure (f : Fin n) : View sight n k Sighting
  /-- What an enclosing clause handles, and the region of that clause. -/
  | handled (h : Fin k) : View sight n k (Sighting × Nat)
  | trail (hsight : sight = .full) (f : Fin n) : View sight n k (List Hop)

def View.see : View sight n k τ → Env n k → Machine → τ
  | .machine, _, m => m.snapshot
  | .failure f, σ, _ => (σ.known f).sighting
  | .handled h, σ, _ => ((σ.handled h).failure.sighting, (σ.handled h).region)
  | .trail _ f, σ, _ => (σ.known f).hops

/-- A report of a routine. -/
inductive Remark (n : Nat) where
  | plain (e : PlainEvent)
  /-- A clause starts to handle a failure. -/
  | clause (index region depth active : Nat) (f : Fin n)
  | failed (f : Fin n)
  | minted (f : Fin n)

def Remark.event (σ : Env n k) : Remark n → Event
  | .plain e => e.1
  | .clause index region depth active f =>
    .note (.clause { index, region, failure := σ.known f, depth, active })
  | .failed f => .note (.failed (σ.known f))
  | .minted f => .note (.minted (σ.known f))

/-- What a routine can do that does not fail. -/
inductive Command (n : Nat) where
  | report (remarks : List (Remark n))
  /-- Set a failure aside, replacing an older one of that name. -/
  | keep (name : String) (f : Fin n)
  /-- Forget what is set aside under other names than these. -/
  | retain (names : String → Bool)
  | defer (label : String) (onRelease : List PlainEvent)

def Command.run (σ : Env n k) : Command n → Action Unit
  | .report remarks => Action.report (remarks.map (·.event σ)) ()
  | .keep name f => fun m => ⟨[], .ok (), m.keep name (σ.known f)⟩
  | .retain names => fun m => ⟨[], .ok (), { m with kept := m.kept.filter (names ·.1) }⟩
  | .defer label onRelease => Machine.defer ⟨label, PlainEvent.events onRelease⟩ ()

/-! ## The first clause that takes a payload -/

/-- The first selector that takes payloads of a kind, and its position. -/
def Selector.first? (kind : Kind) (selectors : List Selector) : Option (Selector × Nat) :=
  selectors.zipIdx.find? (·.1.accepts kind)

/-- Clauses in order, of which each knows its position. -/
def numberedClauses (selectors : List Selector) (run : Nat → Handled → Action α) :
    List (Clause α) :=
  selectors.zipIdx.map fun c => ⟨c.1, run c.2⟩

/-- What becomes of a failure that is offered to numbered clauses. -/
def Machine.settle (region : Nat) (f : Failure) (selectors : List Selector)
    (run : Nat → Handled → Action α) : Action α := fun m =>
  match Selector.first? f.kind selectors with
  | some (selector, i) =>
    (Step.mk [.trace (.caught f.id region i selector)] () m).andThen fun _ => run i ⟨f, region⟩
  | none =>
    ⟨[.trace (.noClause f.id region selectors.length)], .error (f.record (.passed region)), m⟩

theorem Machine.offer_numberedClauses (region : Nat) (f : Failure) (selectors : List Selector)
    (run : Nat → Handled → Action α) (m : Machine) :
    offer region f 0 (numberedClauses selectors run) m = settle region f selectors run m := by
  suffices ∀ i, offer region f i ((selectors.zipIdx i).map fun c => ⟨c.1, run c.2⟩) m =
      match (selectors.zipIdx i).find? (·.1.accepts f.kind) with
      | some (selector, j) =>
        (Step.mk [.trace (.caught f.id region j selector)] () m).andThen fun _ => run j ⟨f, region⟩
      | none => ⟨[.trace (.noClause f.id region (i + selectors.length))],
          .error (f.record (.passed region)), m⟩ by
    have h := this 0
    rw [Nat.zero_add] at h
    exact h
  -- The position of the first clause is any number, so that the clauses after it are an instance.
  induction selectors with
  | nil => intro i; rfl
  | cons selector rest ih =>
    intro i
    rw [List.zipIdx_cons, List.map_cons, offer, List.find?_cons]
    cases haccepts : selector.accepts f.kind with
    | true => rfl
    | false =>
      have hlen : i + (selector :: rest).length = i + 1 + rest.length := by
        rw [List.length_cons]
        omega
      rw [if_neg Bool.false_ne_true, ih (i + 1), hlen]

/-! ## Routines and their runs -/

inductive Routine (sight : Sight) : Nat → Nat → Type → Type 1 where
  | done {n k : Nat} {α : Type} (a : α) : Routine sight n k α
  | fail {n k : Nat} {α : Type} (f : Fin n) : Routine sight n k α
  /-- Send on what an enclosing clause handles. -/
  | rethrow {n k : Nat} {α : Type} (h : Fin k) : Routine sight n k α
  | act {n k : Nat} (c : Command n) : Routine sight n k Unit
  | look {n k : Nat} {α τ : Type} (view : View sight n k τ) (next : τ → Routine sight n k α) :
    Routine sight n k α
  | mint {n k : Nat} {α : Type} (p : Payload) (next : Routine sight (n + 1) k α) :
    Routine sight n k α
  /-- Take up a failure that was set aside. -/
  | takeUp {n k : Nat} {α : Type} (name : String) (found : Routine sight (n + 1) k α)
    (missing : Routine sight n k α) : Routine sight n k α
  /-- Go on after a routine, whether it ends with a value or fails. -/
  | andThen {n k : Nat} {α β : Type} (first : Routine sight n k α) (next : α → Routine sight n k β)
    (failed : Routine sight (n + 1) k β) : Routine sight n k β
  | call {n k : Nat} {α : Type} (name : String) (body : Routine sight n k α) : Routine sight n k α
  /-- A guarded region, with what is reported of the region before it turns to its clauses. -/
  | guard {n k : Nat} {α : Type} (body : Routine sight n k α) (pause : Nat → List PlainEvent)
    (selectors : List Selector) (clauses : Nat → Routine sight (n + 1) (k + 1) α) :
    Routine sight n k α

/-- Routines that never look at a trail. -/
abbrev BlindRoutine := Routine .blind

namespace Routine

/-- The action of a routine. -/
def run : {n k : Nat} → {α : Type} → Routine sight n k α → Env n k → Action α
  | _, _, _, .done a, _ => Action.done a
  | _, _, _, .fail f, σ => Action.fail (σ.known f)
  | _, _, _, .rethrow h, σ => (σ.handled h).rethrow
  | _, _, _, .act c, σ => c.run σ
  | _, _, _, .look view next, σ => fun m => (next (view.see σ m)).run σ m
  | _, _, _, .mint p next, σ => fun m => (m.mint p).andThen fun f => next.run (σ.know f)
  | _, _, _, .takeUp name found missing, σ => fun m =>
    match m.kept? name with
    | some f => found.run (σ.know f) m
    | none => missing.run σ m
  | _, _, _, .andThen first next failed, σ => fun m => (first.run σ m).andThen fun
    | .ok a => (next a).run σ
    | .error f => failed.run (σ.know f)
  | _, _, _, .call name body, σ => Machine.call name (body.run σ)
  | _, _, _, .guard body pause selectors clauses, σ => fun m =>
    (m.enterRegion (body.run σ)).andThen fun (region, result) =>
      (Action.report (PlainEvent.events (pause region)) ()).andThen fun _ =>
        Machine.dispatch region
          (numberedClauses selectors fun i h => (clauses i).run (σ.handle h)) result

/-- Go on with the value of a routine. -/
def bind (first : Routine sight n k α) (next : α → Routine sight n k β) : Routine sight n k β :=
  first.andThen next (.fail Env.latest)

/-- Report something and end with a value. -/
def say (remarks : List (Remark n)) (a : α) : Routine sight n k α :=
  (act (.report remarks)).bind fun _ => done a

@[simp] theorem run_done (a : α) (σ : Env n k) :
    (done a : Routine sight n k α).run σ = Action.done a := rfl

@[simp] theorem run_bind (first : Routine sight n k α) (next : α → Routine sight n k β)
    (σ : Env n k) : (first.bind next).run σ = (first.run σ).andThen fun a => (next a).run σ := by
  funext m
  simp only [bind, run, Action.andThen, Step.andThen]
  cases (first.run σ m).result <;> rfl

@[simp] theorem run_say (remarks : List (Remark n)) (a : α) (σ : Env n k) :
    (say remarks a : Routine sight n k α).run σ = Action.report (remarks.map (·.event σ)) a := by
  funext m
  simp [say, run, Command.run, Action.andThen, Step.andThen, Action.report, Action.done]

/-! ### What follows, by what becomes of the first part -/

section AndThen

variable {first : Routine sight n k α} {next : α → Routine sight n k β}
  {failed : Routine sight (n + 1) k β} {σ : Env n k} {m : Machine}

theorem run_andThen_ok {a : α} (h : (first.run σ m).result = .ok a) :
    (first.andThen next failed).run σ m =
      let s := (next a).run σ (first.run σ m).machine
      { s with events := (first.run σ m).events ++ s.events } := by
  simp only [run, Step.andThen, h]

theorem run_andThen_error {f : Failure} (h : (first.run σ m).result = .error f) :
    (first.andThen next failed).run σ m =
      let s := failed.run (σ.know f) (first.run σ m).machine
      { s with events := (first.run σ m).events ++ s.events } := by
  simp only [run, Step.andThen, h]

end AndThen

section Guard

variable {body : Routine sight n k α} {pause : Nat → List PlainEvent} {selectors : List Selector}
  {clauses : Nat → Routine sight (n + 1) (k + 1) α} {σ : Env n k} {m : Machine}

/-- What a region reports before it turns to its clauses. -/
def bodyEvents (body : Routine sight n k α) (pause : Nat → List PlainEvent) (σ : Env n k)
    (m : Machine) : List Event :=
  (m.enterRegion (body.run σ)).events ++ PlainEvent.events (pause (m.entered + 1))

theorem run_guard_ok {a : α} (h : (m.enterRegion (body.run σ)).result.2 = .ok a) :
    (guard body pause selectors clauses).run σ m =
      ⟨bodyEvents body pause σ m, .ok a, (m.enterRegion (body.run σ)).machine⟩ := by
  have hid : (m.enterRegion (body.run σ)).result.1 = m.entered + 1 := rfl
  simp only [run, Step.andThen, Action.andThen, Action.report, h, hid, Machine.dispatch,
    Action.done, List.append_nil, bodyEvents]

theorem run_guard_error {f : Failure} (h : (m.enterRegion (body.run σ)).result.2 = .error f) :
    (guard body pause selectors clauses).run σ m =
      (Step.mk (bodyEvents body pause σ m) () (m.enterRegion (body.run σ)).machine).andThen
        fun _ => Machine.settle (m.entered + 1) f selectors fun i h =>
          (clauses i).run (σ.handle h) := by
  have hid : (m.enterRegion (body.run σ)).result.1 = m.entered + 1 := rfl
  simp only [run, Step.andThen, Action.andThen, Action.report, h, hid, Machine.dispatch,
    Machine.offer_numberedClauses, bodyEvents, List.append_assoc]

theorem run_guard_passed {f : Failure} (h : (m.enterRegion (body.run σ)).result.2 = .error f)
    (hfirst : Selector.first? f.kind selectors = none) :
    (guard body pause selectors clauses).run σ m =
      { events := bodyEvents body pause σ m ++
          [.trace (.noClause f.id (m.entered + 1) selectors.length)]
        result := .error (f.record (.passed (m.entered + 1)))
        machine := (m.enterRegion (body.run σ)).machine } := by
  rw [run_guard_error h, Step.andThen, Machine.settle, hfirst]

theorem run_guard_taken {f : Failure} {selector : Selector} {i : Nat}
    (h : (m.enterRegion (body.run σ)).result.2 = .error f)
    (hfirst : Selector.first? f.kind selectors = some (selector, i)) :
    (guard body pause selectors clauses).run σ m =
      let s := (clauses i).run (σ.handle ⟨f, m.entered + 1⟩) (m.enterRegion (body.run σ)).machine
      { s with
        events := bodyEvents body pause σ m ++
          .trace (.caught f.id (m.entered + 1) i selector) :: s.events } := by
  rw [run_guard_error h, Step.andThen, Machine.settle, hfirst]
  rfl

end Guard

end Routine

/-! ## Points of a run -/

/-- Where a routine stands: what it knows, and the machine. -/
structure Point where
  {n k : Nat}
  env : Env n k
  machine : Machine

namespace Routine

/-- The points that a run comes through, one before each operation and one more where the body of a
region is over. -/
def points : {n k : Nat} → {α : Type} → Routine sight n k α → Env n k → Machine → List Point
  | _, _, _, .done _, σ, m => [⟨σ, m⟩]
  | _, _, _, .fail _, σ, m => [⟨σ, m⟩]
  | _, _, _, .rethrow _, σ, m => [⟨σ, m⟩]
  | _, _, _, .act _, σ, m => [⟨σ, m⟩]
  | _, _, _, .look view next, σ, m => ⟨σ, m⟩ :: (next (view.see σ m)).points σ m
  | _, _, _, .mint p next, σ, m =>
    ⟨σ, m⟩ :: next.points (σ.know (m.mint p).result) (m.mint p).machine
  | _, _, _, .takeUp name found missing, σ, m =>
    ⟨σ, m⟩ :: match m.kept? name with
      | some f => found.points (σ.know f) m
      | none => missing.points σ m
  | _, _, _, .andThen first next failed, σ, m =>
    let s := first.run σ m
    first.points σ m ++ match s.result with
      | .ok a => (next a).points σ s.machine
      | .error f => failed.points (σ.know f) s.machine
  | _, _, _, .call name body, σ, m => ⟨σ, m⟩ :: body.points σ (m.withFrame name)
  | _, _, _, .guard body _ selectors clauses, σ, m =>
    let t := m.enterRegion (body.run σ)
    ⟨σ, m⟩ :: body.points σ m.withRegion ++ match t.result.2 with
      | .ok _ => [⟨σ, t.machine⟩]
      | .error f => ⟨σ.know f, t.machine⟩ :: match Selector.first? f.kind selectors with
        | none => []
        | some (_, i) => (clauses i).points (σ.handle ⟨f, m.entered + 1⟩) t.machine

section Guard

variable {body : Routine sight n k α} {pause : Nat → List PlainEvent} {selectors : List Selector}
  {clauses : Nat → Routine sight (n + 1) (k + 1) α} {σ : Env n k} {m : Machine}

/-- The points before the body of a region is over. -/
def bodyPoints (body : Routine sight n k α) (σ : Env n k) (m : Machine) : List Point :=
  ⟨σ, m⟩ :: body.points σ m.withRegion

theorem points_guard_ok {a : α} (h : (m.enterRegion (body.run σ)).result.2 = .ok a) :
    (guard body pause selectors clauses).points σ m =
      bodyPoints body σ m ++ [⟨σ, (m.enterRegion (body.run σ)).machine⟩] := by
  simp only [points, h, bodyPoints]

theorem points_guard_passed {f : Failure} (h : (m.enterRegion (body.run σ)).result.2 = .error f)
    (hfirst : Selector.first? f.kind selectors = none) :
    (guard body pause selectors clauses).points σ m =
      bodyPoints body σ m ++ [⟨σ.know f, (m.enterRegion (body.run σ)).machine⟩] := by
  simp only [points, h, hfirst, bodyPoints]

theorem points_guard_taken {f : Failure} {selector : Selector} {i : Nat}
    (h : (m.enterRegion (body.run σ)).result.2 = .error f)
    (hfirst : Selector.first? f.kind selectors = some (selector, i)) :
    (guard body pause selectors clauses).points σ m =
      bodyPoints body σ m ++ ⟨σ.know f, (m.enterRegion (body.run σ)).machine⟩ ::
        (clauses i).points (σ.handle ⟨f, m.entered + 1⟩) (m.enterRegion (body.run σ)).machine := by
  simp only [points, h, hfirst, bodyPoints]

end Guard

end Routine

/-! ## Releases are plain -/

/-- Whatever is held, its release reports no failure and nothing about a region. -/
def Machine.Plain (m : Machine) : Prop :=
  ∀ r ∈ m.stack.resources, ∀ e ∈ r.onRelease, e.IsPlain

namespace Machine.Plain

variable {m m' : Machine}

theorem new (config : Config) : (Machine.new config).Plain :=
  fun _ h => absurd h List.not_mem_nil

theorem of_subset (h : m.Plain) (hsub : m'.stack.resources ⊆ m.stack.resources) : m'.Plain :=
  fun r hr => h r (hsub hr)

theorem withFrame (h : m.Plain) (name : String) : (m.withFrame name).Plain :=
  h.of_subset (List.Subset.refl _)

theorem withRegion (h : m.Plain) : m.withRegion.Plain :=
  h.of_subset (List.Subset.refl _)

theorem command (h : m.Plain) (σ : Env n k) (c : Command n) : (c.run σ m).machine.Plain := by
  cases c with
  | report | keep | retain => exact h
  | defer label onRelease =>
    intro r hr
    rcases List.mem_cons.1 hr with rfl | hr
    · exact PlainEvent.forall_events
    · exact h r hr

theorem call {name : String} {body : Action α} (h : (body (m.withFrame name)).machine.Plain) :
    (m.call name body).machine.Plain := by
  rw [Machine.call_eq_popTo]
  refine h.of_subset fun r hr => ?_
  rw [← CallStack.popTo_resources _ m.stack.depth]
  exact List.mem_append_right _ hr

theorem enterRegion {body : Action α} (h : (body m.withRegion).machine.Plain) :
    (m.enterRegion body).machine.Plain := by
  refine h.of_subset fun r hr => ?_
  rw [← CallStack.returnTo_resources _ m.stack.mark]
  exact List.mem_append_right _ hr

/-- Releases report only plain events. -/
theorem release_events {released : List (Release Resource)}
    (h : ∀ r ∈ released.map (·.resource), ∀ e ∈ r.onRelease, e.IsPlain) :
    ∀ e ∈ released.flatMap Release.events, e.IsPlain := by
  intro e he
  obtain ⟨r, hr, he⟩ := List.mem_flatMap.1 he
  rcases List.mem_cons.1 he with rfl | he
  · exact ⟨rfl, rfl⟩
  · exact h r.resource (List.mem_map_of_mem hr) e he

theorem popTo_events (h : m.Plain) (depth : Nat) :
    ∀ e ∈ (m.stack.popTo depth).released.flatMap Release.events, e.IsPlain := by
  refine release_events fun r hr => h r ?_
  rw [← CallStack.popTo_resources _ depth]
  exact List.mem_append_left _ hr

theorem returnTo_events (h : m.Plain) (mark : Mark) :
    ∀ e ∈ (m.stack.returnTo mark).released.flatMap Release.events, e.IsPlain := by
  refine release_events fun r hr => h r ?_
  rw [← CallStack.returnTo_resources _ mark]
  exact List.mem_append_left _ hr

theorem drain_events (h : m.Plain) : ∀ e ∈ m.drain, e.IsPlain := by
  refine release_events fun r hr => h r ?_
  rwa [CallStack.drain_resources] at hr

end Machine.Plain

theorem Routine.run_plain (r : Routine sight n k α) (σ : Env n k) {m : Machine} (h : m.Plain) :
    (r.run σ m).machine.Plain := by
  induction r generalizing m with
  | done | fail | rethrow => exact h
  | act c => exact h.command σ c
  | look _ _ ih => exact ih _ σ h
  | mint p _ ih => exact ih (σ.know (m.mint p).result) (m := (m.mint p).machine) h
  | takeUp name _ _ ihf ihm =>
    simp only [run]
    split
    next f _ => exact ihf (σ.know f) h
    next => exact ihm σ h
  | @andThen _ _ _ _ first _ _ ih ihn ihf =>
    have hfirst := ih σ h
    cases hr : (first.run σ m).result with
    | ok a =>
      rw [run_andThen_ok hr]
      exact ihn a σ hfirst
    | error f =>
      rw [run_andThen_error hr]
      exact ihf (σ.know f) hfirst
  | call name _ ih => exact (ih σ (h.withFrame name)).call
  | @guard _ _ _ body pause selectors clauses ih ihc =>
    have hbody := (ih σ h.withRegion).enterRegion
    cases hr : (m.enterRegion (body.run σ)).result.2 with
    | ok a =>
      rw [run_guard_ok hr]
      exact hbody
    | error f =>
      cases hfirst : Selector.first? f.kind selectors with
      | none =>
        rw [run_guard_passed hr hfirst]
        exact hbody
      | some c =>
        rw [run_guard_taken hr hfirst]
        exact ihc c.2 _ hbody

end Unwind
