import Unwind.Proofs.Identity
import Unwind.Proofs.RegionNumbers

/-!
# The phases of a startup

A startup is a sequence of calls, of which the first that fails is the last (`StartupCourse`). Each
call ends in the scopes in which it began, so that every phase starts on a stack that holds nothing
and with no active region, whatever was deferred, caught or sent on before. Only the counters go on:
from the first phase to the last, raises and regions are numbered through.
-/

namespace Unwind

variable {α β : Type}

namespace Machine

/-- Run initializers and then an entry point. -/
def startup (inits : List (String × Action α)) (entry : String) (main : Action β) :
    Machine → Step (Except Fatal β) := fun m =>
  (m.initialise inits).andThen fun
    | .error f => fun m => ⟨[], .error f, m⟩
    | .ok () => enter entry main

/-- Calls in turn that all succeed. They report `es` and lead from one machine to another. -/
inductive Succeed : List (String × Action α) → Machine → List Event → Machine → Prop where
  | nil {m : Machine} : Succeed [] m [] m
  | cons {name : String} {body : Action α} {rest : List (String × Action α)} {m m' : Machine}
    {es : List Event} {a : α} : (m.call name body).result = .ok a →
    Succeed rest (m.call name body).machine es m' →
    Succeed ((name, body) :: rest) m ((m.call name body).events ++ es) m'

end Machine

open Machine (Succeed)

/-- How a startup can go. -/
inductive StartupCourse (inits : List (String × Action α)) (entry : String) (main : Action β)
    (m : Machine) : Step (Except Fatal β) → Prop where
  | completed {es : List Event} {m' : Machine} {v : β} : Succeed inits m es m' →
    (m'.call entry main).result = .ok v →
    StartupCourse inits entry main m
      ⟨es ++ (m'.call entry main).events, .ok v, (m'.call entry main).machine⟩
  | init {before after : List (String × Action α)} {name : String} {body : Action α}
    {es : List Event} {m' : Machine} {f : Failure} : inits = before ++ (name, body) :: after →
    Succeed before m es m' → (m'.call name body).result = .error f →
    StartupCourse inits entry main m
      ⟨es ++ ((m'.call name body).events ++ [.trace (.uncaughtInit f.id name f.payload)]),
        .error (.init name f), (m'.call name body).machine⟩
  | uncaught {es : List Event} {m' : Machine} {f : Failure} : Succeed inits m es m' →
    (m'.call entry main).result = .error f →
    StartupCourse inits entry main m
      ⟨es ++ ((m'.call entry main).events ++ [.trace (.uncaught f.id entry f.payload)]),
        .error (.uncaught entry f), (m'.call entry main).machine⟩

/-! ## Initializers in turn -/

section

variable {inits before after : List (String × Action α)} {entry name : String} {main : Action β}
  {body : Action α} {m m' : Machine} {es : List Event} {f : Failure}

theorem Machine.Succeed.initialise_eq (h : Succeed inits m es m') :
    m.initialise inits = ⟨es, .ok (), m'⟩ := by
  induction h with
  | nil => rfl
  | cons hok _ ih => simp only [initialise, Step.andThen, hok, ih]

theorem Machine.Succeed.initialise_error (h : Succeed before m es m')
    (hf : (m'.call name body).result = .error f) :
    m.initialise (before ++ (name, body) :: after) =
      ⟨es ++ ((m'.call name body).events ++ [.trace (.uncaughtInit f.id name f.payload)]),
        .error (.init name f), (m'.call name body).machine⟩ := by
  induction h with
  | nil => simp only [List.nil_append, initialise, Step.andThen, hf]
  | cons hok _ ih =>
    simp only [List.cons_append, initialise, Step.andThen, hok, ih hf, List.append_assoc]

/-- Either all initializers succeed, or there is a first one that fails. -/
theorem succeed_or_first_failure (inits : List (String × Action α)) (m : Machine) :
    (∃ es m', Succeed inits m es m') ∨
      ∃ before name body after es m' f, inits = before ++ (name, body) :: after ∧
        Succeed before m es m' ∧ (m'.call name body).result = .error f := by
  induction inits generalizing m with
  | nil => exact .inl ⟨[], m, .nil⟩
  | cons init rest ih =>
    obtain ⟨name, body⟩ := init
    cases hr : (m.call name body).result with
    | error f => exact .inr ⟨[], name, body, rest, [], m, f, rfl, .nil, hr⟩
    | ok a =>
      rcases ih (m.call name body).machine with
        ⟨es, m', h⟩ | ⟨before, name', body', after, es, m', f, rfl, h, hf⟩
      · exact .inl ⟨_, m', .cons hr h⟩
      · exact .inr ⟨(name, body) :: before, name', body', after, _, m', f, rfl, .cons hr h, hf⟩

/-- A startup goes as described. -/
theorem StartupCourse.startup_eq {s : Step (Except Fatal β)}
    (h : StartupCourse inits entry main m s) : m.startup inits entry main = s := by
  cases h with
  | completed h hv =>
    simp only [Machine.startup, Step.andThen, h.initialise_eq, Machine.enter, hv, List.append_nil]
  | init hinits h hf =>
    subst hinits
    simp only [Machine.startup, Step.andThen, h.initialise_error hf, List.append_nil]
  | uncaught h hf => simp only [Machine.startup, Step.andThen, h.initialise_eq, Machine.enter, hf]

theorem startupCourse (inits : List (String × Action α)) (entry : String) (main : Action β)
    (m : Machine) : StartupCourse inits entry main m (m.startup inits entry main) := by
  have hcourse : ∃ s, StartupCourse inits entry main m s := by
    rcases succeed_or_first_failure inits m with
      ⟨es, m', h⟩ | ⟨before, name, body, after, es, m', f, hinits, h, hf⟩
    · cases hr : (m'.call entry main).result with
      | ok v => exact ⟨_, .completed h hr⟩
      | error f => exact ⟨_, .uncaught h hr⟩
    · exact ⟨_, .init hinits h hf⟩
  obtain ⟨s, h⟩ := hcourse
  rwa [h.startup_eq]

theorem startup_ok_iff {v : β} :
    (m.startup inits entry main).result = .ok v ↔
      ∃ es m', Succeed inits m es m' ∧ (m'.call entry main).result = .ok v ∧
        (m.startup inits entry main).events = es ++ (m'.call entry main).events := by
  have hcourse := startupCourse inits entry main m
  constructor
  · intro hr
    generalize m.startup inits entry main = s at hcourse hr
    cases hcourse with
    | completed h hv =>
      cases hr
      exact ⟨_, _, h, hv, rfl⟩
    | init | uncaught => cases hr
  · rintro ⟨es, m', h, hv, -⟩
    rw [(StartupCourse.completed h hv).startup_eq]

theorem startup_init_iff :
    (m.startup inits entry main).result = .error (.init name f) ↔
      ∃ before body after es m', inits = before ++ (name, body) :: after ∧
        Succeed before m es m' ∧ (m'.call name body).result = .error f ∧
        (m.startup inits entry main).events = es ++
          ((m'.call name body).events ++ [.trace (.uncaughtInit f.id name f.payload)]) := by
  have hcourse := startupCourse inits entry main m
  constructor
  · intro hr
    generalize m.startup inits entry main = s at hcourse hr
    cases hcourse with
    | init hinits h hf =>
      cases hr
      exact ⟨_, _, _, _, _, hinits, h, hf, rfl⟩
    | completed | uncaught => cases hr
  · rintro ⟨before, body, after, es, m', hinits, h, hf, -⟩
    rw [(StartupCourse.init hinits h hf).startup_eq]

theorem startup_uncaught_iff :
    (m.startup inits entry main).result = .error (.uncaught name f) ↔
      name = entry ∧ ∃ es m', Succeed inits m es m' ∧ (m'.call entry main).result = .error f ∧
        (m.startup inits entry main).events = es ++
          ((m'.call entry main).events ++ [.trace (.uncaught f.id entry f.payload)]) := by
  have hcourse := startupCourse inits entry main m
  constructor
  · intro hr
    generalize m.startup inits entry main = s at hcourse hr
    cases hcourse with
    | uncaught h hf =>
      cases hr
      exact ⟨rfl, _, _, h, hf, rfl⟩
    | completed | init => cases hr
  · rintro ⟨rfl, es, m', h, hf, -⟩
    rw [(StartupCourse.uncaught h hf).startup_eq]

end

/-! ## The start of a phase -/

/-- The body of a program: it does what a routine does, and uses no failures but those that it comes
by itself. -/
structure Action.Proper (act : Action α) : Prop where
  honest : act.Honest []
  routine : ∃ (sight : Sight) (r : Routine sight 0 0 α), r.run .empty = act

theorem Action.Proper.built {act : Action α} (h : act.Proper) : act.Built := by
  obtain ⟨_, r, rfl⟩ := h.routine
  exact r.run_built .empty

section

variable {inits : List (String × Action α)} {m m' : Machine} {es : List Event}

theorem Machine.Succeed.sameScopes (h : Succeed inits m es m')
    (hinits : ∀ init ∈ inits, init.2.Proper) : m.SameScopes m' := by
  induction h with
  | nil => exact ⟨rfl, rfl⟩
  | @cons name _ _ m _ _ _ _ _ ih =>
    rw [List.forall_mem_cons] at hinits
    have hcall := (hinits.1.built.grows (m.withFrame name)).call.1
    have hrest := ih hinits.2
    exact ⟨hrest.1.trans hcall.1, hrest.2.trans hcall.2⟩

/-- A phase sees the root, which holds nothing, its own frame, and no region. -/
theorem Machine.Succeed.snapshot_withFrame {config : Config}
    (h : Succeed inits (Machine.new config) es m) (hinits : ∀ init ∈ inits, init.2.Proper)
    (name : String) :
    (m.withFrame name).snapshot = ⟨2, [(config.rootName, []), (name, [])], []⟩ := by
  obtain ⟨hstack, hregions⟩ := h.sameScopes hinits
  have hframes : (m.withFrame name).stack = (Machine.new config).stack.push name :=
    congrArg (·.push name) hstack
  have hnone : (m.withFrame name).regions = [] := hregions
  rw [Machine.snapshot, hframes, hnone]
  rfl

end

/-! ## Numbers over all phases -/

/-- The numbers of the raises that are reported, in order. -/
def raiseNumbers (es : List Event) : List Nat :=
  (es.filterMap Event.raise?).map (·.1)

/-- All raises and regions so far are reported in `es`, and they are numbered through. -/
structure Machine.CountedBy (m : Machine) (es : List Event) : Prop where
  raises : raiseNumbers es = List.range' 1 m.raises
  regions : regionsEntered es = List.range' 1 m.entered

theorem map_fst_numbered (k : Nat) (raises : List Raise) :
    (numbered k raises).map (·.1) = List.range' (k + 1) raises.length := by
  induction raises generalizing k with
  | nil => rfl
  | cons r rest ih =>
    have hcons := numbered_append k [r] rest
    rw [List.singleton_append] at hcons
    rw [hcons, List.map_append, ih]
    rfl

theorem Machine.CountedBy.of_custody {config : Config} {s : Step (Except Failure α)} {L : Ledger}
    (h : Custody (Machine.new config) s {} L) (hclosed : Closed 0 s.machine.entered s.events) :
    s.machine.CountedBy s.events := by
  have hstart := Ledger.Accounts.new config
  obtain ⟨new, hraises, hevents⟩ := h.raised hstart
  refine ⟨?_, hclosed.entered⟩
  rw [raiseNumbers, hevents, map_fst_numbered, (h.accounts hstart).raises, hraises]
  rfl

section

variable {inits : List (String × Action α)} {m m' : Machine} {es : List Event} {L : Ledger}

theorem Machine.Succeed.custody (h : Succeed inits m es m')
    (hinits : ∀ init ∈ inits, init.2.Proper) (hkept : ∀ entry ∈ m.kept, L.Holds entry.2) :
    ∃ L', Custody m (⟨es, .ok (), m'⟩ : Step (Except Failure Unit)) L L' := by
  induction h generalizing L with
  | nil => exact ⟨L, .done ()⟩
  | @cons name body _ m m' es _ _ _ ih =>
    rw [List.forall_mem_cons] at hinits
    obtain ⟨L₁, hcall⟩ := hinits.1.honest.call name m L hkept (List.forall_mem_nil _)
    obtain ⟨L₂, hrest⟩ := ih hinits.2 (hcall.kept_held hkept)
    have hall : Custody m ((m.call name body).andThen fun _ _ =>
        (⟨es, .ok (), m'⟩ : Step (Except Failure Unit))) L L₂ := .andThen hcall hrest
    exact ⟨L₂, hall⟩

theorem Action.Proper.closed_call {body : Action α} (h : body.Proper) (hm : m.Plain)
    (name : String) :
    Closed m.entered (m.call name body).machine.entered (m.call name body).events ∧
      (m.call name body).machine.Plain := by
  obtain ⟨_, r, rfl⟩ := h.routine
  exact ⟨(Routine.call name r).closed_run .empty hm, (Routine.call name r).run_plain .empty hm⟩

theorem Machine.Succeed.closed (h : Succeed inits m es m')
    (hinits : ∀ init ∈ inits, init.2.Proper) (hm : m.Plain) :
    Closed m.entered m'.entered es ∧ m'.Plain := by
  induction h with
  | nil => exact ⟨.of_others (List.forall_mem_nil _), hm⟩
  | @cons name _ _ _ _ _ _ _ _ ih =>
    rw [List.forall_mem_cons] at hinits
    obtain ⟨hcall, hplain⟩ := hinits.1.closed_call hm name
    obtain ⟨hrest, hplain⟩ := ih hinits.2 hplain
    exact ⟨hcall.append hrest, hplain⟩

theorem Machine.Succeed.countedBy {config : Config} (h : Succeed inits (Machine.new config) es m)
    (hinits : ∀ init ∈ inits, init.2.Proper) : m.CountedBy es := by
  obtain ⟨L, hcustody⟩ : ∃ L, Custody (Machine.new config) _ {} L :=
    h.custody hinits (List.forall_mem_nil _)
  exact .of_custody hcustody (h.closed hinits (.new config)).1

/-- The last phase of a startup, with what may be announced of it. -/
theorem countedBy_phase {config : Config} {name : String} {body : Action β} {said : List Event}
    (h : Succeed inits (Machine.new config) es m) (hinits : ∀ init ∈ inits, init.2.Proper)
    (hbody : body.Proper)
    (hsaid : said = [] ∨ ∃ f t, said = [.trace t] ∧ (m.call name body).result = .error f ∧
      (t = .uncaught f.id name f.payload ∨ t = .uncaughtInit f.id name f.payload)) :
    (m.call name body).machine.CountedBy (es ++ ((m.call name body).events ++ said)) := by
  obtain ⟨hclosed, hplain⟩ := h.closed hinits (.new config)
  have hcall := (hbody.closed_call hplain name).1
  obtain ⟨L₁, hcustody⟩ : ∃ L₁, Custody (Machine.new config) _ {} L₁ :=
    h.custody hinits (List.forall_mem_nil _)
  obtain ⟨L₂, hcustody'⟩ := hbody.honest.call name m L₁
    (hcustody.kept_held (List.forall_mem_nil _)) (List.forall_mem_nil _)
  -- As one run with one ledger: the phases before, this phase, and the announcement.
  let first : Step (Except Failure Unit) := ⟨es, .ok (), m⟩
  let last : Step (Except Failure Unit) := ⟨said, .ok (), (m.call name body).machine⟩
  have hend : Custody (m.call name body).machine last L₂ L₂ ∧
      ∀ e ∈ said, e.isBracket = false := by
    rcases hsaid with rfl | ⟨f, t, rfl, hf, ht⟩
    · exact ⟨.done (), List.forall_mem_nil _⟩
    · refine ⟨.announce () (hcustody'.result_held hf) ht, List.forall_mem_singleton.2 ?_⟩
      rcases ht with rfl | rfl <;> rfl
  have hall : Custody (Machine.new config)
      (first.andThen fun _ _ => (m.call name body).andThen fun _ _ => last) {} L₂ :=
    .andThen hcustody (.andThen hcustody' hend.1)
  exact .of_custody hall (hclosed.append (hcall.append (.of_others hend.2)))

end

/-- A startup numbers its raises and regions through, over all of its phases. -/
theorem StartupCourse.countedBy {inits : List (String × Action α)} {main : Action β}
    {config : Config} {entry : String} {s : Step (Except Fatal β)}
    (h : StartupCourse inits entry main (Machine.new config) s)
    (hinits : ∀ init ∈ inits, init.2.Proper) (hmain : main.Proper) :
    s.machine.CountedBy s.events := by
  cases h with
  | @completed es m _ h _ =>
    have hall : (m.call entry main).machine.CountedBy (es ++ ((m.call entry main).events ++ [])) :=
      countedBy_phase h hinits hmain (.inl rfl)
    rwa [List.append_nil] at hall
  | init hsplit h hf =>
    subst hsplit
    rw [List.forall_mem_append, List.forall_mem_cons] at hinits
    exact countedBy_phase h hinits.1 hinits.2.1 (.inr ⟨_, _, rfl, hf, .inr rfl⟩)
  | uncaught h hf => exact countedBy_phase h hinits hmain (.inr ⟨_, _, rfl, hf, .inl rfl⟩)

/-! ## Startups -/

namespace Startup

/-- The initializers as actions. -/
def initActions (p : Startup) : List (String × Action Ended) :=
  p.inits.map fun init => (init.1, phase init.2)

theorem phase_proper (body : List Stmt) : (phase body).Proper :=
  ⟨phase_honest body, .blind, phaseRoutine body, run_phaseRoutine body .empty⟩

theorem initActions_proper (p : Startup) : ∀ init ∈ p.initActions, init.2.Proper :=
  List.forall_mem_map.2 fun init _ => phase_proper init.2

end Startup

/-- A startup runs its initializers in order and then its entry point, and the first failure ends
it.

It ends with a value just if all initializers and the entry point succeed. If an initializer fails,
the result is its name and its failure, and no later phase reports anything; if only the entry point
fails, the failure is uncaught there. Whatever ran before, a phase starts with two frames, the root
and its own, which hold nothing, and with no active region; but the numbers of raises and regions go
on from one phase to the next. -/
theorem startup_stops_at_first_failure :
    (∀ {α β : Type} (config : Config) (inits : List (String × Action α)) (entry : String)
      (main : Action β), (∀ init ∈ inits, init.2.Proper) → main.Proper →
      let start := Machine.new config
      let s := start.startup inits entry main
      (∀ v, s.result = .ok v ↔
        ∃ es m, Succeed inits start es m ∧ (m.call entry main).result = .ok v ∧
          s.events = es ++ (m.call entry main).events) ∧
      (∀ name f, s.result = .error (.init name f) ↔
        ∃ before body after es m, inits = before ++ (name, body) :: after ∧
          Succeed before start es m ∧ (m.call name body).result = .error f ∧
          s.events = es ++
            ((m.call name body).events ++ [.trace (.uncaughtInit f.id name f.payload)])) ∧
      (∀ name f, s.result = .error (.uncaught name f) ↔
        name = entry ∧ ∃ es m, Succeed inits start es m ∧ (m.call entry main).result = .error f ∧
          s.events = es ++
            ((m.call entry main).events ++ [.trace (.uncaught f.id entry f.payload)])) ∧
      (∀ before after es m, inits = before ++ after → Succeed before start es m →
        (∀ name, (m.withFrame name).snapshot =
          ⟨2, [(config.rootName, []), (name, [])], []⟩) ∧ m.CountedBy es) ∧
      s.machine.CountedBy s.events) ∧
    ∀ p : Startup, (∀ init ∈ p.initActions, init.2.Proper) ∧ (Startup.phase p.body).Proper ∧
      p.run = (Machine.new p.config).startup p.initActions p.entry (Startup.phase p.body) := by
  refine ⟨fun config inits entry main hinits hmain => ?_, fun p =>
    ⟨p.initActions_proper, Startup.phase_proper p.body, rfl⟩⟩
  intro start s
  refine ⟨fun v => startup_ok_iff, fun name f => startup_init_iff,
    fun name f => startup_uncaught_iff, fun before after es m hsplit h => ?_,
    (startupCourse inits entry main start).countedBy hinits hmain⟩
  subst hsplit
  have hbefore := (List.forall_mem_append.1 hinits).1
  exact ⟨h.snapshot_withFrame hbefore, h.countedBy hbefore⟩

/-- The first initializer defers something and deals with a failure, the second one sends on what it
has caught, and the third one is not run. -/
def rethrowingStartup : Startup where
  config := {}
  inits := [("a", [.defer "x", .guard [.raise (.int 1)] [(.any, [.defer "y"])]]),
    ("b", [.guard [.defer "z", .raise (.int 2)] [(.any, [.rethrow 0])]]), ("c", [.raise (.int 3)])]
  entry := "main"
  body := [.note "never"]

theorem startup_stops_at_first_failure_rethrowing :
    let p := rethrowingStartup
    (∀ init ∈ p.initActions, init.2.Proper) ∧ (Startup.phase p.body).Proper ∧
      ∃ (f : Failure) (es : List Event) (m : Machine),
        p.run.result = .error (.init "b" f) ∧ m.CountedBy es ∧
        (m.withFrame "b").snapshot = ⟨2, [("<root>", []), ("b", [])], []⟩ ∧
        p.run.machine.CountedBy p.run.events := by
  intro p
  obtain ⟨hgeneral, hstartup⟩ := startup_stops_at_first_failure
  obtain ⟨hinits, hmain, hrun⟩ := hstartup p
  obtain ⟨-, hinit, -, hstart, hcounted⟩ := hgeneral p.config p.initActions p.entry _ hinits hmain
  rw [← hrun] at hinit hcounted
  obtain ⟨f, hf⟩ : ∃ f, p.run.result = .error (.init "b" f) := ⟨_, rfl⟩
  obtain ⟨before, body, after, es, m, hsplit, hsucceed, -⟩ := (hinit "b" f).1 hf
  obtain ⟨hsnapshot, hes⟩ := hstart before _ es m hsplit hsucceed
  exact ⟨hinits, hmain, f, es, m, hf, hes, hsnapshot "b", hcounted⟩

end Unwind
