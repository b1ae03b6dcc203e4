import Unwind.Proofs.Scopes

/-!
# Custody of failures

A program gets hold of a failure only by raising it, or when a scope or a clause hands it on.
`Custody m s before after` says that the step `s` from the machine `m` is the run of such a program:
`before` and `after` are ledgers, which list the raises that were performed and all failures that
were handed to the program, each with the raise that it descends from. Whatever the program fails
with, shows in a report, keeps or sends on is in the ledger by then.

The descent in a ledger is a matter of who handed what to whom, and not of numbers. That the numbers
agree with it is `Custody.accounts`.
-/

namespace Unwind

variable {α β : Type}

/-- A raise that was performed: what was raised and in which function. -/
structure Raise where
  payload : Payload
  function : String
  deriving DecidableEq

structure Ledger where
  /-- The raises so far, in order. -/
  raises : List Raise := []
  /-- The failures handed to the program, each with the position of the raise it descends from. -/
  held : List (Nat × Failure) := []

/-- The failures that a note shows. -/
def Note.failures : Note → List Failure
  | .clause start => [start.failure]
  | .failed f | .minted f => [f]
  | _ => []

/-- The number of the failure that a trace is about. -/
def Trace.failureId? : Trace → Option Nat
  | .raise id _ _ | .unwound id _ _ | .caught id _ _ _ | .noClause id _ _ | .rethrow id _ _
  | .uncaught id _ _ | .uncaughtInit id _ _ => some id
  | _ => none

/-- The number and the circumstances of a reported raise. -/
def Event.raise? : Event → Option (Nat × Raise)
  | .trace (.raise id p function) => some (id, ⟨p, function⟩)
  | _ => none

namespace Ledger

variable (L : Ledger)

def Holds (f : Failure) : Prop :=
  ∃ n, (n, f) ∈ L.held

/-- A failure that descends from raise `n` is handed to the program. -/
def hand (n : Nat) (f : Failure) : Ledger :=
  { L with held := (n, f) :: L.held }

/-- A raise is performed, and the program gets the new failure. -/
def enter (r : Raise) (f : Failure) : Ledger :=
  { raises := L.raises ++ [r], held := (L.raises.length, f) :: L.held }

/-- The raise that has a number. -/
def raise? : Nat → Option Raise
  | 0 => none
  | n + 1 => L.raises[n]?

/-- What a program may report by itself: nothing about failures but those that it holds. -/
def MayReport : Event → Prop
  | .note n => ∀ f ∈ n.failures, L.Holds f
  | .trace t => t.failureId? = none

/-- A failure inside a scope becomes a failure outside of it, of the same descent. -/
inductive PassesOn : Except Failure α → Except Failure β → Ledger → Prop where
  | value (a : α) (b : β) : PassesOn (.ok a) (.ok b) L
  | failure {n : Nat} {f f' : Failure} :
    (n, f) ∈ L.held → PassesOn (.error f) (.error f') (L.hand n f')

end Ledger

/-- The step `s` from `m` is a run of a program that keeps to its ledger. -/
inductive Custody : {α : Type} → Machine → Step (Except Failure α) → Ledger → Ledger → Prop where
  | done {α : Type} {m : Machine} {L : Ledger} (a : α) : Custody m (Action.done a m) L L
  | fail {α : Type} {m : Machine} {L : Ledger} {f : Failure} :
    L.Holds f → Custody m (Action.fail f m : Step (Except Failure α)) L L
  | report {α : Type} {m : Machine} {L : Ledger} {events : List Event} (a : α) :
    (∀ e ∈ events, L.MayReport e) → Custody m (Action.report events a m) L L
  /-- An entry point or an initializer reports the failure that has escaped it. -/
  | announce {α : Type} {m : Machine} {L : Ledger} {f : Failure} {name : String} {t : Trace}
    (a : α) : L.Holds f →
    t = .uncaught f.id name f.payload ∨ t = .uncaughtInit f.id name f.payload →
    Custody m (Action.report [.trace t] a m) L L
  | remember {α : Type} {m : Machine} {L : Ledger} {kept : List (String × Failure)} (a : α) :
    (∀ entry ∈ kept, L.Holds entry.2) → Custody m ⟨[], .ok a, { m with kept }⟩ L L
  | mint {α : Type} {m : Machine} {L L' : Ledger} {p : Payload} {next : Failure → Action α} :
    Custody (m.mint p).machine (next (m.mint p).result (m.mint p).machine)
      (L.enter ⟨p, m.stack.topName⟩ (m.mint p).result) L' →
    Custody m ((m.mint p).andThen next) L L'
  | defer {α : Type} {m : Machine} {L : Ledger} {resource : Resource} (a : α) :
    (∀ e ∈ resource.onRelease, L.MayReport e) → Custody m (m.defer resource a) L L
  | andThen {α β : Type} {m : Machine} {L L₁ L₂ : Ledger} {s : Step (Except Failure α)}
    {next : Except Failure α → Action β} :
    Custody m s L L₁ → Custody s.machine (next s.result s.machine) L₁ L₂ →
    Custody m (s.andThen next) L L₂
  | call {α : Type} {m : Machine} {L L₁ L₂ : Ledger} {name : String} {body : Action α} :
    Custody (m.withFrame name) (body (m.withFrame name)) L L₁ →
    L₁.PassesOn (body (m.withFrame name)).result (m.call name body).result L₂ →
    Custody m (m.call name body) L L₂
  | region {α β : Type} {m : Machine} {L L₁ L₂ L₃ : Ledger} {body : Action α}
    {next : Nat × Except Failure α → Action β} :
    Custody m.withRegion (body m.withRegion) L L₁ →
    L₁.PassesOn (body m.withRegion).result (m.enterRegion body).result.2 L₂ →
    Custody (m.enterRegion body).machine
      (next (m.enterRegion body).result (m.enterRegion body).machine) L₂ L₃ →
    Custody m ((m.enterRegion body).andThen next) L L₃
  /-- A failure is offered to clauses of which none takes it. -/
  | pass {α : Type} {m : Machine} {L L' : Ledger} {region i : Nat} {f : Failure}
    {clauses : List (Clause α)} :
    clauses.find? (·.selector.accepts f.kind) = none →
    L.PassesOn (.error f : Except Failure α) (Machine.offer region f i clauses m).result L' →
    Custody m (Machine.offer region f i clauses m) L L'
  /-- A failure is offered to clauses, and the first that takes it gets it. -/
  | take {α : Type} {m : Machine} {L L' : Ledger} {region i : Nat} {f : Failure}
    {clauses : List (Clause α)} {c : Clause α} :
    L.Holds f → clauses.find? (·.selector.accepts f.kind) = some c →
    Custody m (c.run ⟨f, region⟩ m) L L' → Custody m (Machine.offer region f i clauses m) L L'
  | rethrow {α : Type} {m : Machine} {L L' : Ledger} {h : Handled} :
    L.PassesOn (.error h.failure : Except Failure α) (h.rethrow m : Step (Except Failure α)).result
      L' →
    Custody m (h.rethrow m : Step (Except Failure α)) L L'

/-- A call, with the way its frame is left. -/
theorem Machine.call_eq_popTo (m : Machine) (name : String) (body : Action α) :
    m.call name body =
      let s := body (m.withFrame name)
      let t := s.machine.stack.popTo m.stack.depth
      { events := .trace (.enter name m.stack.depth) :: s.events ++
          t.released.flatMap Release.events ++ leaving name t.count (failureId? s.result)
        result := s.result.mapError (·.record (.unwound name t.count))
        machine := { s.machine with stack := t.stack } } := by
  unfold call
  cases hr : (body (m.withFrame name)).result with
  | ok a =>
    simp only [hr, leaving, failureId?, List.append_nil]
    rfl
  | error f =>
    simp only [hr, leaving, failureId?]
    rfl

/-! ## Growing ledgers -/

namespace Ledger

variable {L L' L'' : Ledger} {f : Failure}

/-- Nothing is ever struck from a ledger. -/
structure Extends (L L' : Ledger) : Prop where
  raises : ∃ new, L'.raises = L.raises ++ new
  held : L.held ⊆ L'.held

namespace Extends

theorem refl (L : Ledger) : L.Extends L :=
  ⟨⟨[], (List.append_nil _).symm⟩, List.Subset.refl _⟩

theorem trans (h : L.Extends L') (h' : L'.Extends L'') : L.Extends L'' := by
  obtain ⟨new, hr⟩ := h.raises
  obtain ⟨new', hr'⟩ := h'.raises
  refine ⟨⟨new ++ new', ?_⟩, List.Subset.trans h.held h'.held⟩
  rw [hr', hr, List.append_assoc]

theorem hand (L : Ledger) (n : Nat) (f : Failure) : L.Extends (L.hand n f) :=
  ⟨⟨[], (List.append_nil _).symm⟩, List.subset_cons_self _ _⟩

theorem enter (L : Ledger) (r : Raise) (f : Failure) : L.Extends (L.enter r f) :=
  ⟨⟨[r], rfl⟩, List.subset_cons_self _ _⟩

theorem holds (h : L.Extends L') (hf : L.Holds f) : L'.Holds f := by
  obtain ⟨n, hn⟩ := hf
  exact ⟨n, h.held hn⟩

theorem getElem? (h : L.Extends L') {n : Nat} {r : Raise} (hr : L.raises[n]? = some r) :
    L'.raises[n]? = some r := by
  obtain ⟨new, hnew⟩ := h.raises
  obtain ⟨hlt, -⟩ := List.getElem?_eq_some_iff.1 hr
  rw [hnew, List.getElem?_append_left hlt, hr]

theorem mayReport (h : L.Extends L') {e : Event} (he : L.MayReport e) : L'.MayReport e := by
  cases e with
  | note n => exact fun f hf => h.holds (he f hf)
  | trace t => exact he

end Extends

theorem PassesOn.ledger_extends {r : Except Failure α} {r' : Except Failure β}
    (h : L.PassesOn r r' L') : L.Extends L' := by
  cases h with
  | value => exact .refl L
  | failure => exact .hand L _ _

theorem PassesOn.holds {r : Except Failure α} (h : L.PassesOn r (.error f : Except Failure β) L') :
    L'.Holds f := by
  cases h with
  | failure => exact ⟨_, List.mem_cons_self⟩

theorem PassesOn.holds_inside {r' : Except Failure β}
    (h : L.PassesOn (.error f : Except Failure α) r' L') : L.Holds f := by
  cases h with
  | failure hf => exact ⟨_, hf⟩

theorem PassesOn.raises_eq {r : Except Failure α} {r' : Except Failure β}
    (h : L.PassesOn r r' L') : L'.raises = L.raises := by
  cases h <;> rfl

/-- Both results are values, or both are failures and the one inside is held. -/
theorem PassesOn.exists_of_mapError {r : Except Failure α} (change : Failure → Failure)
    (h : ∀ f, r = .error f → L.Holds f) : ∃ L', L.PassesOn r (r.mapError change) L' := by
  cases r with
  | ok a => exact ⟨L, .value a a⟩
  | error f =>
    obtain ⟨n, hn⟩ := h f rfl
    exact ⟨_, .failure hn⟩

end Ledger

namespace Custody

variable {m : Machine} {s : Step (Except Failure α)} {L L' : Ledger}

theorem ledger_extends (h : Custody m s L L') : L.Extends L' := by
  induction h with
  | done | fail | report | announce | remember | defer => exact .refl _
  | mint _ ih => exact (Ledger.Extends.enter _ _ _).trans ih
  | andThen _ _ ih ih' => exact ih.trans ih'
  | call _ hp ih => exact ih.trans hp.ledger_extends
  | region _ hp _ ih ih' => exact (ih.trans hp.ledger_extends).trans ih'
  | pass _ hp | rethrow hp => exact hp.ledger_extends
  | take _ _ _ ih => exact ih

/-- What a run fails with is in the ledger. -/
theorem result_held (h : Custody m s L L') {f : Failure} (hf : s.result = .error f) :
    L'.Holds f := by
  induction h with
  | done | report | announce | remember | defer => cases hf
  | fail hheld =>
    cases hf
    exact hheld
  | mint _ ih | andThen _ _ _ ih | region _ _ _ _ ih => exact ih hf
  | call _ hp | pass _ hp | rethrow hp =>
    rw [hf] at hp
    exact hp.holds
  | take _ hc _ ih =>
    rw [Machine.offer_of_first hc] at hf
    exact ih hf

theorem kept_held (h : Custody m s L L') (hm : ∀ entry ∈ m.kept, L.Holds entry.2) :
    ∀ entry ∈ s.machine.kept, L'.Holds entry.2 := by
  induction h with
  | done | fail | report | announce | defer => exact hm
  | remember _ hkept => exact hkept
  | mint _ ih => exact ih fun entry he => (Ledger.Extends.enter _ _ _).holds (hm entry he)
  | andThen _ _ ih ih' => exact ih' (ih hm)
  | call _ hp ih =>
    intro entry he
    rw [Machine.call_eq_popTo] at he
    exact hp.ledger_extends.holds (ih hm entry he)
  | region _ hp _ ih ih' => exact ih' fun entry he => hp.ledger_extends.holds (ih hm entry he)
  | pass hnone hp =>
    intro entry he
    rw [Machine.offer_of_none hnone] at he
    exact hp.ledger_extends.holds (hm entry he)
  | rethrow hp => exact fun entry he => hp.ledger_extends.holds (hm entry he)
  | take _ hc _ ih =>
    rw [Machine.offer_of_first hc]
    exact ih hm

end Custody

/-! ## The numbers agree with the ledger -/

/-- Two failures that differ at most in their trails. -/
def Failure.SameRaise (f f' : Failure) : Prop :=
  f'.id = f.id ∧ f'.payload = f.payload ∧ f'.origin = f.origin

theorem Failure.sameRaise_record (f : Failure) (hop : Hop) : f.SameRaise (f.record hop) := by
  unfold record
  split <;> exact ⟨rfl, rfl, rfl⟩

namespace Ledger

variable {L L' : Ledger} {m m' : Machine}

/-- A failure has the number of the raise that it descends from, and what was raised there. Reports
of a release are such as the program may make. -/
structure Accounts (L : Ledger) (m : Machine) : Prop where
  raises : m.raises = L.raises.length
  genuine : ∀ n f, (n, f) ∈ L.held → f.id = n + 1 ∧ L.raises[n]? = some ⟨f.payload, f.origin⟩
  resources : ∀ r ∈ m.stack.resources, ∀ e ∈ r.onRelease, L.MayReport e

namespace Accounts

theorem new (config : Config) : Accounts {} (Machine.new config) :=
  ⟨rfl, fun _ _ h => absurd h List.not_mem_nil, fun _ h => absurd h List.not_mem_nil⟩

/-- Only the number of raises and the held resources of a machine matter. -/
theorem of_subset (h : L.Accounts m) (hraises : m'.raises = m.raises)
    (hsub : m'.stack.resources ⊆ m.stack.resources) : L.Accounts m' :=
  ⟨hraises.trans h.raises, h.genuine, fun r hr => h.resources r (hsub hr)⟩

theorem withFrame (h : L.Accounts m) (name : String) : L.Accounts (m.withFrame name) :=
  h.of_subset rfl (List.Subset.refl _)

theorem withRegion (h : L.Accounts m) : L.Accounts m.withRegion :=
  h.of_subset rfl (List.Subset.refl _)

theorem raise?_of_holds (h : L.Accounts m) {f : Failure} (hf : L.Holds f) :
    L.raise? f.id = some ⟨f.payload, f.origin⟩ := by
  obtain ⟨n, hn⟩ := hf
  obtain ⟨hid, hr⟩ := h.genuine n f hn
  rw [hid]
  exact hr

theorem mint (h : L.Accounts m) (p : Payload) :
    (L.enter ⟨p, m.stack.topName⟩ (m.mint p).result).Accounts (m.mint p).machine := by
  refine ⟨?_, fun n f hf => ?_, fun r hr e he => ?_⟩
  · change m.raises + 1 = (L.raises ++ [_]).length
    rw [List.length_append, h.raises]
    rfl
  · rcases List.mem_cons.1 hf with heq | hf
    · cases heq
      refine ⟨congrArg (· + 1) h.raises, ?_⟩
      change (L.raises ++ [_])[L.raises.length]? = _
      rw [List.getElem?_append_right (Nat.le_refl _), Nat.sub_self]
      rfl
    · obtain ⟨hid, hr⟩ := h.genuine n f hf
      exact ⟨hid, (Extends.enter L _ _).getElem? hr⟩
  · exact (Extends.enter L _ _).mayReport (h.resources r hr e he)

theorem defer (h : L.Accounts m) {resource : Resource}
    (hr : ∀ e ∈ resource.onRelease, L.MayReport e) (a : α) :
    L.Accounts (m.defer resource a).machine := by
  refine ⟨h.raises, h.genuine, fun r hmem => ?_⟩
  have hcons : (m.defer resource a).machine.stack.resources = resource :: m.stack.resources := rfl
  rw [hcons, List.mem_cons] at hmem
  rcases hmem with rfl | hmem
  · exact hr
  · exact h.resources r hmem

theorem passOn {r : Except Failure α} {r' : Except Failure β} (h : L.Accounts m)
    (hp : L.PassesOn r r' L') (hsame : ∀ f f', r = .error f → r' = .error f' → f.SameRaise f') :
    L'.Accounts m := by
  cases hp with
  | value => exact h
  | @failure n f f' hf =>
    refine ⟨h.raises, fun n' g hg => ?_, fun r hr e he => ?_⟩
    · rcases List.mem_cons.1 hg with heq | hg
      · cases heq
        obtain ⟨hid, hpayload, horigin⟩ := hsame f f' rfl rfl
        rw [hid, hpayload, horigin]
        exact h.genuine n f hf
      · exact h.genuine n' g hg
    · exact (Extends.hand L n f').mayReport (h.resources r hr e he)

theorem call {name : String} {body : Action α} (h : L.Accounts (body (m.withFrame name)).machine)
    (hp : L.PassesOn (body (m.withFrame name)).result (m.call name body).result L') :
    L'.Accounts (m.call name body).machine := by
  rw [Machine.call_eq_popTo] at hp ⊢
  refine Accounts.of_subset (h.passOn hp ?_) rfl ?_
  · intro f f' hf hf'
    dsimp only at hf'
    rw [hf] at hf'
    cases hf'
    exact f.sameRaise_record _
  · intro r hr
    rw [← CallStack.popTo_resources _ m.stack.depth]
    exact List.mem_append_right _ hr

theorem enterRegion {body : Action α} (h : L.Accounts (body m.withRegion).machine)
    (hp : L.PassesOn (body m.withRegion).result (m.enterRegion body).result.2 L') :
    L'.Accounts (m.enterRegion body).machine := by
  refine Accounts.of_subset (h.passOn hp ?_) rfl ?_
  · intro f f' hf hf'
    simp only [Machine.enterRegion, hf] at hf'
    cases hf'
    split
    · exact ⟨rfl, rfl, rfl⟩
    · exact f.sameRaise_record _
  · intro r hr
    rw [← CallStack.returnTo_resources _ m.stack.mark]
    exact List.mem_append_right _ hr

end Accounts

end Ledger

/-- Along a run the ledger accounts for every failure in it. -/
theorem Custody.accounts {m : Machine} {s : Step (Except Failure α)} {L L' : Ledger}
    (h : Custody m s L L') (hL : L.Accounts m) : L'.Accounts s.machine := by
  induction h with
  | done | fail | report | announce => exact hL
  | remember => exact hL.of_subset rfl (List.Subset.refl _)
  | mint _ ih => exact ih (hL.mint _)
  | defer _ hr => exact hL.defer hr _
  | andThen _ _ ih ih' => exact ih' (ih hL)
  | call _ hp ih => exact (ih (hL.withFrame _)).call hp
  | region _ hp _ ih ih' => exact ih' ((ih hL.withRegion).enterRegion hp)
  | @pass α m L L' region i f clauses hnone hp =>
    rw [Machine.offer_of_none hnone] at hp ⊢
    refine hL.passOn hp fun f₁ f' hf hf' => ?_
    cases hf
    cases hf'
    exact f.sameRaise_record _
  | @rethrow α m L L' handled hp =>
    refine hL.passOn hp fun f₁ f' hf hf' => ?_
    cases hf
    cases hf'
    exact handled.failure.sameRaise_record _
  | take _ hc _ ih =>
    rw [Machine.offer_of_first hc]
    exact ih hL

/-! ## What is reported -/

namespace Ledger

variable {L L' : Ledger} {m : Machine}

/-- A report agrees with the ledger: what it says of the failure with some number was so when that
failure was raised, a clause takes only payloads of its own kind, and failures that are shown are in
the ledger. -/
def Explains (L : Ledger) : Event → Prop
  | .trace (.raise id p function) => L.raise? id = some ⟨p, function⟩
  | .trace (.rethrow id _ p) | .trace (.uncaught id _ p) | .trace (.uncaughtInit id _ p) =>
    ∃ function, L.raise? id = some ⟨p, function⟩
  | .trace (.caught id _ _ selector) => ∃ r, L.raise? id = some r ∧ selector.accepts r.payload.kind
  | .trace (.unwound id _ _) | .trace (.noClause id _ _) => ∃ r, L.raise? id = some r
  | .trace _ => True
  | .note n => ∀ f ∈ n.failures, L.Holds f

theorem Extends.raise? (h : L.Extends L') {id : Nat} {r : Raise} (hr : L.raise? id = some r) :
    L'.raise? id = some r := by
  cases id with
  | zero => cases hr
  | succ n => exact h.getElem? hr

theorem Extends.explains (h : L.Extends L') {e : Event} (he : L.Explains e) : L'.Explains e := by
  cases e with
  | note n => exact fun f hf => h.holds (he f hf)
  | trace t =>
    cases t with
    | raise => exact h.raise? he
    | rethrow | uncaught | uncaughtInit | unwound | noClause =>
      obtain ⟨r, hr⟩ := he
      exact ⟨r, h.raise? hr⟩
    | caught =>
      obtain ⟨r, hr, haccepts⟩ := he
      exact ⟨r, h.raise? hr, haccepts⟩
    | _ => trivial

/-- A report that agrees with the ledger and is not of a raise. -/
def Quiet (L : Ledger) (e : Event) : Prop :=
  L.Explains e ∧ e.raise? = none

theorem quiet_of_mayReport {e : Event} (h : L.MayReport e) : L.Quiet e := by
  cases e with
  | note n => exact ⟨h, rfl⟩
  | trace t =>
    cases t with
    | raise | unwound | caught | noClause | rethrow | uncaught | uncaughtInit => contradiction
    | _ => exact ⟨trivial, rfl⟩

theorem quiet_release {released : List (Release Resource)}
    (h : ∀ r ∈ released.map (·.resource), ∀ e ∈ r.onRelease, L.MayReport e) :
    ∀ e ∈ released.flatMap Release.events, L.Quiet e := by
  intro e he
  obtain ⟨r, hr, he⟩ := List.mem_flatMap.1 he
  rcases List.mem_cons.1 he with rfl | he
  · exact ⟨trivial, rfl⟩
  · exact quiet_of_mayReport (h r.resource (List.mem_map_of_mem hr) e he)

theorem quiet_leaving {r : Except Failure α} (hL : L.Accounts m)
    (hr : ∀ f, r = .error f → L.Holds f) (name : String) (count : Nat) :
    ∀ e ∈ Machine.leaving name count (Machine.failureId? r), L.Quiet e := by
  cases r with
  | ok a => exact fun e he => absurd he List.not_mem_nil
  | error f =>
    intro e he
    rw [List.mem_singleton.1 he]
    exact ⟨⟨_, hL.raise?_of_holds (hr f rfl)⟩, rfl⟩

end Ledger

/-- Raises with their numbers, the first of them coming after `k` others. -/
def numbered (k : Nat) (raises : List Raise) : List (Nat × Raise) :=
  raises.mapIdx fun i r => (k + i + 1, r)

theorem numbered_append (k : Nat) (older newer : List Raise) :
    numbered k (older ++ newer) = numbered k older ++ numbered (k + older.length) newer := by
  simp [numbered, List.mapIdx_append, Nat.add_left_comm, Nat.add_comm]

namespace Custody

variable {m : Machine} {L L₁ L' : Ledger}

/-- A call adds only quiet reports to those of its body. -/
theorem call_events {name : String} {body : Action α}
    (h : Custody (m.withFrame name) (body (m.withFrame name)) L L₁)
    (hend : L₁.Accounts (body (m.withFrame name)).machine) :
    ∃ after, (m.call name body).events =
        .trace (.enter name m.stack.depth) :: (body (m.withFrame name)).events ++ after ∧
      ∀ e ∈ after, L₁.Quiet e := by
  rw [Machine.call_eq_popTo]
  refine ⟨_, List.append_assoc _ _ _, fun e he => ?_⟩
  rcases List.mem_append.1 he with he | he
  · refine Ledger.quiet_release (fun r hr => hend.resources r ?_) e he
    rw [← CallStack.popTo_resources _ m.stack.depth]
    exact List.mem_append_left _ hr
  · exact Ledger.quiet_leaving hend (fun f hf => h.result_held hf) _ _ e he

/-- So does a region. -/
theorem region_events {body : Action α} (hend : L₁.Accounts (body m.withRegion).machine) :
    ∃ after, (m.enterRegion body).events =
        .trace (.enterRegion (m.entered + 1) m.stack.topName) :: (body m.withRegion).events ++
          after ∧
      ∀ e ∈ after, L₁.Quiet e := by
  refine ⟨_, List.append_assoc _ _ _, fun e he => ?_⟩
  rcases List.mem_append.1 he with he | he
  · refine Ledger.quiet_release (fun r hr => hend.resources r ?_) e he
    rw [← CallStack.returnTo_resources _ m.stack.mark]
    exact List.mem_append_left _ hr
  · rw [List.mem_singleton.1 he]
    exact ⟨trivial, rfl⟩

/-- All reports of a run agree with the ledger in the end. -/
theorem explained {s : Step (Except Failure α)} (h : Custody m s L L') (hL : L.Accounts m) :
    ∀ e ∈ s.events, L'.Explains e := by
  induction h with
  | done | fail | remember => exact fun e he => absurd he List.not_mem_nil
  | report _ hevents => exact fun e he => (Ledger.quiet_of_mayReport (hevents e he)).1
  | announce _ hheld ht =>
    intro e he
    rw [List.mem_singleton.1 he]
    rcases ht with rfl | rfl <;> exact ⟨_, hL.raise?_of_holds hheld⟩
  | @mint _ _ _ _ p _ hrest ih =>
    intro e he
    rcases List.mem_cons.1 he with rfl | he
    · have hraise := (hL.mint p).raise?_of_holds ⟨_, List.mem_cons_self⟩
      exact hrest.ledger_extends.raise? hraise
    · exact ih (hL.mint p) e he
  | defer =>
    intro e he
    rw [List.mem_singleton.1 he]
    trivial
  | andThen hfirst hnext ih ih' =>
    intro e he
    rcases List.mem_append.1 he with he | he
    · exact hnext.ledger_extends.explains (ih hL e he)
    · exact ih' (hfirst.accounts hL) e he
  | @call _ _ _ _ _ name _ hbody hp ih =>
    obtain ⟨after, hevents, hquiet⟩ := hbody.call_events (hbody.accounts (hL.withFrame name))
    intro e he
    apply hp.ledger_extends.explains
    rw [hevents, List.mem_append, List.mem_cons] at he
    rcases he with (rfl | he) | he
    · trivial
    · exact ih (hL.withFrame name) e he
    · exact (hquiet e he).1
  | region hbody hp hnext ih ih' =>
    have hend := hbody.accounts hL.withRegion
    obtain ⟨after, hevents, hquiet⟩ := region_events hend
    intro e he
    rcases List.mem_append.1 he with he | he
    · apply (hp.ledger_extends.trans hnext.ledger_extends).explains
      rw [hevents, List.mem_append, List.mem_cons] at he
      rcases he with (rfl | he) | he
      · trivial
      · exact ih hL.withRegion e he
      · exact (hquiet e he).1
    · exact ih' (hend.enterRegion hp) e he
  | pass hnone hp =>
    intro e he
    rw [Machine.offer_of_none hnone] at he
    rw [List.mem_singleton.1 he]
    exact ⟨_, hp.ledger_extends.raise? (hL.raise?_of_holds hp.holds_inside)⟩
  | take hheld hc hrun ih =>
    intro e he
    rw [Machine.offer_of_first hc] at he
    rcases List.mem_cons.1 he with rfl | he
    · have haccepts := List.find?_some hc
      exact ⟨_, hrun.ledger_extends.raise? (hL.raise?_of_holds hheld), haccepts⟩
    · exact ih hL e he
  | rethrow hp =>
    intro e he
    rw [List.mem_singleton.1 he]
    exact ⟨_, hp.ledger_extends.raise? (hL.raise?_of_holds hp.holds_inside)⟩

private theorem filterMap_of_quiet {L : Ledger} {events : List Event}
    (h : ∀ e ∈ events, L.Quiet e) : events.filterMap Event.raise? = [] :=
  List.filterMap_eq_nil_iff.2 fun e he => (h e he).2

/-- The raises of a run are reported in order and numbered through. -/
theorem raised {s : Step (Except Failure α)} (h : Custody m s L L') (hL : L.Accounts m) :
    ∃ new, L'.raises = L.raises ++ new ∧
      s.events.filterMap Event.raise? = numbered L.raises.length new := by
  induction h with
  | done | fail | remember | defer => exact ⟨[], (List.append_nil _).symm, rfl⟩
  | report _ hevents =>
    refine ⟨[], (List.append_nil _).symm, ?_⟩
    exact filterMap_of_quiet fun e he => Ledger.quiet_of_mayReport (hevents e he)
  | announce _ _ ht =>
    refine ⟨[], (List.append_nil _).symm, ?_⟩
    rcases ht with rfl | rfl <;> rfl
  | @mint _ m L _ p _ _ ih =>
    obtain ⟨new, hraises, hevents⟩ := ih (hL.mint p)
    refine ⟨⟨p, m.stack.topName⟩ :: new, ?_, ?_⟩
    · rw [hraises]
      exact List.append_assoc _ [_] _
    · have hlen : (L.raises ++ [Raise.mk p m.stack.topName]).length = L.raises.length + 1 :=
        List.length_append
      have hfirst : (m.mint p).events.filterMap Event.raise? =
          numbered L.raises.length [⟨p, m.stack.topName⟩] := by
        rw [← hL.raises]
        rfl
      rw [Step.andThen, List.filterMap_append, hevents, hfirst, Ledger.enter, hlen]
      exact (numbered_append L.raises.length [_] new).symm
  | andThen hfirst _ ih ih' =>
    obtain ⟨new, hraises, hevents⟩ := ih hL
    obtain ⟨new', hraises', hevents'⟩ := ih' (hfirst.accounts hL)
    refine ⟨new ++ new', ?_, ?_⟩
    · rw [hraises', hraises, List.append_assoc]
    · rw [Step.andThen, List.filterMap_append, hevents, hevents', hraises, List.length_append,
        numbered_append]
  | @call _ _ _ _ _ name _ hbody hp ih =>
    obtain ⟨after, hcall, hquiet⟩ := hbody.call_events (hbody.accounts (hL.withFrame name))
    obtain ⟨new, hraises, hevents⟩ := ih (hL.withFrame name)
    refine ⟨new, hp.raises_eq.trans hraises, ?_⟩
    rw [hcall, List.filterMap_append, filterMap_of_quiet hquiet, List.append_nil]
    exact hevents
  | region hbody hp _ ih ih' =>
    have hend := hbody.accounts hL.withRegion
    obtain ⟨after, hregion, hquiet⟩ := region_events hend
    obtain ⟨new, hraises, hevents⟩ := ih hL.withRegion
    obtain ⟨new', hraises', hevents'⟩ := ih' (hend.enterRegion hp)
    refine ⟨new ++ new', ?_, ?_⟩
    · rw [hraises', hp.raises_eq, hraises, List.append_assoc]
    · rw [Step.andThen, List.filterMap_append, hevents', hregion, List.filterMap_append,
        filterMap_of_quiet hquiet, List.append_nil, hp.raises_eq, hraises, List.length_append,
        numbered_append, ← hevents]
      rfl
  | pass hnone hp =>
    refine ⟨[], hp.raises_eq.trans (List.append_nil _).symm, ?_⟩
    rw [Machine.offer_of_none hnone]
    rfl
  | take _ hc _ ih =>
    rw [Machine.offer_of_first hc]
    exact ih hL
  | rethrow hp => exact ⟨[], hp.raises_eq.trans (List.append_nil _).symm, rfl⟩

end Custody

end Unwind
