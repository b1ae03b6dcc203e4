import Unwind.Proofs.Scopes

/-!
# Histories of runs

`Action.History act m h` says what happens when a built action runs on a machine, scope by scope: a
call or the body of a region is one happening with everything inside it, and a clause belongs to the
scope around its region. A history says nothing of releases. They follow from it: `deedsOf` lists
all that is done in the order of time, where at the end of every scope the resources deferred in it,
and not in a scope further in, are released. `History.events_eq` says that this is what the machine
reports.
-/

namespace Unwind

variable {α : Type}

/-- Something that happens in a run. -/
inductive Happening where
  /-- A function defers a resource. -/
  | deferred (held : Release Resource)
  | reported (events : List Event)
  /-- A call, and the number of the failure that left it, if one did. -/
  | call (name : String) (depth : Nat) (inside : List Happening) (failure : Option Nat)
  /-- The body of a region. -/
  | region (id : Nat) (function : String) (inside : List Happening)

/-- One thing done. -/
inductive Deed where
  | defer (held : Release Resource)
  /-- A release callback runs. -/
  | release (held : Release Resource)
  | report (events : List Event)

namespace Deed

def events : Deed → List Event
  | .defer held => [.trace (.defer held.function held.resource.label)]
  | .release held =>
    .trace (.release held.function held.resource.label) :: held.resource.onRelease
  | .report events => events

def deferred? : Deed → Option (Release Resource)
  | .defer held => some held
  | _ => none

def released? : Deed → Option (Release Resource)
  | .release held => some held
  | _ => none

@[simp] theorem flatMap_events_release (released : List (Release Resource)) :
    (released.map Deed.release).flatMap events = released.flatMap Release.events := by
  rw [List.flatMap_map]
  rfl

end Deed

namespace Happening

def deferred? : Happening → Option (Release Resource)
  | .deferred held => some held
  | _ => none

/-- What is deferred in a scope, but not in a scope inside it; the newest first. -/
def own (inside : List Happening) : List (Release Resource) :=
  (inside.filterMap deferred?).reverse

@[simp] theorem own_nil : own [] = [] := rfl

@[simp] theorem own_append (h h' : List Happening) : own (h ++ h') = own h' ++ own h := by
  simp [own]

theorem own_cons (x : Happening) (h : List Happening) : own (x :: h) = own h ++ own [x] :=
  own_append [x] h

@[simp] theorem own_deferred (held : Release Resource) : own [.deferred held] = [held] := rfl

mutual

/-- All that is done when something happens, in the order of time. -/
def deeds : Happening → List Deed
  | .deferred held => [.defer held]
  | .reported events => [.report events]
  | .call name depth inside failure =>
    .report [.trace (.enter name depth)] :: deedsOf inside ++ (own inside).map .release ++
      [.report (Machine.leaving name (own inside).length failure)]
  | .region id function inside =>
    .report [.trace (.enterRegion id function)] :: deedsOf inside ++ (own inside).map .release ++
      [.report [.trace (.leaveRegion id (own inside).length)]]

def deedsOf : List Happening → List Deed
  | [] => []
  | x :: rest => x.deeds ++ deedsOf rest

end

@[simp] theorem deedsOf_append (h h' : List Happening) :
    deedsOf (h ++ h') = deedsOf h ++ deedsOf h' := by
  induction h with
  | nil => rfl
  | cons x rest ih => simp [deedsOf, ih]

end Happening

open Happening

namespace Action

/-- What happens when an action runs on a machine. -/
inductive History : {α : Type} → Action α → Machine → List Happening → Prop where
  | done {α : Type} {a : α} {m : Machine} : History (done a) m []
  | fail {α : Type} {f : Failure} {m : Machine} : History (fail f : Action α) m []
  | report {α : Type} {events : List Event} {a : α} {m : Machine} :
    History (report events a) m [.reported events]
  | remember {α : Type} {change : List (String × Failure) → List (String × Failure)} {a : α}
    {m : Machine} : History (fun m => ⟨[], .ok a, { m with kept := change m.kept }⟩) m []
  | mint {α : Type} {p : Payload} {next : Failure → Action α} {m : Machine} {h : List Happening} :
    History (next (m.mint p).result) (m.mint p).machine h →
    History (fun m => (m.mint p).andThen next) m (.reported (m.mint p).events :: h)
  | defer {α : Type} {resource : Resource} {a : α} {m : Machine} :
    History (Machine.defer resource a) m [.deferred ⟨m.stack.topName, resource⟩]
  | inspect {α : Type} {act : Machine → Action α} {m : Machine} {h : List Happening} :
    History (act m) m h → History (fun m => act m m) m h
  | andThen {α β : Type} {act : Action α} {next : Except Failure α → Action β} {m : Machine}
    {h h' : List Happening} :
    History act m h → History (next (act m).result) (act m).machine h' →
    History (fun m => (act m).andThen next) m (h ++ h')
  | call {α : Type} {name : String} {body : Action α} {m : Machine} {h : List Happening} :
    History body (m.withFrame name) h →
    History (Machine.call name body) m
      [.call name m.stack.depth h (Machine.failureId? (body (m.withFrame name)).result)]
  /-- The body of a region is over when what follows from its result begins. -/
  | region {α β : Type} {body : Action α} {next : Nat × Except Failure α → Action β} {m : Machine}
    {h h' : List Happening} :
    History body m.withRegion h →
    History (next (m.enterRegion body).result) (m.enterRegion body).machine h' →
    History (fun m => (m.enterRegion body).andThen next) m
      (.region (m.entered + 1) m.stack.topName h :: h')

/-- Whatever a built action does has a history. -/
theorem Built.exists_history {act : Action α} (hact : act.Built) (m : Machine) :
    ∃ h, act.History m h := by
  induction hact generalizing m with
  | done => exact ⟨_, .done⟩
  | fail => exact ⟨_, .fail⟩
  | report => exact ⟨_, .report⟩
  | remember => exact ⟨_, .remember⟩
  | mint p _ ih =>
    obtain ⟨h, hh⟩ := ih (m.mint p).result (m.mint p).machine
    exact ⟨_, .mint hh⟩
  | defer => exact ⟨_, .defer⟩
  | inspect _ ih =>
    obtain ⟨h, hh⟩ := ih m m
    exact ⟨_, .inspect hh⟩
  | andThen _ _ ih ihn =>
    obtain ⟨h, hh⟩ := ih m
    obtain ⟨h', hh'⟩ := ihn _ _
    exact ⟨_, .andThen hh hh'⟩
  | call name _ ih =>
    obtain ⟨h, hh⟩ := ih (m.withFrame name)
    exact ⟨_, .call hh⟩
  | region _ _ ih ihn =>
    obtain ⟨h, hh⟩ := ih m.withRegion
    obtain ⟨h', hh'⟩ := ihn _ _
    exact ⟨_, .region hh hh'⟩

namespace History

/-- What an action leaves in the top frame is what was deferred outside of the scopes in it. -/
theorem acquired {act : Action α} {m : Machine} {h : List Happening} (hh : act.History m h) :
    ∃ resources, (act m).machine.stack = m.stack.acquire resources ∧
      own h = resources.map (⟨m.stack.topName, ·⟩) := by
  induction hh with
  | done | fail | report | remember => exact ⟨[], rfl, rfl⟩
  | mint _ ih =>
    obtain ⟨resources, hs, ho⟩ := ih
    exact ⟨resources, hs, ho⟩
  | @defer _ resource => exact ⟨[resource], rfl, rfl⟩
  | inspect _ ih => exact ih
  | andThen _ _ ih ih' =>
    obtain ⟨older, hs, ho⟩ := ih
    obtain ⟨newer, hs', ho'⟩ := ih'
    refine ⟨newer ++ older, ?_, ?_⟩
    · exact hs'.trans (by rw [hs, CallStack.acquire_acquire])
    · rw [own_append, ho', ho, hs, CallStack.topName_acquire, List.map_append]
  | call _ ih =>
    obtain ⟨resources, hs, -⟩ := ih
    exact ⟨[], by rw [Machine.call_eq hs]; rfl, rfl⟩
  | @region _ _ body _ m _ _ _ _ ih ih' =>
    obtain ⟨resources, hs, -⟩ := ih
    obtain ⟨newer, hs', ho'⟩ := ih'
    -- What the body has deferred is gone when the region is left. Only what follows is kept.
    have hback : (m.enterRegion body).machine.stack = m.stack := by
      rw [Machine.enterRegion_eq hs]
    rw [hback] at hs' ho'
    refine ⟨newer, hs', ?_⟩
    rw [own_cons, ho']
    exact List.append_nil _

/-- The machine reports what is done, release by release. -/
theorem events_eq {act : Action α} {m : Machine} {h : List Happening} (hh : act.History m h) :
    (act m).events = (deedsOf h).flatMap Deed.events := by
  induction hh with
  | done | fail | remember => rfl
  | report => simp [deedsOf, deeds, Deed.events, Action.report]
  | mint _ ih => simp [Step.andThen, ih, deedsOf, deeds, Deed.events]
  | defer => simp [deedsOf, deeds, Deed.events, Machine.defer]
  | inspect _ ih => exact ih
  | andThen _ _ ih ih' => simp [Step.andThen, ih, ih']
  | @call _ name _ _ h hb ih =>
    obtain ⟨resources, hs, ho⟩ := hb.acquired
    have hown : own h = resources.map (⟨name, ·⟩) := ho
    have hlen : (own h).length = resources.length := by rw [hown, List.length_map]
    rw [Machine.call_eq hs, ← hown, ← hlen]
    simp [ih, deedsOf, deeds, Deed.events]
  | @region _ _ _ _ m h _ hb _ ih ih' =>
    obtain ⟨resources, hs, ho⟩ := hb.acquired
    have hown : own h = resources.map (⟨m.stack.topName, ·⟩) := ho
    have hlen : (own h).length = resources.length := by rw [hown, List.length_map]
    simp only [Step.andThen, ih']
    rw [Machine.enterRegion_eq hs, ← hown, ← hlen]
    simp [ih, deedsOf, deeds, Deed.events]

end History

end Action

end Unwind
