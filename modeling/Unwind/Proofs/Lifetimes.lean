import Unwind.Proofs.History

/-!
# The lifetime of a resource

Over a whole run every resource that is deferred is released once, at the end of the scope in which
it was deferred, and the releases come in the opposite order of the deferrals.
-/

namespace Unwind

variable {α : Type}

/-- In what is still to be done, each release is of the newest resource that is held then, and in
the end none is held. The resources held now are listed newest first. -/
inductive Lifo : List (Release Resource) → List Deed → Prop where
  | nil : Lifo [] []
  | defer {r : Release Resource} {held : List (Release Resource)} {rest : List Deed} :
    Lifo (r :: held) rest → Lifo held (.defer r :: rest)
  | release {r : Release Resource} {held : List (Release Resource)} {rest : List Deed} :
    Lifo held rest → Lifo (r :: held) (.release r :: rest)
  | report {events : List Event} {held : List (Release Resource)} {rest : List Deed} :
    Lifo held rest → Lifo held (.report events :: rest)

namespace Lifo

/-- What is held or yet to be deferred is what is yet to be released. -/
theorem perm {held : List (Release Resource)} {deeds : List Deed} (h : Lifo held deeds) :
    (deeds.filterMap Deed.released?).Perm (held ++ deeds.filterMap Deed.deferred?) := by
  induction h with
  | nil => exact .nil
  | @defer r held rest _ ih => exact ih.trans List.perm_middle.symm
  | release _ ih => exact ih.cons _
  | report _ ih => exact ih

/-- The newest resources are released. -/
theorem releasing {held : List (Release Resource)} {rest : List Deed} (h : Lifo held rest)
    (newest : List (Release Resource)) :
    Lifo (newest ++ held) (newest.map .release ++ rest) := by
  induction newest with
  | nil => exact h
  | cons r _ ih => exact .release ih

end Lifo

namespace Happening

-- Within a scope everything older stays held, so `held` and what is done later are arbitrary.
mutual

theorem lifo_deeds : ∀ (x : Happening) {held : List (Release Resource)} {rest : List Deed},
    Lifo (own [x] ++ held) rest → Lifo held (x.deeds ++ rest)
  | .deferred _, _, _, h => .defer h
  | .reported _, _, _, h => .report h
  | .call name depth inside failure, held, rest, h => by
    have hclose : Lifo held (.report (Machine.leaving name (own inside).length failure) :: rest) :=
      .report h
    have hinside := lifo_deedsOf inside (hclose.releasing (own inside))
    simpa [deeds] using Lifo.report hinside
  | .region id function inside, held, rest, h => by
    have hclose : Lifo held (.report [.trace (.leaveRegion id (own inside).length)] :: rest) :=
      .report h
    have hinside := lifo_deedsOf inside (hclose.releasing (own inside))
    simpa [deeds] using Lifo.report hinside

theorem lifo_deedsOf : ∀ (h : List Happening) {held : List (Release Resource)} {rest : List Deed},
    Lifo (own h ++ held) rest → Lifo held (deedsOf h ++ rest)
  | [], _, _, hl => hl
  | x :: h, held, rest, hl => by
    rw [own_cons, List.append_assoc] at hl
    rw [deedsOf, List.append_assoc]
    exact lifo_deeds x (lifo_deedsOf h hl)

end

end Happening

open Happening

/-- Over a whole run, in which steps are run in turn on a new machine and the machine is given up in
the end, whatever is deferred is released. The run is one scope around the scopes in it: it has a
history `h`, and at the end of each scope, before anything outside of it goes on, the resources that
were deferred in it are released. Releases are last in, first out over the whole run, and there is
one for each deferral. -/
theorem resources_released_with_scope (config : Config) {steps : List (Action α)}
    (hsteps : ∀ act ∈ steps, act.Built) :
    let run := Action.inTurn steps
    let start := Machine.new config
    (∃ h, run.History start h) ∧
    ∀ h, run.History start h →
      let deeds := deedsOf h ++ (own h).map .release
      (run start).events ++ (run start).machine.drain = deeds.flatMap Deed.events ∧
      Lifo [] deeds ∧
      (deeds.filterMap Deed.released?).Perm (deeds.filterMap Deed.deferred?) := by
  intro run start
  refine ⟨(Action.Built.inTurn hsteps).exists_history start, fun h hh => ?_⟩
  have hlifo : Lifo [] (deedsOf h ++ (own h).map .release) := by
    have hall := lifo_deedsOf h (Lifo.nil.releasing (own h))
    rwa [List.append_nil] at hall
  refine ⟨?_, hlifo, hlifo.perm⟩
  obtain ⟨resources, hs, ho⟩ := hh.acquired
  have hdrain : (run start).machine.drain = (own h).flatMap Release.events := by
    rw [ho, Machine.drain, hs]
    simp [CallStack.drain, CallStack.acquire, Frame.releases, start, Machine.new, CallStack.ofRoot,
      CallStack.topName]
  rw [hh.events_eq, hdrain, List.flatMap_append, Deed.flatMap_events_release]

/-- Two tasks: in the first a clause defers into the root frame, in the second a failure escapes the
entry point. -/
theorem resources_released_with_scope_tasks :
    let tasks : List Task :=
      [⟨none, [.defer "a", .guard [.defer "b", .raise (.int 1)] [(.any, [.defer "c"])]]⟩,
        ⟨some "main", [.defer "d", .call "f" [.defer "e", .raise (.record ⟨2⟩)]]⟩]
    let start := Machine.new {}
    (∀ act ∈ tasks.map Task.action, act.Built) ∧
    ∃ h, (Action.inTurn (tasks.map Task.action)).History start h ∧
      let deeds := deedsOf h ++ (own h).map .release
      (Task.runAll tasks start).flatMap (·.events) ++
          ((Task.runAll tasks start).foldl (fun _ s => s.machine) start).drain =
        deeds.flatMap Deed.events ∧
      Lifo [] deeds := by
  intro tasks start
  have hbuilt : ∀ act ∈ tasks.map Task.action, act.Built := by
    intro act hact
    obtain ⟨t, -, rfl⟩ := List.mem_map.1 hact
    exact t.action_built
  obtain ⟨⟨h, hh⟩, hall⟩ := resources_released_with_scope {} hbuilt
  obtain ⟨hevents, hlifo, -⟩ := hall h hh
  obtain ⟨hreports, hmachine⟩ := Task.runAll_eq_inTurn tasks start
  refine ⟨hbuilt, h, hh, ?_, hlifo⟩
  rw [hreports, hmachine]
  exact hevents

end Unwind
