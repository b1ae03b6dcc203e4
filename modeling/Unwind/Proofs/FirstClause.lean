import Unwind.Proofs.Propagation

/-!
# The first clause that runs

Inside layers that defer nothing, a raised payload passes every layer of which no clause takes it
(`firstCaught_around_of_passes`), and the first clause to run is the first that takes it in the
innermost layer that has one (`caught_by_innermost`). What the clause does then, and what the layers
further out do, is left open.
-/

namespace Unwind

variable {α : Type}

/-- The region and the position of a clause that is about to run. -/
def Event.caught? : Event → Option (Nat × Nat)
  | .trace (.caught _ region clause _) => some (region, clause)
  | _ => none

/-- The region and the position of the first clause that runs. -/
def firstCaught (events : List Event) : Option (Nat × Nat) :=
  events.findSome? Event.caught?

@[simp] theorem firstCaught_append (events events' : List Event) :
    firstCaught (events ++ events') = (firstCaught events).or (firstCaught events') :=
  List.findSome?_append

@[simp] theorem firstCaught_cons (event : Event) (events : List Event) :
    firstCaught (event :: events) = event.caught?.or (firstCaught events) := by
  rw [firstCaught, List.findSome?_cons]
  cases event.caught? <;> rfl

@[simp] theorem firstCaught_nil : firstCaught [] = none := rfl

theorem firstCaught_leaving (name : String) (count : Nat) (failure : Option Nat) :
    firstCaught (Machine.leaving name count failure) = none := by
  cases failure <;> rfl

namespace Machine

theorem call_events (m : Machine) (name : String) (body : Action α) :
    ∃ after, (m.call name body).events =
      [.trace (.enter name m.stack.depth)] ++ (body (m.withFrame name)).events ++ after := by
  cases hr : (body (m.withFrame name)).result with
  | ok a =>
    simp only [call, hr]
    exact ⟨_, rfl⟩
  | error f =>
    simp only [call, hr]
    exact ⟨_, List.append_assoc ..⟩

theorem guard_events (m : Machine) (body : Action α) (clauses : List (Clause α)) :
    ∃ after, (m.guard body clauses).events =
      [.trace (.enterRegion (m.entered + 1) m.stack.topName)] ++ (body m.withRegion).events ++
        after := by
  simp only [guard, Step.andThen, enterRegion, List.append_assoc]
  exact ⟨_, rfl⟩

end Machine

namespace Layer

/-- A layer that defers nothing. -/
def IsPlain : Layer α → Prop
  | .call _ resources => resources = []
  | .guard resources _ => resources = []

/-- No clause of a layer takes payloads of kind `k`. -/
def Passes (k : Kind) : Layer α → Prop
  | .call .. => True
  | .guard _ clauses => clauses.find? (·.selector.accepts k) = none

theorem Passes.letsThrough {k : Kind} {layer : Layer α} (h : layer.Passes k) :
    layer.LetsThrough k := by
  cases layer with
  | call => trivial
  | guard _ clauses =>
    intro c hc
    rw [show clauses.find? _ = none from h] at hc
    cases hc

/-- Whatever runs inside a plain layer, no clause of the layer runs before it. -/
theorem wrap_events {layer : Layer α} (h : layer.IsPlain) (act : Action α) (m : Machine) :
    ∃ before after start, (layer.wrap act m).events = before ++ (act start).events ++ after ∧
      firstCaught before = none ∧ start.entered = m.entered + [layer].countP isRegion := by
  cases layer with
  | call name resources =>
    cases h
    obtain ⟨after, hevents⟩ := m.call_events name act
    exact ⟨_, after, m.withFrame name, hevents, rfl, rfl⟩
  | guard resources clauses =>
    cases h
    obtain ⟨after, hevents⟩ := m.guard_events act clauses
    exact ⟨_, after, m.withRegion, hevents, rfl, rfl⟩

theorem around_events {layers : List (Layer α)} (h : ∀ layer ∈ layers, layer.IsPlain)
    (act : Action α) (m : Machine) :
    ∃ before after start, (around layers act m).events = before ++ (act start).events ++ after ∧
      firstCaught before = none ∧ start.entered = m.entered + layers.countP isRegion := by
  induction layers generalizing act with
  | nil => exact ⟨[], [], m, by simp [around], rfl, rfl⟩
  | cons layer outer ih =>
    rw [List.forall_mem_cons] at h
    obtain ⟨before, after, middle, hevents, hbefore, hmiddle⟩ := ih h.2 (layer.wrap act)
    obtain ⟨before', after', start, hevents', hbefore', hstart⟩ := wrap_events h.1 act middle
    refine ⟨before ++ before', after' ++ after, start, ?_, ?_, ?_⟩
    · rw [around, hevents, hevents']
      simp
    · rw [firstCaught_append, hbefore, hbefore']
      rfl
    · have hcount : (layer :: outer).countP isRegion =
          [layer].countP isRegion + outer.countP isRegion := by
        rw [← List.countP_append]
        rfl
      omega

/-- A region around layers that pass the payload is left with the payload in flight, no clause
having run until then if none has inside. -/
theorem enterRegion_of_passes {p : Payload} {inner : List (Layer α)}
    (h : ∀ layer ∈ inner, layer.Passes p.kind) {m : Machine}
    (hsilent : firstCaught (around inner (Machine.raise p) m.withRegion).events = none) :
    let s := m.enterRegion (around inner (Machine.raise p))
    ∃ f, s.result.2 = .error f ∧ f.payload = p ∧ firstCaught s.events = none := by
  intro s
  have hin := escapes_around (p := p) fun layer hl => (h layer hl).letsThrough
  have hs : (around inner (Machine.raise p) m.withRegion).machine.stack = m.stack.acquire [] :=
    (hin m.withRegion).scopes.1
  refine ⟨_, (Escapes.enterRegion hin [] m).1, Failure.recordAll_payload _ _, ?_⟩
  have hregion : s = _ := Machine.enterRegion_eq hs
  rw [hregion]
  simp [hsilent, Event.caught?]

/-- No clause runs on the way out of plain layers that all pass the payload. -/
theorem firstCaught_around_of_passes {p : Payload} {layers : List (Layer α)}
    (hplain : ∀ layer ∈ layers, layer.IsPlain) (hpasses : ∀ layer ∈ layers, layer.Passes p.kind)
    (m : Machine) : firstCaught (around layers (Machine.raise p) m).events = none := by
  -- From the outermost layer inward, as for `escapes_around`: a region offers the payload to its
  -- clauses only when everything inside it is over.
  induction layers using List.reverseRecOn generalizing m with
  | nil => rfl
  | append_singleton inner layer ih =>
    rw [List.forall_mem_append] at hplain hpasses
    have hsilent := ih hplain.1 hpasses.1
    have hlayer := hplain.2 _ (List.mem_singleton_self _)
    rw [around_append]
    cases layer with
    | call name resources =>
      cases hlayer
      have hin := escapes_around (p := p) (fun layer hl => (hpasses.1 layer hl).letsThrough)
        (m.withFrame name)
      have hs : (around inner (Machine.raise p) (m.withFrame name)).machine.stack =
          (m.stack.push name).acquire [] := hin.scopes.1
      change firstCaught (m.call name (around inner (Machine.raise p))).events = none
      rw [Machine.call_eq hs]
      simp [hsilent, firstCaught_leaving, Event.caught?]
    | guard resources clauses =>
      cases hlayer
      obtain ⟨f, hf, hpayload, hregion⟩ := enterRegion_of_passes hpasses.1 (hsilent m.withRegion)
      have hnone : clauses.find? (·.selector.accepts f.kind) = none := by
        rw [Failure.kind, hpayload]
        exact hpasses.2 _ (List.mem_singleton_self _)
      change firstCaught (m.guard (around inner (Machine.raise p)) clauses).events = none
      rw [Machine.guard_of_error hf, Step.andThen, Machine.offer_of_none hnone,
        firstCaught_append, hregion]
      rfl

/-- The first clause to run is the first that takes the payload in the innermost layer that has
such a clause. -/
theorem caught_by_innermost {p : Payload} {inner outer : List (Layer α)}
    {clauses : List (Clause α)} {c : Clause α}
    (hplain : ∀ layer ∈ inner ++ outer, layer.IsPlain)
    (hpasses : ∀ layer ∈ inner, layer.Passes p.kind)
    (hc : clauses.find? (·.selector.accepts p.kind) = some c) (m : Machine) :
    let region := m.entered + outer.countP isRegion + 1
    ∃ before after f start,
      (around (inner ++ .guard [] clauses :: outer) (Machine.raise p) m).events =
        before ++ .trace (.caught f.id region (clauses.findIdx (·.selector.accepts p.kind))
          c.selector) :: (c.run ⟨f, region⟩ start).events ++ after ∧
      firstCaught before = none ∧ f.payload = p := by
  intro region
  rw [List.forall_mem_append] at hplain
  rw [around_append]
  obtain ⟨before, after, start, hevents, hbefore, hstart⟩ :=
    around_events hplain.2 ((Layer.guard [] clauses).wrap (around inner (Machine.raise p))) m
  obtain ⟨f, hf, hpayload, hregion⟩ :=
    enterRegion_of_passes hpasses (firstCaught_around_of_passes hplain.1 hpasses start.withRegion)
  have hfirst : clauses.find? (·.selector.accepts f.kind) = some c := by
    rwa [Failure.kind, hpayload]
  have hguard : (Layer.guard [] clauses).wrap (around inner (Machine.raise p)) start = _ :=
    Machine.guard_of_error hf clauses
  rw [hguard, Step.andThen, Machine.offer_of_first hfirst] at hevents
  refine ⟨before ++ (start.enterRegion (around inner (Machine.raise p))).events, after, f,
    (start.enterRegion (around inner (Machine.raise p))).machine, hevents.trans ?_, ?_, hpayload⟩
  · rw [hstart, Failure.kind, hpayload]
    simp [region]
  · rw [firstCaught_append, hbefore, hregion]
    rfl

end Layer

end Unwind
