import Unwind.Proofs.Built
import Unwind.Proofs.StackLemmas

/-!
# Calls and regions are scopes

A built action leaves the frames and the active regions as it finds them, but that the top frame may
hold more than before (`Action.Built.grows`). From this follow exact equations for the two scopes:
`call_eq` for a call and `enterRegion_eq` for the body of a region, in which what the body has
acquired is released and the stack is the one from before.
-/

namespace Unwind

variable {α : Type}

namespace Machine

/-- The frames, what they hold, and the active regions are the same. -/
def SameScopes (m m' : Machine) : Prop :=
  m'.stack = m.stack ∧ m'.regions = m.regions

/-- From `m` to `m'` the frames and the active regions stay as they are, but that the top frame may
have taken on resources. The counters never fall. -/
structure Grows (m m' : Machine) : Prop where
  config : m'.config = m.config
  stack : ∃ acquired, m'.stack = m.stack.acquire acquired
  regions : m'.regions = m.regions
  raises : m.raises ≤ m'.raises
  entered : m.entered ≤ m'.entered

namespace Grows

theorem refl (m : Machine) : m.Grows m :=
  ⟨rfl, ⟨[], rfl⟩, rfl, Nat.le_refl _, Nat.le_refl _⟩

theorem trans {m₁ m₂ m₃ : Machine} (h : m₁.Grows m₂) (h' : m₂.Grows m₃) : m₁.Grows m₃ := by
  obtain ⟨older, hs⟩ := h.stack
  obtain ⟨newer, hs'⟩ := h'.stack
  refine ⟨h'.config.trans h.config, ⟨newer ++ older, ?_⟩, h'.regions.trans h.regions,
    Nat.le_trans h.raises h'.raises, Nat.le_trans h.entered h'.entered⟩
  rw [hs', hs, CallStack.acquire_acquire]

end Grows

/-- Every active region has a lower number than the next one to be entered. -/
theorem filter_regions (m : Machine) : m.regions.filter (·.id ≠ m.entered + 1) = m.regions := by
  refine List.filter_eq_self.2 fun r hr => ?_
  have := m.numbered r hr
  simp only [decide_eq_true_eq]
  omega

theorem filter_withRegion_regions (m : Machine) :
    m.withRegion.regions.filter (·.id ≠ m.entered + 1) = m.regions := by
  rw [withRegion, List.filter_cons_of_neg (by simp), filter_regions]

/-- The number of the failure in a result. -/
def failureId? : Except Failure α → Option Nat
  | .ok _ => none
  | .error f => some f.id

/-- What is reported after a call, given the number of the failure that has left it. -/
def leaving (name : String) (count : Nat) : Option Nat → List Event
  | none => []
  | some id => [.trace (.unwound id name count)]

/-- A call whose body has acquired `resources`. -/
theorem call_eq {m : Machine} {name : String} {body : Action α} {resources : List Resource}
    (h : (body (m.withFrame name)).machine.stack = (m.stack.push name).acquire resources) :
    m.call name body =
      let s := body (m.withFrame name)
      { events := .trace (.enter name m.stack.depth) :: s.events ++
          (resources.map (⟨name, ·⟩)).flatMap Release.events ++
          leaving name resources.length (failureId? s.result)
        result := s.result.mapError (·.record (.unwound name resources.length))
        machine := { s.machine with stack := m.stack } } := by
  have hpop := m.stack.popTo_push_acquire name resources
  unfold call
  cases hr : (body (m.withFrame name)).result with
  | ok a =>
    simp only [h, hpop, hr, leaving, failureId?, List.append_nil]
    rfl
  | error f =>
    simp only [h, hpop, hr, leaving, failureId?]
    rfl

/-- A region whose body has acquired `resources`. -/
theorem enterRegion_eq {m : Machine} {body : Action α} {resources : List Resource}
    (h : (body m.withRegion).machine.stack = m.stack.acquire resources) :
    m.enterRegion body =
      let s := body m.withRegion
      { events := .trace (.enterRegion (m.entered + 1) m.stack.topName) :: s.events ++
          (resources.map (⟨m.stack.topName, ·⟩)).flatMap Release.events ++
          [.trace (.leaveRegion (m.entered + 1) resources.length)]
        result := (m.entered + 1, s.result.mapError fun f =>
          if resources.length = 0 then f
          else f.record (.released (m.entered + 1) resources.length))
        machine := { s.machine.withoutRegion (m.entered + 1) with stack := m.stack } } := by
  have hback := m.stack.returnTo_mark_acquire resources
  simp [enterRegion, h, hback]

/-- A call ends in the scopes in which it began. -/
theorem Grows.call {m : Machine} {name : String} {body : Action α}
    (h : (m.withFrame name).Grows (body (m.withFrame name)).machine) :
    m.SameScopes (m.call name body).machine ∧ m.Grows (m.call name body).machine := by
  obtain ⟨acquired, hs⟩ := h.stack
  rw [call_eq hs]
  exact ⟨⟨rfl, h.regions⟩, h.config, ⟨[], rfl⟩, h.regions, h.raises, h.entered⟩

/-- The body of a region ends in the scopes in which the region was entered. -/
theorem Grows.enterRegion {m : Machine} {body : Action α}
    (h : m.withRegion.Grows (body m.withRegion).machine) :
    m.SameScopes (m.enterRegion body).machine ∧ m.Grows (m.enterRegion body).machine := by
  obtain ⟨acquired, hs⟩ := h.stack
  -- Leaving takes out every region of this number. There is only the one, since numbers are fresh.
  have hregions : (body m.withRegion).machine.regions.filter (·.id ≠ m.entered + 1) =
      m.regions := by
    rw [h.regions, filter_withRegion_regions]
  rw [enterRegion_eq hs]
  exact ⟨⟨rfl, hregions⟩, h.config, ⟨[], rfl⟩, hregions, h.raises, Nat.le_of_succ_le h.entered⟩

end Machine

/-- What a built action does to a machine. -/
theorem Action.Built.grows {act : Action α} (h : act.Built) (m : Machine) :
    m.Grows (act m).machine := by
  induction h generalizing m with
  | done | fail | report => exact .refl m
  | remember => exact ⟨rfl, ⟨[], rfl⟩, rfl, Nat.le_refl _, Nat.le_refl _⟩
  | mint p _ ih =>
    have hmint : m.Grows (m.mint p).machine :=
      ⟨rfl, ⟨[], rfl⟩, rfl, Nat.le_succ _, Nat.le_refl _⟩
    exact hmint.trans (ih _ _)
  | defer resource a =>
    exact ⟨rfl, ⟨[resource], rfl⟩, rfl, Nat.le_refl _, Nat.le_refl _⟩
  | inspect _ ih => exact ih m m
  | andThen _ _ ih ihn => exact (ih m).trans (ihn _ _)
  | call name _ ih => exact (ih (m.withFrame name)).call.2
  | region _ _ ih ihn => exact (ih m.withRegion).enterRegion.2.trans (ihn _ _)

/-! ## The clause that runs -/

namespace Machine

theorem offer_of_none {region : Nat} {f : Failure} {i : Nat} {clauses : List (Clause α)}
    (h : clauses.find? (·.selector.accepts f.kind) = none) (m : Machine) :
    offer region f i clauses m =
      ⟨[.trace (.noClause f.id region (i + clauses.length))],
        .error (f.record (.passed region)), m⟩ := by
  induction clauses generalizing i with
  | nil => rfl
  | cons clause rest ih =>
    rw [List.find?_eq_none] at h
    have hrest := ih (i := i + 1) (List.find?_eq_none.2 fun c hc => h c (List.mem_cons_of_mem _ hc))
    rw [offer, if_neg (h clause List.mem_cons_self), hrest, List.length_cons, Nat.add_assoc,
      Nat.add_comm 1]

/-- The first clause that takes the payload runs, on the machine as it is. -/
theorem offer_of_first {region : Nat} {f : Failure} {i : Nat} {clauses : List (Clause α)}
    {c : Clause α} (h : clauses.find? (·.selector.accepts f.kind) = some c) (m : Machine) :
    offer region f i clauses m =
      let index := i + clauses.findIdx (·.selector.accepts f.kind)
      let s := c.run ⟨f, region⟩ m
      { s with events := .trace (.caught f.id region index c.selector) :: s.events } := by
  induction clauses generalizing i with
  | nil => simp at h
  | cons clause rest ih =>
    cases hc : clause.selector.accepts f.kind with
    | true =>
      simp only [List.find?_cons, hc, Option.some.injEq] at h
      subst h
      rw [offer, if_pos hc, List.findIdx_cons, hc]
      rfl
    | false =>
      simp only [List.find?_cons, hc] at h
      rw [offer, hc, if_neg Bool.false_ne_true, ih h, List.findIdx_cons, hc, cond_false,
        Nat.add_assoc, Nat.add_comm 1]

/-- A failure of the body is offered to the clauses once the region has been left. -/
theorem guard_of_error {m : Machine} {body : Action α} {f : Failure}
    (hf : (m.enterRegion body).result.2 = .error f) (clauses : List (Clause α)) :
    m.guard body clauses =
      (m.enterRegion body).andThen fun _ => offer (m.entered + 1) f 0 clauses := by
  have hid : (m.enterRegion body).result.1 = m.entered + 1 := rfl
  simp [guard, Step.andThen, dispatch, hf, hid]

theorem guard_of_first {m : Machine} {body : Action α} {clauses : List (Clause α)} {f : Failure}
    {c : Clause α} (hf : (m.enterRegion body).result.2 = .error f)
    (hc : clauses.find? (·.selector.accepts f.kind) = some c) :
    m.guard body clauses =
      let t := m.enterRegion body
      let index := clauses.findIdx (·.selector.accepts f.kind)
      let s := c.run ⟨f, m.entered + 1⟩ t.machine
      { s with
        events := t.events ++ [.trace (.caught f.id (m.entered + 1) index c.selector)] ++
          s.events } := by
  rw [guard_of_error hf, Step.andThen, offer_of_first hc]
  simp

theorem enter_machine (m : Machine) (name : String) (body : Action α) :
    (m.enter name body).machine = (m.call name body).machine := by
  unfold enter Step.andThen
  cases (m.call name body).result <;> rfl

theorem enter_of_error {m : Machine} {name : String} {body : Action α} {f : Failure}
    (h : (m.call name body).result = .error f) :
    (m.enter name body).result = .error (.uncaught name f) := by
  rw [enter, Step.andThen, h]

end Machine

/-- Scopes are restored, whichever way a body ends. A call, or an entry point, ends with the frames
and active regions with which it began, since its body leaves one frame more and this is the one
that is popped. So does the body of a region, hence a clause starts with the frames and regions with
which the region was entered. A body itself may only add to what the top frame holds. -/
theorem scopes_restored {body : Action α} (hb : body.Built) (m : Machine) :
    (∀ name,
      m.SameScopes (m.call name body).machine ∧
      m.SameScopes (m.enter name body).machine ∧
      (body (m.withFrame name)).machine.stack.depth = m.stack.depth + 1 ∧
      (body (m.withFrame name)).machine.stack.popTo m.stack.depth =
        (body (m.withFrame name)).machine.stack.pop) ∧
    m.SameScopes (m.enterRegion body).machine ∧
    (∀ (clauses : List (Clause α)) (f : Failure) (c : Clause α),
      (m.enterRegion body).result.2 = .error f →
      clauses.find? (·.selector.accepts f.kind) = some c →
      ∃ before start, m.SameScopes start ∧
        m.guard body clauses =
          let s := c.run ⟨f, m.entered + 1⟩ start
          { s with events := before ++ s.events }) ∧
    m.Grows (body m).machine := by
  have hregion := (hb.grows m.withRegion).enterRegion.1
  refine ⟨fun name => ?_, hregion, fun clauses f c hf hc => ?_, hb.grows m⟩
  · have hcall := (hb.grows (m.withFrame name)).call.1
    obtain ⟨acquired, hs⟩ := (hb.grows (m.withFrame name)).stack
    refine ⟨hcall, ?_, ?_, ?_⟩
    · rw [Machine.enter_machine]
      exact hcall
    · rw [hs]
      rfl
    · rw [hs]
      exact m.stack.popTo_eq_pop name acquired
  · exact ⟨_, _, hregion, Machine.guard_of_first hf hc⟩

/-- In the middle of a run, a function defers, and a clause in it defers and sends on. -/
theorem scopes_restored_midway :
    let m : Machine :=
      { config := {}
        stack := ⟨⟨"main", [.noted "a"]⟩, [⟨"<root>", [.noted "c", .noted "b"]⟩]⟩
        regions := [⟨3, 2⟩, ⟨1, 1⟩], raises := 2, entered := 4, numbered := by decide }
    let body := Stmt.runBody [.defer "d", .guard [.defer "e", .raise (.int 1)]
      [(.any, [.defer "f", .rethrow 0])]] [] 0
    body.Built ∧ m.SameScopes (m.call "f" body).machine :=
  ⟨Stmt.runBody_built _ _ _, ((scopes_restored (Stmt.runBody_built _ _ _) _).1 "f").1⟩

end Unwind
