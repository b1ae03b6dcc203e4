import Unwind.Proofs.RegionCourse

/-!
# Numbers of regions

A part of a run enters regions with consecutive numbers, and leaves each region that it enters
(`Closed`). This holds of the run of every routine (`Routine.closed_run`), so that the number of a
region tells when it was entered, and the regions that are open at a point of a run can be read off
what was reported before.
-/

namespace Unwind

variable {sight : Sight} {n k : Nat} {α : Type}

def Event.entered? : Event → Option Nat
  | .trace (.enterRegion id _) => some id
  | _ => none

def Event.left? : Event → Option Nat
  | .trace (.leaveRegion id _) => some id
  | _ => none

/-- The regions that are entered, in order. -/
def regionsEntered (es : List Event) : List Nat :=
  es.filterMap Event.entered?

/-- The regions that are left, in order. -/
def regionsLeft (es : List Event) : List Nat :=
  es.filterMap Event.left?

theorem regionsEntered_append (es es' : List Event) :
    regionsEntered (es ++ es') = regionsEntered es ++ regionsEntered es' :=
  List.filterMap_append

theorem regionsLeft_append (es es' : List Event) :
    regionsLeft (es ++ es') = regionsLeft es ++ regionsLeft es' :=
  List.filterMap_append

theorem Event.entered?_eq_none {e : Event} (h : e.isBracket = false) : e.entered? = none := by
  unfold entered?
  split
  · cases h
  · rfl

theorem Event.left?_eq_none {e : Event} (h : e.isBracket = false) : e.left? = none := by
  unfold left?
  split
  · cases h
  · rfl

/-! ## Parts of a run -/

/-- Events of a part of a run before which `start` regions were entered and after which there are
`stop`. They are entered in order, and left. -/
structure Closed (start stop : Nat) (es : List Event) : Prop where
  le : start ≤ stop
  entered : regionsEntered es = List.range' (start + 1) (stop - start)
  left : ∀ id, id ∈ regionsLeft es ↔ id ∈ regionsEntered es

namespace Closed

variable {start middle stop : Nat} {es es' : List Event}

theorem of_others (h : ∀ e ∈ es, e.isBracket = false) : Closed start start es := by
  have hentered : regionsEntered es = [] :=
    List.filterMap_eq_nil_iff.2 fun e he => Event.entered?_eq_none (h e he)
  have hleft : regionsLeft es = [] :=
    List.filterMap_eq_nil_iff.2 fun e he => Event.left?_eq_none (h e he)
  refine ⟨Nat.le_refl _, ?_, fun id => ?_⟩
  · rw [hentered, Nat.sub_self, List.range'_zero]
  · rw [hentered, hleft]

theorem append (h : Closed start middle es) (h' : Closed middle stop es') :
    Closed start stop (es ++ es') := by
  have hle := h.le
  have hle' := h'.le
  refine ⟨Nat.le_trans hle hle', ?_, fun id => ?_⟩
  · have hnext : middle + 1 = start + 1 + (middle - start) := by omega
    have hcount : stop - start = (middle - start) + (stop - middle) := by omega
    rw [regionsEntered_append, h.entered, h'.entered, hnext, List.range'_append_1, hcount]
  · rw [regionsLeft_append, regionsEntered_append, List.mem_append, List.mem_append, h.left,
      h'.left]

/-- A region around a part of a run. -/
theorem region {function : String} {released : Nat} (h : Closed (start + 1) stop es) :
    Closed start stop (.trace (.enterRegion (start + 1) function) :: es ++
      [.trace (.leaveRegion (start + 1) released)]) := by
  have hle := h.le
  have hentered : regionsEntered (.trace (.enterRegion (start + 1) function) :: es ++
      [.trace (.leaveRegion (start + 1) released)]) = (start + 1) :: regionsEntered es := by
    rw [regionsEntered_append]
    exact List.append_nil _
  have hleft : regionsLeft (.trace (.enterRegion (start + 1) function) :: es ++
      [.trace (.leaveRegion (start + 1) released)]) = regionsLeft es ++ [start + 1] := by
    rw [regionsLeft_append]
    rfl
  refine ⟨Nat.le_of_succ_le hle, ?_, fun id => ?_⟩
  · have hcount : stop - start = (stop - (start + 1)) + 1 := by omega
    rw [hentered, h.entered, hcount, List.range'_succ]
  · rw [hentered, hleft, List.mem_append, List.mem_singleton, List.mem_cons, h.left, or_comm]

theorem mem_entered (h : Closed start stop es) {id : Nat} :
    id ∈ regionsEntered es ↔ start < id ∧ id ≤ stop := by
  have hle := h.le
  rw [h.entered, List.mem_range'_1]
  omega

end Closed

/-! ## Runs -/

theorem Machine.closed_enterRegion {m : Machine} {body : Action α}
    (hplain : (body m.withRegion).machine.Plain)
    (h : Closed (m.entered + 1) (body m.withRegion).machine.entered (body m.withRegion).events) :
    Closed m.entered (m.enterRegion body).machine.entered (m.enterRegion body).events := by
  have hreleases := RegionFree.of_isPlain (hplain.returnTo_events m.stack.mark)
  have hbody := h.append (.of_others hreleases.isBracket)
  exact hbody.region

namespace Routine

theorem run_built (r : Routine sight n k α) (σ : Env n k) : (r.run σ).Built := by
  induction r with
  | done a => exact .done a
  | fail f => exact .fail _
  | rethrow h => exact .rethrow _
  | act c =>
    cases c with
    | report remarks => exact .report _ _
    | keep name f => exact .remember (fun kept => (name, σ.known f) :: kept.filter (·.1 ≠ name)) ()
    | retain names => exact .remember (fun kept => kept.filter (names ·.1)) ()
    | defer label onRelease => exact .defer _ _
  | look view _ ih => exact .of_each fun m => ⟨_, ih (view.see σ m) σ, rfl⟩
  | mint p _ ih => exact .mint p fun f => ih (σ.know f)
  | takeUp name _ _ ihf ihm =>
    refine .of_each fun m => ?_
    simp only [run]
    cases m.kept? name with
    | some f => exact ⟨_, ihf (σ.know f), rfl⟩
    | none => exact ⟨_, ihm σ, rfl⟩
  | andThen _ _ _ ih ihn ihf =>
    rw [run]
    refine (ih σ).andThen fun result => ?_
    cases result with
    | ok a => exact ihn a σ
    | error f => exact ihf (σ.know f)
  | call name _ ih => exact (ih σ).call name
  | guard body pause selectors clauses ih ihc =>
    rw [run]
    refine (ih σ).region fun result => (Action.Built.report _ ()).bind fun _ => .dispatch ?_
    intro c hc handled
    obtain ⟨c', -, rfl⟩ := List.mem_map.1 hc
    exact ihc c'.2 _

theorem run_grows (r : Routine sight n k α) (σ : Env n k) (m : Machine) :
    m.Grows (r.run σ m).machine :=
  (r.run_built σ).grows m

theorem enterRegion_grows (body : Routine sight n k α) (σ : Env n k) (m : Machine) :
    m.Grows (m.enterRegion (body.run σ)).machine :=
  (body.run_grows σ m.withRegion).enterRegion.2

/-- What is reported of a region up to its clauses. -/
theorem closed_bodyEvents {body : Routine sight n k α} {σ : Env n k} {m : Machine} (hm : m.Plain)
    (h : Closed (m.entered + 1) (body.run σ m.withRegion).machine.entered
      (body.run σ m.withRegion).events) (pause : Nat → List PlainEvent) :
    Closed m.entered (m.enterRegion (body.run σ)).machine.entered
      (bodyEvents body pause σ m) := by
  have hpause : RegionFree (PlainEvent.events (pause (m.entered + 1))) :=
    .of_isPlain PlainEvent.forall_events
  have hregion := Machine.closed_enterRegion (body.run_plain σ hm.withRegion) h
  exact hregion.append (.of_others hpause.isBracket)

/-- A run numbers its regions in order and leaves them. -/
theorem closed_run (r : Routine sight n k α) (σ : Env n k) {m : Machine} (hm : m.Plain) :
    Closed m.entered (r.run σ m).machine.entered (r.run σ m).events := by
  induction r generalizing m with
  | done | fail => exact .of_others (List.forall_mem_nil _)
  | rethrow => exact .of_others (List.forall_mem_singleton.2 rfl)
  | act c =>
    have hfree : Closed m.entered m.entered (c.run σ m).events :=
      .of_others (c.regionFree σ m).isBracket
    cases c <;> exact hfree
  | look view _ ih => exact ih _ σ hm
  | mint p _ ih =>
    have hraise : Closed m.entered m.entered (m.mint p).events :=
      .of_others (List.forall_mem_singleton.2 rfl)
    exact hraise.append (ih (σ.know (m.mint p).result) (m := (m.mint p).machine) hm)
  | takeUp name _ _ ihf ihm =>
    simp only [run]
    cases m.kept? name with
    | none => exact ihm σ hm
    | some f => exact ihf (σ.know f) hm
  | @andThen _ _ _ _ first _ _ ih ihn ihf =>
    have hfirst := ih σ hm
    have hplain := first.run_plain σ hm
    cases hr : (first.run σ m).result with
    | ok a =>
      rw [run_andThen_ok hr]
      exact hfirst.append (ihn a σ hplain)
    | error f =>
      rw [run_andThen_error hr]
      exact hfirst.append (ihf (σ.know f) hplain)
  | @call _ _ _ name body ih =>
    have hframe := hm.withFrame name
    have hreleases := RegionFree.of_isPlain ((body.run_plain σ hframe).popTo_events m.stack.depth)
    have henter : Closed m.entered m.entered [.trace (.enter name m.stack.depth)] :=
      .of_others (List.forall_mem_singleton.2 rfl)
    rw [run, Machine.call_eq_popTo]
    have hbody := (henter.append (ih σ hframe (m := m.withFrame name))).append
      (.of_others hreleases.isBracket)
    exact hbody.append (.of_others (Machine.leaving_regionFree name _ _).isBracket)
  | @guard _ _ _ body pause selectors clauses ih ihc =>
    have hbody := closed_bodyEvents hm (ih σ hm.withRegion) pause
    cases hr : (m.enterRegion (body.run σ)).result.2 with
    | ok a =>
      rw [run_guard_ok hr]
      exact hbody
    | error f =>
      cases hfirst : Selector.first? f.kind selectors with
      | none =>
        rw [run_guard_passed hr hfirst]
        exact hbody.append (.of_others (List.forall_mem_singleton.2 rfl))
      | some c =>
        rw [run_guard_taken hr hfirst]
        have hcaught : Closed (m.enterRegion (body.run σ)).machine.entered _
            [.trace (.caught f.id (m.entered + 1) c.2 c.1)] :=
          .of_others (List.forall_mem_singleton.2 rfl)
        -- The clause goes on from the last number that the body has given out.
        have hplain := (body.run_plain σ hm.withRegion).enterRegion
        have hclause := ihc c.2 (σ.handle ⟨f, m.entered + 1⟩) hplain
        exact hbody.append (hcaught.append hclause)

end Routine

end Unwind
