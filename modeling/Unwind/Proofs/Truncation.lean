import Unwind.Proofs.ProgramRoutines

/-!
# The limit on trails

A limit on the number of hops cuts trails short and has no other effect. `cut L` leaves of each
failure, wherever it is, the first `L` hops and the lower limit. Running commutes with it
(`Routine.run_cut`, `Routine.points_cut`), since a hop that is recorded on a trail already cut is
the hop that would have been cut off (`Failure.record_cut`) and nothing but `record` ever looks at a
trail. How long a trail can get is bounded by the number of events (`Routine.trailsBelow_run`), so
that a high limit is never reached.
-/

namespace Unwind

variable {n k : Nat} {α β : Type}

/-! ## Cutting trails -/

/-- The failure with the first `L` hops of its trail, and with no room for more. -/
def Failure.cut (L : Nat) (f : Failure) : Failure :=
  { f with hops := f.hops.take L, hopLimit := min f.hopLimit L }

theorem Failure.record_cut (L : Nat) (f : Failure) (hop : Hop) :
    (f.cut L).record hop = (f.record hop).cut L := by
  have hlen : (f.cut L).hops.length = min L f.hops.length := List.length_take
  have hlimit : (f.cut L).hopLimit = min f.hopLimit L := rfl
  by_cases hroom : f.hops.length < f.hopLimit
  · by_cases hL : f.hops.length < L
    · have htake : f.hops.take L = f.hops := List.take_of_length_le (by omega)
      have htake' : (f.hops ++ [hop]).take L = f.hops ++ [hop] := by
        refine List.take_of_length_le ?_
        rw [List.length_append]
        exact hL
      rw [record, if_pos (by omega), record, if_pos hroom, cut, cut, htake]
      simp only [htake']
    · have htake : (f.hops ++ [hop]).take L = f.hops.take L :=
        List.take_append_of_le_length (by omega)
      rw [record, if_neg (by omega), record, if_pos hroom, cut, cut]
      simp only [htake]
  · rw [record, if_neg (by omega), record, if_neg hroom]

def Handled.cut (L : Nat) (h : Handled) : Handled :=
  { h with failure := h.failure.cut L }

def Note.cut (L : Nat) : Note → Note
  | .clause start => .clause { start with failure := start.failure.cut L }
  | .failed f => .failed (f.cut L)
  | .minted f => .minted (f.cut L)
  | n => n

def Event.cut (L : Nat) : Event → Event
  | .trace t => .trace t
  | .note n => .note (n.cut L)

def cutResult (L : Nat) : Except Failure α → Except Failure α :=
  Except.mapError (Failure.cut L)

theorem cutResult_error (L : Nat) (f : Failure) :
    cutResult L (.error f : Except Failure α) = .error (f.cut L) := rfl

def Machine.cut (L : Nat) (m : Machine) : Machine :=
  { m with
    config := { m.config with hopLimit := min m.config.hopLimit L }
    kept := m.kept.map fun entry => (entry.1, entry.2.cut L) }

/-- Cut all trails in a step, those in its result being cut by `onResult`. -/
def Step.cut (L : Nat) (onResult : α → α) (s : Step α) : Step α :=
  ⟨s.events.map (Event.cut L), onResult s.result, s.machine.cut L⟩

def Env.cut (L : Nat) (σ : Env n k) : Env n k :=
  ⟨fun i => (σ.known i).cut L, fun i => (σ.handled i).cut L⟩

def Point.cut (L : Nat) (p : Point) : Point :=
  ⟨p.env.cut L, p.machine.cut L⟩

theorem Event.cut_of_isPlain {e : Event} (h : e.IsPlain) (L : Nat) : e.cut L = e := by
  cases e with
  | trace t => rfl
  | note n =>
    have hnone : n.failures = [] := h.2
    cases n with
    | clause | failed | minted => cases hnone
    | _ => rfl

theorem map_cut_of_isPlain {es : List Event} (h : ∀ e ∈ es, e.IsPlain) (L : Nat) :
    es.map (Event.cut L) = es := by
  have hcongr : es.map (Event.cut L) = es.map id :=
    List.map_congr_left fun e he => Event.cut_of_isPlain (h e he) L
  rw [hcongr, List.map_id]

theorem Machine.kept?_cut (L : Nat) (m : Machine) (name : String) :
    (m.cut L).kept? name = (m.kept? name).map (Failure.cut L) := by
  have hlookup : ∀ kept : List (String × Failure),
      (kept.map fun entry => (entry.1, entry.2.cut L)).lookup name =
        (kept.lookup name).map (Failure.cut L) := by
    intro kept
    induction kept with
    | nil => rfl
    | cons entry rest ih =>
      rw [List.map_cons, List.lookup_cons, List.lookup_cons, ih]
      cases name == entry.1 <;> rfl
  exact hlookup m.kept

theorem Env.know_cut (L : Nat) (σ : Env n k) (f : Failure) :
    (σ.know f).cut L = (σ.cut L).know (f.cut L) := by
  have hknown : (fun i => ((σ.know f).known i).cut L) = ((σ.cut L).know (f.cut L)).known := by
    funext i
    cases i using Fin.cases <;> rfl
  exact congrArg (Env.mk · _) hknown

theorem Env.handle_cut (L : Nat) (σ : Env n k) (h : Handled) :
    (σ.handle h).cut L = (σ.cut L).handle (h.cut L) := by
  have hknown : (fun i => ((σ.handle h).known i).cut L) = ((σ.cut L).handle (h.cut L)).known := by
    funext i
    cases i using Fin.cases <;> rfl
  have hhandled : (fun i => ((σ.handle h).handled i).cut L) =
      ((σ.cut L).handle (h.cut L)).handled := by
    funext i
    cases i using Fin.cases <;> rfl
  rw [Env.cut, hknown, hhandled]

theorem Env.empty_cut (L : Nat) : Env.empty.cut L = Env.empty := by
  have hnone : ∀ {γ : Type} (f g : Fin 0 → γ), f = g := fun f g => funext fun i => i.elim0
  rw [Env.empty, Env.cut]
  congr 1 <;> exact hnone _ _

/-! ## The operations of a machine -/

/-- Cutting goes through a step and what follows it. -/
theorem Step.andThen_cut {L : Nat} {s : Step α} {g : α → α} {g' : β → β}
    {next next' : α → Machine → Step β}
    (h : next' (g s.result) (s.machine.cut L) = (next s.result s.machine).cut L g') :
    (s.cut L g).andThen next' = (s.andThen next).cut L g' := by
  rw [andThen, cut, h]
  simp only [andThen, cut, List.map_append]

namespace Machine

variable {m : Machine}

theorem mint_cut (L : Nat) (m : Machine) (p : Payload) :
    (m.cut L).mint p = (m.mint p).cut L (Failure.cut L) := by
  simp only [mint, Step.cut, Failure.cut, List.take_nil]
  rfl

theorem leaving_cut (L : Nat) (name : String) (count : Nat) (r : Except Failure α) :
    leaving name count (failureId? (cutResult L r)) =
      (leaving name count (failureId? r)).map (Event.cut L) := by
  cases r <;> rfl

theorem call_cut {L : Nat} {name : String} {body body' : Action α}
    (hplain : (body (m.withFrame name)).machine.Plain)
    (h : body' ((m.withFrame name).cut L) = (body (m.withFrame name)).cut L (cutResult L)) :
    (m.cut L).call name body' = (m.call name body).cut L (cutResult L) := by
  have hbody : body' ((m.cut L).withFrame name) =
      (body (m.withFrame name)).cut L (cutResult L) := h
  have hreleases := map_cut_of_isPlain (hplain.popTo_events m.stack.depth) L
  rw [call_eq_popTo, call_eq_popTo, hbody]
  simp only [Step.cut, List.map_cons, List.map_append, hreleases, ← leaving_cut]
  congr 1
  cases (body (m.withFrame name)).result with
  | ok a => rfl
  | error f => exact congrArg Except.error (f.record_cut L _)

/-- The result of the body of a region, cut. -/
def cutBody (L : Nat) (r : Nat × Except Failure α) : Nat × Except Failure α :=
  (r.1, cutResult L r.2)

theorem enterRegion_cut {L : Nat} {body body' : Action α}
    (hplain : (body m.withRegion).machine.Plain)
    (h : body' (m.withRegion.cut L) = (body m.withRegion).cut L (cutResult L)) :
    (m.cut L).enterRegion body' = (m.enterRegion body).cut L (cutBody L) := by
  have hbody : body' (m.cut L).withRegion = (body m.withRegion).cut L (cutResult L) := h
  have hreleases := map_cut_of_isPlain (hplain.returnTo_events m.stack.mark) L
  simp only [enterRegion, hbody, Step.cut, List.map_cons, List.map_append, hreleases]
  congr 1
  cases (body m.withRegion).result with
  | ok a => rfl
  | error f =>
    refine congrArg (fun g => (m.entered + 1, Except.error g)) ?_
    change (if ((body m.withRegion).machine.stack.returnTo m.stack.mark).count = 0
      then f.cut L else _) = Failure.cut L (if _ then f else _)
    split
    · rfl
    · exact f.record_cut L _

theorem enterRegion_result_cut {L : Nat} {body body' : Action α} {r : Except Failure α}
    (h : (m.cut L).enterRegion body' = (m.enterRegion body).cut L (cutBody L))
    (hr : (m.enterRegion body).result.2 = r) :
    ((m.cut L).enterRegion body').result.2 = cutResult L r := by
  rw [h, Step.cut, cutBody, hr]

theorem settle_cut {L region : Nat} {f : Failure} {selectors : List Selector}
    {run run' : Nat → Handled → Action α}
    (h : ∀ i, run' i ⟨f.cut L, region⟩ (m.cut L) =
      (run i ⟨f, region⟩ m).cut L (cutResult L)) :
    settle region (f.cut L) selectors run' (m.cut L) =
      (settle region f selectors run m).cut L (cutResult L) := by
  have hkind : (f.cut L).kind = f.kind := rfl
  simp only [settle, hkind]
  cases Selector.first? f.kind selectors with
  | none =>
    simp only [Step.cut, f.record_cut L]
    rfl
  | some c => simp only [Step.andThen, h, Step.cut, List.map_append]; rfl

end Machine

/-! ## Routines -/

theorem View.see_cut {τ : Type} (L : Nat) (view : View .blind n k τ) (σ : Env n k) (m : Machine) :
    view.see (σ.cut L) (m.cut L) = view.see σ m := by
  cases view with
  | trail hsight => cases hsight
  | _ => rfl

theorem Remark.event_cut (L : Nat) (σ : Env n k) (remark : Remark n) :
    remark.event (σ.cut L) = (remark.event σ).cut L := by
  cases remark with
  | plain e => exact (Event.cut_of_isPlain e.2 L).symm
  | _ => rfl

theorem Command.run_cut (L : Nat) (σ : Env n k) (c : Command n) (m : Machine) :
    c.run (σ.cut L) (m.cut L) = (c.run σ m).cut L (cutResult L) := by
  cases c with
  | report remarks =>
    have hevents : remarks.map (·.event (σ.cut L)) =
        (remarks.map (·.event σ)).map (Event.cut L) := by
      rw [List.map_map]
      exact List.map_congr_left fun remark _ => remark.event_cut L σ
    simp only [run, Action.report, hevents]
    rfl
  | keep name f =>
    simp only [run, Machine.keep, Machine.cut, Step.cut, List.map_cons, List.filter_map]
    rfl
  | retain names =>
    simp only [run, Machine.cut, Step.cut, List.filter_map]
    rfl
  | defer => rfl

namespace Routine

/-- Running commutes with cutting trails. -/
theorem run_cut (L : Nat) (r : BlindRoutine n k α) (σ : Env n k) {m : Machine} (hm : m.Plain) :
    r.run (σ.cut L) (m.cut L) = (r.run σ m).cut L (cutResult L) := by
  induction r generalizing m with
  | done | fail => rfl
  | rethrow h =>
    simp only [run, Handled.rethrow, Step.cut]
    exact congrArg (Step.mk _ · _) (congrArg Except.error ((σ.handled h).failure.record_cut L _))
  | act c => exact c.run_cut L σ m
  | look view next ih =>
    simp only [run, view.see_cut]
    exact ih _ σ hm
  | mint p next ih =>
    simp only [run, Machine.mint_cut]
    refine Step.andThen_cut ?_
    rw [← Env.know_cut]
    exact ih _ hm
  | takeUp name found missing ihf ihm =>
    simp only [run, Machine.kept?_cut]
    cases m.kept? name with
    | none => exact ihm σ hm
    | some f =>
      simp only [Option.map_some, ← Env.know_cut]
      exact ihf _ hm
  | andThen first next failed ih ihn ihf =>
    simp only [run, ih σ hm]
    refine Step.andThen_cut ?_
    have hfirst := first.run_plain σ hm
    cases (first.run σ m).result with
    | ok a => exact ihn a σ hfirst
    | error f =>
      simp only [cutResult_error, ← Env.know_cut]
      exact ihf _ hfirst
  | call name body ih =>
    have hframe := hm.withFrame name
    exact Machine.call_cut (body.run_plain σ hframe) (ih σ hframe)
  | guard body pause selectors clauses ih ihc =>
    have hbody := body.run_plain σ hm.withRegion
    have hregion := Machine.enterRegion_cut hbody (ih σ hm.withRegion)
    have hevents : bodyEvents body pause (σ.cut L) (m.cut L) =
        (bodyEvents body pause σ m).map (Event.cut L) := by
      rw [bodyEvents, bodyEvents, hregion, List.map_append,
        map_cut_of_isPlain PlainEvent.forall_events]
      rfl
    cases hr : (m.enterRegion (body.run σ)).result.2 with
    | ok a =>
      have hr' : ((m.cut L).enterRegion (body.run (σ.cut L))).result.2 = .ok a :=
        Machine.enterRegion_result_cut hregion hr
      rw [run_guard_ok hr, run_guard_ok hr', hevents, hregion]
      rfl
    | error f =>
      have hr' : ((m.cut L).enterRegion (body.run (σ.cut L))).result.2 = .error (f.cut L) :=
        Machine.enterRegion_result_cut hregion hr
      rw [run_guard_error hr, run_guard_error hr', hevents, hregion]
      refine Step.andThen_cut (s := ⟨_, (), _⟩) (g := id) ?_
      refine Machine.settle_cut fun i => ?_
      have hclause := ihc i (σ.handle ⟨f, m.entered + 1⟩) hbody.enterRegion
      rw [Env.handle_cut] at hclause
      exact hclause

/-- A run comes through the same points when trails are cut, with the trails at each point cut. -/
theorem points_cut (L : Nat) (r : BlindRoutine n k α) (σ : Env n k) {m : Machine} (hm : m.Plain) :
    r.points (σ.cut L) (m.cut L) = (r.points σ m).map (Point.cut L) := by
  induction r generalizing m with
  | done | fail | rethrow | act => rfl
  | look view next ih =>
    simp only [points, view.see_cut, List.map_cons]
    exact congrArg (_ :: ·) (ih _ σ hm)
  | mint p next ih =>
    simp only [points, Machine.mint_cut, List.map_cons]
    have hnext := ih (σ.know (m.mint p).result) (m := (m.mint p).machine) hm
    rw [Env.know_cut] at hnext
    exact congrArg (_ :: ·) hnext
  | takeUp name found missing ihf ihm =>
    simp only [points, Machine.kept?_cut, List.map_cons]
    refine congrArg (_ :: ·) ?_
    cases m.kept? name with
    | none => exact ihm σ hm
    | some f =>
      simp only [Option.map_some, ← Env.know_cut]
      exact ihf _ hm
  | andThen first next failed ih ihn ihf =>
    have hfirst := first.run_plain σ hm
    simp only [points, first.run_cut L σ hm, ih σ hm, List.map_append, Step.cut]
    congr 1
    cases (first.run σ m).result with
    | ok a => exact ihn a σ hfirst
    | error f =>
      simp only [cutResult_error, ← Env.know_cut]
      exact ihf _ hfirst
  | call name body ih =>
    simp only [points, List.map_cons]
    exact congrArg (_ :: ·) (ih σ (hm.withFrame name))
  | guard body pause selectors clauses ih ihc =>
    have hbody := body.run_plain σ hm.withRegion
    have hregion := Machine.enterRegion_cut hbody (body.run_cut L σ hm.withRegion)
    have hinside : bodyPoints body (σ.cut L) (m.cut L) =
        (bodyPoints body σ m).map (Point.cut L) :=
      congrArg (_ :: ·) (ih σ hm.withRegion)
    cases hr : (m.enterRegion (body.run σ)).result.2 with
    | ok a =>
      have hr' : ((m.cut L).enterRegion (body.run (σ.cut L))).result.2 = .ok a :=
        Machine.enterRegion_result_cut hregion hr
      rw [points_guard_ok hr, points_guard_ok hr', hinside, hregion, List.map_append]
      rfl
    | error f =>
      have hr' : ((m.cut L).enterRegion (body.run (σ.cut L))).result.2 = .error (f.cut L) :=
        Machine.enterRegion_result_cut hregion hr
      have hstop :
          Point.mk ((σ.cut L).know (f.cut L)) ((m.enterRegion (body.run σ)).machine.cut L) =
            (Point.mk (σ.know f) (m.enterRegion (body.run σ)).machine).cut L := by
        rw [← Env.know_cut]
        rfl
      cases hfirst : Selector.first? f.kind selectors with
      | none =>
        rw [points_guard_passed hr hfirst, points_guard_passed hr' hfirst, hinside, hregion,
          List.map_append]
        exact congrArg (fun p => _ ++ [p]) hstop
      | some c =>
        have hclause := ihc c.2 (σ.handle ⟨f, m.entered + 1⟩) hbody.enterRegion
        rw [Env.handle_cut] at hclause
        rw [points_guard_taken hr hfirst, points_guard_taken hr' hfirst, hinside, hregion,
          List.map_append, List.map_cons]
        exact congrArg (_ ++ ·) (congr (congrArg List.cons hstop) hclause)

end Routine

/-! ## Limits that are never reached -/

/-- The trails of all failures that a routine has at hand at some point, or has set aside by then,
are shorter than `b`. -/
structure Point.TrailsBelow (b : Nat) (p : Point) : Prop where
  known : ∀ i, (p.env.known i).hops.length < b
  handled : ∀ i, (p.env.handled i).failure.hops.length < b
  kept : ∀ entry ∈ p.machine.kept, entry.2.hops.length < b

/-- The trails of all failures that a step shows, fails with or leaves behind are shorter than
`b`. -/
structure Step.TrailsBelow (b : Nat) (s : Step (Except Failure α)) : Prop where
  shown : ∀ e ∈ s.events, ∀ f ∈ e.failures, f.hops.length < b
  result : ∀ f, s.result = .error f → f.hops.length < b
  kept : ∀ entry ∈ s.machine.kept, entry.2.hops.length < b

theorem Failure.length_record_le (f : Failure) (hop : Hop) :
    (f.record hop).hops.length ≤ f.hops.length + 1 := by
  rw [record]
  split
  · rw [List.length_append]
    exact Nat.le_refl _
  · exact Nat.le_succ _

theorem not_shown_of_isPlain {es : List Event} (h : ∀ e ∈ es, e.IsPlain) {b : Nat} :
    ∀ e ∈ es, ∀ f ∈ e.failures, f.hops.length < b := by
  intro e he f hf
  rw [(h e he).2] at hf
  exact absurd hf List.not_mem_nil

namespace Point.TrailsBelow

variable {σ : Env n k} {m m' : Machine} {b b' : Nat}

theorem mono {p : Point} (h : p.TrailsBelow b) (hb : b ≤ b') : p.TrailsBelow b' :=
  ⟨fun i => Nat.lt_of_lt_of_le (h.known i) hb, fun i => Nat.lt_of_lt_of_le (h.handled i) hb,
    fun entry he => Nat.lt_of_lt_of_le (h.kept entry he) hb⟩

/-- Of the machine, only what is set aside matters. -/
theorem move (h : (Point.mk σ m).TrailsBelow b)
    (hkept : ∀ entry ∈ m'.kept, entry.2.hops.length < b) : (Point.mk σ m').TrailsBelow b :=
  ⟨h.known, h.handled, hkept⟩

theorem know (h : (Point.mk σ m).TrailsBelow b) {f : Failure} (hf : f.hops.length < b) :
    (Point.mk (σ.know f) m).TrailsBelow b := by
  refine ⟨fun i => ?_, h.handled, h.kept⟩
  cases i using Fin.cases with
  | zero => exact hf
  | succ i => exact h.known i

theorem handle (h : (Point.mk σ m).TrailsBelow b) {handled : Handled}
    (hf : handled.failure.hops.length < b) : (Point.mk (σ.handle handled) m).TrailsBelow b := by
  refine ⟨fun i => ?_, fun i => ?_, h.kept⟩
  · cases i using Fin.cases with
    | zero => exact hf
    | succ i => exact h.known i
  · cases i using Fin.cases with
    | zero => exact hf
    | succ i => exact h.handled i

theorem event (h : (Point.mk σ m).TrailsBelow b) (remark : Remark n) :
    ∀ f ∈ (remark.event σ).failures, f.hops.length < b := by
  cases remark with
  | plain e =>
    rw [Remark.event, e.2.2]
    exact List.forall_mem_nil _
  | clause _ _ _ _ i => exact List.forall_mem_singleton.2 (h.known i)
  | failed i | minted i => exact List.forall_mem_singleton.2 (h.known i)

theorem command (h : (Point.mk σ m).TrailsBelow b) (c : Command n) :
    (c.run σ m).TrailsBelow b := by
  cases c with
  | report remarks =>
    refine ⟨fun e he => ?_, fun f hf => ?_, h.kept⟩
    · obtain ⟨remark, -, rfl⟩ := List.mem_map.1 he
      exact h.event remark
    · cases hf
  | keep name i =>
    refine ⟨List.forall_mem_nil _, fun f hf => ?_, fun entry he => ?_⟩
    · cases hf
    · rcases List.mem_cons.1 he with rfl | he
      · exact h.known i
      · exact h.kept entry (List.mem_filter.1 he).1
  | retain names =>
    refine ⟨List.forall_mem_nil _, fun f hf => ?_, fun entry he => ?_⟩
    · cases hf
    · exact h.kept entry (List.mem_filter.1 he).1
  | defer label onRelease =>
    refine ⟨List.forall_mem_singleton.2 (List.forall_mem_nil _), fun f hf => ?_, h.kept⟩
    cases hf

end Point.TrailsBelow

namespace Step.TrailsBelow

variable {m : Machine} {b b' : Nat}

theorem mono {s : Step (Except Failure α)} (h : s.TrailsBelow b) (hb : b ≤ b') :
    s.TrailsBelow b' :=
  ⟨fun e he f hf => Nat.lt_of_lt_of_le (h.shown e he f hf) hb,
    fun f hf => Nat.lt_of_lt_of_le (h.result f hf) hb,
    fun entry he => Nat.lt_of_lt_of_le (h.kept entry he) hb⟩

/-- More is reported before. -/
theorem prepend {s : Step (Except Failure α)} (h : s.TrailsBelow b) {before : List Event}
    (hbefore : ∀ e ∈ before, ∀ f ∈ e.failures, f.hops.length < b) :
    ({ s with events := before ++ s.events } : Step (Except Failure α)).TrailsBelow b :=
  ⟨List.forall_mem_append.2 ⟨hbefore, h.shown⟩, h.result, h.kept⟩

/-- What two parts of a run come to, one after the other. -/
theorem followed {s : Step (Except Failure α)} {t : Step (Except Failure β)}
    {ps ps' : List Point} (hs : s.TrailsBelow b ∧ ∀ p ∈ ps, p.TrailsBelow b)
    (ht : t.TrailsBelow b' ∧ ∀ p ∈ ps', p.TrailsBelow b') (hb : b ≤ b') :
    ({ t with events := s.events ++ t.events } : Step (Except Failure β)).TrailsBelow b' ∧
      ∀ p ∈ ps ++ ps', p.TrailsBelow b' := by
  refine ⟨ht.1.prepend (hs.1.mono hb).shown, List.forall_mem_append.2 ⟨fun p hp => ?_, ht.2⟩⟩
  exact (hs.2 p hp).mono hb

/-- A call adds a hop to the trail of a failure. -/
theorem call {name : String} {body : Action α} (h : (body (m.withFrame name)).TrailsBelow b)
    (hplain : (body (m.withFrame name)).machine.Plain) :
    (m.call name body).TrailsBelow (b + 1) := by
  have hb := h.mono (Nat.le_succ b)
  have hleaving : ∀ count, ∀ e ∈ Machine.leaving name count
      (Machine.failureId? (body (m.withFrame name)).result), e.IsPlain := by
    intro count
    cases (body (m.withFrame name)).result with
    | ok a => exact List.forall_mem_nil _
    | error f => exact List.forall_mem_singleton.2 ⟨rfl, rfl⟩
  rw [Machine.call_eq_popTo]
  refine ⟨?_, fun f hf => ?_, hb.kept⟩
  · refine List.forall_mem_append.2 ⟨List.forall_mem_append.2 ⟨?_, ?_⟩, ?_⟩
    · exact List.forall_mem_cons.2 ⟨List.forall_mem_nil _, hb.shown⟩
    · exact not_shown_of_isPlain (hplain.popTo_events _)
    · exact not_shown_of_isPlain (hleaving _)
  · cases hr : (body (m.withFrame name)).result with
    | ok a =>
      simp only [hr] at hf
      cases hf
    | error g =>
      simp only [hr] at hf
      cases hf
      exact Nat.lt_of_le_of_lt (g.length_record_le _) (Nat.succ_lt_succ (h.result g hr))

/-- So does leaving a region, if something is released there. -/
theorem enterRegion {body : Action α} (h : (body m.withRegion).TrailsBelow b)
    (hplain : (body m.withRegion).machine.Plain) :
    (⟨(m.enterRegion body).events, (m.enterRegion body).result.2,
      (m.enterRegion body).machine⟩ : Step (Except Failure α)).TrailsBelow (b + 1) := by
  have hb := h.mono (Nat.le_succ b)
  refine ⟨?_, fun f hf => ?_, hb.kept⟩
  · refine List.forall_mem_append.2 ⟨List.forall_mem_append.2 ⟨?_, ?_⟩, ?_⟩
    · exact List.forall_mem_cons.2 ⟨List.forall_mem_nil _, hb.shown⟩
    · exact not_shown_of_isPlain (hplain.returnTo_events _)
    · exact List.forall_mem_singleton.2 (List.forall_mem_nil _)
  · cases hr : (body m.withRegion).result with
    | ok a =>
      simp only [Machine.enterRegion, hr] at hf
      cases hf
    | error g =>
      have hg := h.result g hr
      simp only [Machine.enterRegion, hr] at hf
      cases hf
      split
      · exact Nat.lt_succ_of_lt hg
      · exact Nat.lt_of_le_of_lt (g.length_record_le _) (Nat.succ_lt_succ hg)

end Step.TrailsBelow

/-- Until a region turns to its clauses, no trail grows by more than one hop for each event. -/
theorem Routine.trailsBelow_body {body : BlindRoutine n k α} {σ : Env n k} {m : Machine} {b : Nat}
    (hm : m.Plain) (h : (Point.mk σ m).TrailsBelow b)
    (hbody : (body.run σ m.withRegion).TrailsBelow
      (b + (body.run σ m.withRegion).events.length))
    (hpoints : ∀ p ∈ body.points σ m.withRegion,
      p.TrailsBelow (b + (body.run σ m.withRegion).events.length))
    (pause : Nat → List PlainEvent) :
    let t := m.enterRegion (body.run σ)
    let b' := b + (bodyEvents body pause σ m).length
    (⟨bodyEvents body pause σ m, t.result.2, t.machine⟩ : Step (Except Failure α)).TrailsBelow b' ∧
      ∀ p ∈ bodyPoints body σ m, p.TrailsBelow b' := by
  intro t b'
  -- There is an event for entering the region, so there is room for the hop on leaving it.
  have hlen : b + (body.run σ m.withRegion).events.length + 1 ≤ b' := by
    simp only [b', bodyEvents, Machine.enterRegion, List.length_append, List.length_cons]
    omega
  have hleft := (hbody.enterRegion (body.run_plain σ hm.withRegion)).mono hlen
  refine ⟨⟨?_, hleft.result, hleft.kept⟩, ?_⟩
  · exact List.forall_mem_append.2
      ⟨hleft.shown, not_shown_of_isPlain PlainEvent.forall_events⟩
  · exact List.forall_mem_cons.2 ⟨h.mono (Nat.le_add_right _ _),
      fun p hp => (hpoints p hp).mono (Nat.le_of_succ_le hlen)⟩

namespace Routine

/-- No trail grows by more than one hop for each event. -/
theorem trailsBelow_run (r : BlindRoutine n k α) (σ : Env n k) {m : Machine} {b : Nat}
    (hm : m.Plain) (h : (Point.mk σ m).TrailsBelow b) :
    (r.run σ m).TrailsBelow (b + (r.run σ m).events.length) ∧
      ∀ p ∈ r.points σ m, p.TrailsBelow (b + (r.run σ m).events.length) := by
  induction r generalizing m b with
  | done a =>
    refine ⟨⟨List.forall_mem_nil _, fun f hf => ?_, h.kept⟩, List.forall_mem_singleton.2 h⟩
    cases hf
  | fail i =>
    refine ⟨⟨List.forall_mem_nil _, fun f hf => ?_, h.kept⟩, List.forall_mem_singleton.2 h⟩
    cases hf
    exact h.known i
  | rethrow i =>
    have h' := h.mono (Nat.le_succ b)
    refine ⟨⟨List.forall_mem_singleton.2 (List.forall_mem_nil _), fun f hf => ?_, h'.kept⟩,
      List.forall_mem_singleton.2 h'⟩
    cases hf
    exact Nat.lt_of_le_of_lt (Failure.length_record_le _ _) (Nat.succ_lt_succ (h.handled i))
  | act c =>
    have hle := Nat.le_add_right b (c.run σ m).events.length
    exact ⟨(h.command c).mono hle, List.forall_mem_singleton.2 (h.mono hle)⟩
  | look view next ih =>
    obtain ⟨hrun, hpoints⟩ := ih (view.see σ m) σ hm h
    exact ⟨hrun, List.forall_mem_cons.2 ⟨h.mono (Nat.le_add_right _ _), hpoints⟩⟩
  | mint p next ih =>
    have hnew : (Point.mk (σ.know (m.mint p).result) (m.mint p).machine).TrailsBelow (b + 1) :=
      ((h.mono (Nat.le_succ b)).know (f := (m.mint p).result) (Nat.succ_pos b)).move
        (h.mono (Nat.le_succ b)).kept
    obtain ⟨hrun, hpoints⟩ := ih _ (m := (m.mint p).machine) hm hnew
    have hlen : b + 1 + (next.run (σ.know (m.mint p).result) (m.mint p).machine).events.length =
        b + ((mint p next).run σ m).events.length := by
      simp only [run, Step.andThen, List.length_append]
      exact Nat.add_assoc _ _ _
    rw [hlen] at hrun hpoints
    refine ⟨hrun.prepend (List.forall_mem_singleton.2 (List.forall_mem_nil _)), ?_⟩
    exact List.forall_mem_cons.2 ⟨h.mono (Nat.le_add_right _ _), hpoints⟩
  | takeUp name found missing ihf ihm =>
    simp only [run, points]
    cases hkept : m.kept? name with
    | none =>
      obtain ⟨hrun, hpoints⟩ := ihm σ hm h
      exact ⟨hrun, List.forall_mem_cons.2 ⟨h.mono (Nat.le_add_right _ _), hpoints⟩⟩
    | some f =>
      obtain ⟨before, after, hm', -⟩ := List.lookup_eq_some_iff.1 hkept
      have hmem : (name, f) ∈ m.kept := by
        rw [hm']
        exact List.mem_append_right _ List.mem_cons_self
      obtain ⟨hrun, hpoints⟩ := ihf (σ.know f) hm (h.know (h.kept _ hmem))
      exact ⟨hrun, List.forall_mem_cons.2 ⟨h.mono (Nat.le_add_right _ _), hpoints⟩⟩
  | andThen first next failed ih ihn ihf =>
    have hfirst := ih σ hm h
    have hplain := first.run_plain σ hm
    have hmove := (h.mono (Nat.le_add_right b (first.run σ m).events.length)).move hfirst.1.kept
    simp only [points]
    cases hr : (first.run σ m).result with
    | ok a =>
      rw [run_andThen_ok hr]
      simp only [List.length_append, ← Nat.add_assoc]
      exact Step.TrailsBelow.followed hfirst (ihn a σ hplain hmove) (Nat.le_add_right _ _)
    | error f =>
      have hknow := hmove.know (hfirst.1.result f hr)
      rw [run_andThen_error hr]
      simp only [List.length_append, ← Nat.add_assoc]
      exact Step.TrailsBelow.followed hfirst (ihf _ hplain hknow) (Nat.le_add_right _ _)
  | call name body ih =>
    have hframe := hm.withFrame name
    obtain ⟨hbody, hpoints⟩ := ih σ hframe (h.move h.kept)
    have hlen : b + (body.run σ (m.withFrame name)).events.length + 1 ≤
        b + ((call name body).run σ m).events.length := by
      rw [run, Machine.call_eq_popTo]
      simp only [List.length_append, List.length_cons]
      omega
    refine ⟨(hbody.call (body.run_plain σ hframe)).mono hlen, ?_⟩
    exact List.forall_mem_cons.2 ⟨h.mono (Nat.le_add_right _ _),
      fun p hp => (hpoints p hp).mono (Nat.le_of_succ_le hlen)⟩
  | guard body pause selectors clauses ih ihc =>
    have hplain := (body.run_plain σ hm.withRegion).enterRegion
    obtain ⟨hbody, hpoints⟩ := ih σ hm.withRegion (h.move h.kept)
    obtain ⟨hleft, hinside⟩ := trailsBelow_body hm h hbody hpoints pause
    have hmove : (Point.mk σ (m.enterRegion (body.run σ)).machine).TrailsBelow _ :=
      (h.mono (Nat.le_add_right _ _)).move hleft.kept
    cases hr : (m.enterRegion (body.run σ)).result.2 with
    | ok a =>
      rw [run_guard_ok hr, points_guard_ok hr]
      rw [hr] at hleft
      exact ⟨hleft, List.forall_mem_append.2 ⟨hinside, List.forall_mem_singleton.2 hmove⟩⟩
    | error f =>
      have hf := hleft.result f hr
      have hstop := hmove.know hf
      cases hfirst : Selector.first? f.kind selectors with
      | none =>
        rw [run_guard_passed hr hfirst, points_guard_passed hr hfirst]
        simp only [List.length_append, List.length_singleton, ← Nat.add_assoc]
        have hle := Nat.le_succ (b + (bodyEvents body pause σ m).length)
        refine Step.TrailsBelow.followed (t := ⟨[_], .error _, _⟩) ⟨hleft, hinside⟩
          ⟨⟨?_, fun g hg => ?_, (hmove.mono hle).kept⟩, ?_⟩ hle
        · exact List.forall_mem_singleton.2 (List.forall_mem_nil _)
        · cases hg
          exact Nat.lt_of_le_of_lt (f.length_record_le _) (Nat.succ_lt_succ hf)
        · exact List.forall_mem_singleton.2 (hstop.mono hle)
      | some c =>
        obtain ⟨hrun, hpoints'⟩ := ihc c.2 (σ.handle ⟨f, m.entered + 1⟩) hplain (hmove.handle hf)
        have hle := Nat.le_add_right (b + (bodyEvents body pause σ m).length)
          (((clauses c.2).run (σ.handle ⟨f, m.entered + 1⟩)
            (m.enterRegion (body.run σ)).machine).events.length + 1)
        have hcaught : ∀ {b'}, ∀ e ∈ [Event.trace (.caught f.id (m.entered + 1) c.2 c.1)],
            ∀ g ∈ e.failures, g.hops.length < b' :=
          List.forall_mem_singleton.2 (List.forall_mem_nil _)
        rw [run_guard_taken hr hfirst, points_guard_taken hr hfirst]
        simp only [List.length_append, List.length_cons, ← Nat.add_assoc] at hle ⊢
        refine Step.TrailsBelow.followed ⟨hleft, hinside⟩
          ⟨(hrun.mono (Nat.le_succ _)).prepend hcaught, List.forall_mem_cons.2 ⟨?_, ?_⟩⟩ hle
        · exact hstop.mono hle
        · exact fun p hp => (hpoints' p hp).mono (Nat.le_succ _)

end Routine

/-! ## Entry points, tasks and startups -/

def Fatal.cut (L : Nat) : Fatal → Fatal
  | .init name f => .init name (f.cut L)
  | .uncaught entry f => .uncaught entry (f.cut L)

def Ending.cut (L : Nat) : Ending → Ending
  | .ended e => .ended e
  | .failed f => .failed (f.cut L)
  | .fatal f => .fatal (f.cut L)

/-- Running the action commutes with cutting trails. -/
def Action.Cuts (act : Action α) : Prop :=
  ∀ (L : Nat) {m : Machine}, m.Plain →
    act (m.cut L) = (act m).cut L (cutResult L) ∧ (act m).machine.Plain

theorem Routine.cuts (r : BlindRoutine 0 0 α) : (r.run .empty).Cuts := by
  intro L m hm
  have hrun := r.run_cut L .empty hm
  rw [Env.empty_cut] at hrun
  exact ⟨hrun, r.run_plain .empty hm⟩

theorem Action.Cuts.call {body : Action α} (h : body.Cuts) (name : String) :
    Cuts (Machine.call name body) := by
  intro L m hm
  obtain ⟨hbody, hplain⟩ := h L (hm.withFrame name)
  exact ⟨Machine.call_cut hplain hbody, hplain.call⟩

namespace Machine

variable {m : Machine}

theorem enter_cut {body : Action α} (h : body.Cuts) (hm : m.Plain) (L : Nat) (name : String) :
    (m.cut L).enter name body = (m.enter name body).cut L (Except.mapError (Fatal.cut L)) ∧
      (m.enter name body).machine.Plain := by
  obtain ⟨hcall, hplain⟩ := h.call name L hm
  refine ⟨?_, ?_⟩
  · rw [enter, hcall]
    refine Step.andThen_cut ?_
    cases (m.call name body).result <;> rfl
  · rw [enter_machine]
    exact hplain

theorem initialise_cut {inits : List (String × Action α)} (h : ∀ init ∈ inits, init.2.Cuts)
    (hm : m.Plain) (L : Nat) :
    (m.cut L).initialise inits = (m.initialise inits).cut L (Except.mapError (Fatal.cut L)) ∧
      (m.initialise inits).machine.Plain := by
  induction inits generalizing m with
  | nil => exact ⟨rfl, hm⟩
  | cons init rest ih =>
    obtain ⟨name, body⟩ := init
    rw [List.forall_mem_cons] at h
    obtain ⟨hcall, hplain⟩ := h.1.call name L hm
    obtain ⟨hrest, hplain'⟩ := ih h.2 hplain
    refine ⟨?_, ?_⟩
    · simp only [initialise, hcall]
      refine Step.andThen_cut ?_
      cases (m.call name body).result with
      | ok a => exact hrest
      | error f => rfl
    · simp only [initialise, Step.andThen]
      cases (m.call name body).result with
      | ok a => exact hplain'
      | error f => exact hplain

end Machine

theorem Stmt.runBody_cuts (body : List Stmt) : (runBody body [] 0).Cuts := by
  have hbody : runBody body [] 0 = (routineBody body 0).run .empty := runBody_routine body .empty 0
  rw [hbody]
  exact Routine.cuts _

theorem Task.run_cut (t : Task) {m : Machine} (hm : m.Plain) (L : Nat) :
    t.run (m.cut L) = (t.run m).cut L (Ending.cut L) ∧ (t.run m).machine.Plain := by
  refine ⟨?_, ?_⟩
  · have hbody := Stmt.runBody_cuts t.body
    unfold run
    cases t.entry with
    | none =>
      simp only [(hbody L hm).1]
      refine Step.andThen_cut ?_
      cases (Stmt.runBody t.body [] 0 m).result <;> rfl
    | some name =>
      simp only [(Machine.enter_cut hbody hm L name).1]
      refine Step.andThen_cut ?_
      cases (m.enter name (Stmt.runBody t.body [] 0)).result <;> rfl
  · have hroutine := t.run_routine .empty m
    have hplain := t.routine.run_plain .empty hm
    rwa [hroutine] at hplain

theorem Task.runAll_cut (tasks : List Task) {m : Machine} (hm : m.Plain) (L : Nat) :
    runAll tasks (m.cut L) = (runAll tasks m).map (Step.cut L (Ending.cut L)) := by
  induction tasks generalizing m with
  | nil => rfl
  | cons t rest ih =>
    obtain ⟨hrun, hplain⟩ := t.run_cut hm L
    rw [runAll, runAll, List.map_cons, hrun]
    exact congrArg (_ :: ·) (ih hplain)

/-- The startup with another limit on trails. -/
def Startup.withLimit (p : Startup) (limit : Nat) : Startup :=
  { p with config := { p.config with hopLimit := limit } }

theorem Startup.run_cut (p : Startup) (L : Nat) :
    (p.withLimit (min p.config.hopLimit L)).run =
      p.run.cut L (Except.mapError (Fatal.cut L)) := by
  have hphase : ∀ body, (phase body).Cuts := by
    intro body
    rw [← run_phaseRoutine body .empty]
    exact Routine.cuts _
  have hinits : ∀ init ∈ p.inits.map (fun init => (init.1, phase init.2)), init.2.Cuts :=
    List.forall_mem_map.2 fun init _ => hphase init.2
  have hnew := Machine.Plain.new p.config
  obtain ⟨hinit, hplain⟩ := Machine.initialise_cut hinits hnew L
  have hstart : Machine.new (p.withLimit (min p.config.hopLimit L)).config =
      (Machine.new p.config).cut L := rfl
  rw [run, run, hstart]
  simp only [withLimit, hinit]
  refine Step.andThen_cut ?_
  cases ((Machine.new p.config).initialise _).result with
  | error f => rfl
  | ok u => exact (Machine.enter_cut (hphase p.body) hplain L p.entry).1

/-! ## The same run under two limits -/

def Event.trace? : Event → Option Trace
  | .trace t => some t
  | .note _ => none

theorem traces_cut (L : Nat) (es : List Event) :
    (es.map (Event.cut L)).filterMap Event.trace? = es.filterMap Event.trace? := by
  rw [List.filterMap_map]
  congr 1
  funext e
  cases e <;> rfl

theorem sighting_cutResult (L : Nat) (r : Except Failure α) :
    (cutResult L r).mapError Failure.sighting = r.mapError Failure.sighting := by
  cases r <;> rfl

theorem Machine.new_cut {L M : Nat} (h : L ≤ M) (config : Config) :
    (Machine.new { config with hopLimit := M }).cut L =
      Machine.new { config with hopLimit := L } := by
  simp only [Machine.cut, Machine.new, Nat.min_eq_right h, List.map_nil]

/-- The limit on the number of hops only cuts trails short.

Whatever a routine does, its run under the limit `L` is the run under a higher limit with all trails
cut to their first `L` hops: in what it reports, in how it ends, in what is set aside, and in all
that it has at hand at any point that it comes through. The limit can be chosen so high that no
trail ever reaches it. So nothing but the trails depends on the limit: not the traces, nor the value
or the failure that the run ends with, nor the frames with their resources and the active regions at
any point, nor which failures are at hand there. Tasks and startups run likewise. -/
theorem hop_limit_cuts_trails :
    (∀ {α : Type} (r : BlindRoutine 0 0 α) (config : Config),
      let start := fun limit => Machine.new { config with hopLimit := limit }
      let run := fun limit => r.run .empty (start limit)
      let points := fun limit => r.points .empty (start limit)
      (∀ L M, L ≤ M →
        run L = (run M).cut L (cutResult L) ∧ points L = (points M).map (Point.cut L)) ∧
      (∃ enough, ∀ M, enough ≤ M →
        (run M).TrailsBelow M ∧ ∀ p ∈ points M, p.TrailsBelow M) ∧
      ∀ L L',
        (run L).cut 0 (cutResult 0) = (run L').cut 0 (cutResult 0) ∧
        (points L).map (Point.cut 0) = (points L').map (Point.cut 0) ∧
        (run L).events.filterMap Event.trace? = (run L').events.filterMap Event.trace? ∧
        (run L).result.mapError Failure.sighting = (run L').result.mapError Failure.sighting ∧
        (points L).map (fun p => (p.machine.stack, p.machine.regions)) =
          (points L').map (fun p => (p.machine.stack, p.machine.regions))) ∧
    (∀ (tasks : List Task) (config : Config) (L M : Nat), L ≤ M →
      Task.runAll tasks (Machine.new { config with hopLimit := L }) =
        (Task.runAll tasks (Machine.new { config with hopLimit := M })).map
          (Step.cut L (Ending.cut L))) ∧
    ∀ (p : Startup) (L M : Nat), L ≤ M →
      (p.withLimit L).run = (p.withLimit M).run.cut L (Except.mapError (Fatal.cut L)) := by
  refine ⟨fun {α} r config => ?_, fun tasks config L M hle => ?_, fun p L M hle => ?_⟩
  · intro start run points
    have hplain : ∀ M, (start M).Plain := fun M => .new _
    have hcut : ∀ L M, L ≤ M →
        run L = (run M).cut L (cutResult L) ∧ points L = (points M).map (Point.cut L) := by
      intro L M hle
      have hstart : (start M).cut L = start L := Machine.new_cut hle config
      have hrun := r.run_cut L .empty (hplain M)
      have hpoints := r.points_cut L .empty (hplain M)
      rw [Env.empty_cut, hstart] at hrun hpoints
      exact ⟨hrun, hpoints⟩
    -- What does not see trails is for every limit as it is without any trail.
    have hrun : ∀ L, run 0 = (run L).cut 0 (cutResult 0) := fun L => (hcut 0 L (Nat.zero_le L)).1
    have hpoints : ∀ L, points 0 = (points L).map (Point.cut 0) :=
      fun L => (hcut 0 L (Nat.zero_le L)).2
    refine ⟨hcut, ⟨(run 0).events.length, fun M hM => ?_⟩, fun L L' => ⟨?_, ?_, ?_, ?_, ?_⟩⟩
    · have hbelow := r.trailsBelow_run .empty (hplain M)
        (b := 0) ⟨fun i => i.elim0, fun i => i.elim0, List.forall_mem_nil _⟩
      have hlen : 0 + (run M).events.length ≤ M := by
        rw [hrun M, Step.cut, List.length_map] at hM
        omega
      exact ⟨hbelow.1.mono hlen, fun p hp => (hbelow.2 p hp).mono hlen⟩
    · rw [← hrun, ← hrun]
    · rw [← hpoints, ← hpoints]
    · rw [← traces_cut 0 (run L).events, ← traces_cut 0 (run L').events]
      exact congrArg (fun s : Step _ => s.events.filterMap Event.trace?)
        ((hrun L).symm.trans (hrun L'))
    · rw [← sighting_cutResult 0 (run L).result, ← sighting_cutResult 0 (run L').result]
      exact congrArg (fun s : Step _ => s.result.mapError Failure.sighting)
        ((hrun L).symm.trans (hrun L'))
    · have hscopes := congrArg (List.map fun p : Point => (p.machine.stack, p.machine.regions))
        ((hpoints L).symm.trans (hpoints L'))
      rw [List.map_map, List.map_map] at hscopes
      exact hscopes
  · rw [← Machine.new_cut hle config]
    exact Task.runAll_cut tasks (.new _) L
  · have hrun := (p.withLimit M).run_cut L
    rw [← hrun]
    change _ = (p.withLimit (min M L)).run
    rw [Nat.min_eq_right hle]

/-- A failure is set aside after the two hops of a region, of which the limit 1 leaves the first. A
copy of it is raised again, sent on from a clause, and ends the entry point. -/
theorem hop_limit_cuts_trails_resumed :
    let tasks : List Task :=
      [⟨none, [.attempt [.call "f" [.guard [.defer "d", .raise (.int 5)]
          [(.kind .record, [])]]] (some "x")]⟩,
        ⟨some "main", [.guard [.resumeCopy "x"] [(.any, [.rethrow 0])]]⟩]
    let r : BlindRoutine 0 0 Unit := Task.routineAll tasks
    let start := fun limit => Machine.new { hopLimit := limit }
    let trails := fun limit =>
      (Task.runAll tasks (start limit)).map fun s => s.machine.kept.map (·.2.hops)
    r.run .empty (start 1) = (r.run .empty (start 9)).cut 1 (cutResult 1) ∧
      (∃ M, 9 ≤ M ∧ (r.run .empty (start M)).TrailsBelow M) ∧
      Task.runAll tasks (start 1) =
        (Task.runAll tasks (start 9)).map (Step.cut 1 (Ending.cut 1)) ∧
      trails 9 = [[[.released 1 1, .passed 1, .unwound "f" 0]],
        [[.released 1 1, .passed 1, .unwound "f" 0]]] ∧
      trails 1 = [[[.released 1 1]], [[.released 1 1]]] := by
  intro tasks r start trails
  obtain ⟨hroutines, htasks, -⟩ := hop_limit_cuts_trails
  obtain ⟨hcut, ⟨enough, hbelow⟩, -⟩ := hroutines r {}
  refine ⟨(hcut 1 9 (by decide)).1, ⟨enough + 9, Nat.le_add_left _ _, ?_⟩,
    htasks tasks {} 1 9 (by decide), by decide, by decide⟩
  exact (hbelow (enough + 9) (Nat.le_add_right _ _)).1

end Unwind
