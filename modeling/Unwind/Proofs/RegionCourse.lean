import Unwind.Proofs.ProgramRoutines

/-!
# The course of a region

What the events of a run say about one region, taken by themselves, is always the same story: the
region is entered and left once, a failure of its body is offered to its clauses once, and at most
one clause takes it (`Evaluation.Course`). The regions of a run are nested, and what a clause does,
be it to raise, to send on or to enter other regions, does not touch its own region but that it may
send on what it handles.

`Routine.evaluations` lists the regions that a run evaluates, with the failures of their bodies.
`Accounted` is the invariant that carries the proof; it holds of every part of a run
(`Routine.accounted_run`).
-/

namespace Unwind

variable {sight : Sight} {n k k' : Nat} {α : Type}

/-! ## Evaluations -/

/-- One evaluation of a guarded region. -/
structure Evaluation where
  region : Nat
  selectors : List Selector
  /-- What the body has failed with, if it has. -/
  failure : Option Failure

namespace Routine

/-- The evaluations of regions in a run, in the order in which the regions are entered. -/
def evaluations : {n k : Nat} → {α : Type} → Routine sight n k α → Env n k → Machine →
    List Evaluation
  | _, _, _, .done _, _, _ => []
  | _, _, _, .fail _, _, _ => []
  | _, _, _, .rethrow _, _, _ => []
  | _, _, _, .act _, _, _ => []
  | _, _, _, .look view next, σ, m => (next (view.see σ m)).evaluations σ m
  | _, _, _, .mint p next, σ, m =>
    next.evaluations (σ.know (m.mint p).result) (m.mint p).machine
  | _, _, _, .takeUp name found missing, σ, m =>
    match m.kept? name with
    | some f => found.evaluations (σ.know f) m
    | none => missing.evaluations σ m
  | _, _, _, .andThen first next failed, σ, m =>
    let s := first.run σ m
    first.evaluations σ m ++ match s.result with
      | .ok a => (next a).evaluations σ s.machine
      | .error f => failed.evaluations (σ.know f) s.machine
  | _, _, _, .call name body, σ, m => body.evaluations σ (m.withFrame name)
  | _, _, _, .guard body _ selectors clauses, σ, m =>
    let t := m.enterRegion (body.run σ)
    match t.result.2 with
    | .ok _ => ⟨m.entered + 1, selectors, none⟩ :: body.evaluations σ m.withRegion
    | .error f => ⟨m.entered + 1, selectors, some f⟩ :: body.evaluations σ m.withRegion ++
        match Selector.first? f.kind selectors with
        | none => []
        | some (_, i) => (clauses i).evaluations (σ.handle ⟨f, m.entered + 1⟩) t.machine

section Guard

variable {body : Routine sight n k α} {pause : Nat → List PlainEvent} {selectors : List Selector}
  {clauses : Nat → Routine sight (n + 1) (k + 1) α} {σ : Env n k} {m : Machine}

theorem evaluations_guard_ok {a : α} (h : (m.enterRegion (body.run σ)).result.2 = .ok a) :
    (guard body pause selectors clauses).evaluations σ m =
      ⟨m.entered + 1, selectors, none⟩ :: body.evaluations σ m.withRegion ++ [] := by
  simp only [evaluations, h, List.append_nil]

theorem evaluations_guard_passed {f : Failure}
    (h : (m.enterRegion (body.run σ)).result.2 = .error f)
    (hfirst : Selector.first? f.kind selectors = none) :
    (guard body pause selectors clauses).evaluations σ m =
      ⟨m.entered + 1, selectors, some f⟩ :: body.evaluations σ m.withRegion ++ [] := by
  simp only [evaluations, h, hfirst]

theorem evaluations_guard_taken {f : Failure} {selector : Selector} {i : Nat}
    (h : (m.enterRegion (body.run σ)).result.2 = .error f)
    (hfirst : Selector.first? f.kind selectors = some (selector, i)) :
    (guard body pause selectors clauses).evaluations σ m =
      ⟨m.entered + 1, selectors, some f⟩ :: body.evaluations σ m.withRegion ++
        (clauses i).evaluations (σ.handle ⟨f, m.entered + 1⟩)
          (m.enterRegion (body.run σ)).machine := by
  simp only [evaluations, h, hfirst]

end Guard

end Routine

/-! ## What is reported of one region -/

/-- The events that are about a region. -/
def thread (id : Nat) (es : List Event) : List Event :=
  es.filter (·.region? = some id)

/-- What a clause reports when it sends on what it handles. -/
def Handled.sentOn (h : Handled) : Event :=
  .trace (.rethrow h.failure.id h.region h.failure.payload)

/-- What is reported of a region that is evaluated, from start to end. The region is entered and
left. If the body has ended with a value, that is all. If it has failed and no clause takes the
failure, this is reported. Otherwise the first clause that takes it runs, and it may send on what it
handles. -/
inductive Evaluation.Course (ev : Evaluation) : List Event → Prop where
  | completed {function : String} {released : Nat} : ev.failure = none →
    Course ev [.trace (.enterRegion ev.region function), .trace (.leaveRegion ev.region released)]
  | passed {function : String} {released : Nat} {f : Failure} : ev.failure = some f →
    (∀ selector ∈ ev.selectors, selector.accepts f.kind = false) →
    Course ev [.trace (.enterRegion ev.region function), .trace (.leaveRegion ev.region released),
      .trace (.noClause f.id ev.region ev.selectors.length)]
  | taken {function : String} {released : Nat} {f : Failure} {i : Nat} {selector : Selector}
    {sent : List Event} : ev.failure = some f →
    ev.selectors[i]? = some selector → selector.accepts f.kind = true →
    (∀ earlier ∈ ev.selectors.take i, earlier.accepts f.kind = false) →
    (∀ e ∈ sent, e = (Handled.mk f ev.region).sentOn) →
    Course ev (.trace (.enterRegion ev.region function) ::
      .trace (.leaveRegion ev.region released) ::
      .trace (.caught f.id ev.region i selector) :: sent)

theorem Selector.first?_eq_none {kind : Kind} {selectors : List Selector}
    (h : first? kind selectors = none) : ∀ s ∈ selectors, s.accepts kind = false := by
  intro s hs
  obtain ⟨i, hi⟩ := List.mem_iff_getElem?.1 hs
  have hmem : (s, i) ∈ selectors.zipIdx := List.mem_zipIdx_iff_getElem?.2 hi
  exact Bool.eq_false_iff.2 (List.find?_eq_none.1 h _ hmem)

/-- The first selector that takes a payload is the first. -/
theorem Selector.first?_eq_some {kind : Kind} {selectors : List Selector} {s : Selector} {i : Nat}
    (h : first? kind selectors = some (s, i)) :
    selectors[i]? = some s ∧ s.accepts kind = true ∧
      ∀ earlier ∈ selectors.take i, earlier.accepts kind = false := by
  obtain ⟨haccepts, j, hj, hget, hbefore⟩ := List.find?_eq_some_iff_getElem.1 h
  rw [List.getElem_zipIdx] at hget
  cases hget
  rw [List.length_zipIdx] at hj
  rw [Nat.zero_add]
  refine ⟨List.getElem?_eq_getElem hj, haccepts, fun earlier hmem => ?_⟩
  obtain ⟨j', hj', rfl⟩ := List.mem_take_iff_getElem.1 hmem
  have hnot := hbefore j' (by omega)
  rw [List.getElem_zipIdx] at hnot
  simpa using hnot

/-! ## Nesting -/

def Event.isBracket : Event → Bool
  | .trace (.enterRegion _ _) | .trace (.leaveRegion _ _) => true
  | _ => false

/-- Every region that is entered is left, after the regions that were entered in it. -/
inductive WellNested : List Event → Prop where
  | nil : WellNested []
  | other {e : Event} {rest : List Event} : e.isBracket = false → WellNested rest →
    WellNested (e :: rest)
  | region {id released : Nat} {function : String} {inside rest : List Event} :
    WellNested inside → WellNested rest →
    WellNested (.trace (.enterRegion id function) :: inside ++
      .trace (.leaveRegion id released) :: rest)

namespace WellNested

theorem append {es es' : List Event} (h : WellNested es) (h' : WellNested es') :
    WellNested (es ++ es') := by
  induction h with
  | nil => exact h'
  | other he _ ih => exact .other he ih
  | region hinside _ _ ih =>
    rw [List.append_assoc]
    exact .region hinside ih

theorem of_others {es : List Event} (h : ∀ e ∈ es, e.isBracket = false) : WellNested es := by
  induction es with
  | nil => exact .nil
  | cons e rest ih =>
    rw [List.forall_mem_cons] at h
    exact .other h.1 (ih h.2)

end WellNested

/-- No event is about a region. -/
def RegionFree (es : List Event) : Prop :=
  ∀ e ∈ es, e.region? = none

theorem RegionFree.of_isPlain {es : List Event} (h : ∀ e ∈ es, e.IsPlain) : RegionFree es :=
  fun e he => (h e he).1

theorem RegionFree.append {es es' : List Event} (h : RegionFree es) (h' : RegionFree es') :
    RegionFree (es ++ es') :=
  List.forall_mem_append.2 ⟨h, h'⟩

theorem RegionFree.isBracket {es : List Event} (h : RegionFree es) :
    ∀ e ∈ es, e.isBracket = false := by
  intro e he
  have hregion := h e he
  cases e with
  | note n => rfl
  | trace t =>
    cases t with
    | enterRegion | leaveRegion => cases hregion
    | _ => rfl

theorem RegionFree.wellNested {es : List Event} (h : RegionFree es) : WellNested es :=
  .of_others h.isBracket

/-! ## What the parts of a run say of one region -/

theorem thread_append (id : Nat) (es es' : List Event) :
    thread id (es ++ es') = thread id es ++ thread id es' :=
  List.filter_append _ _

theorem mem_thread {id : Nat} {e : Event} {es : List Event} :
    e ∈ thread id es ↔ e ∈ es ∧ e.region? = some id := by
  rw [thread, List.mem_filter, decide_eq_true_iff]

theorem thread_eq_nil {id : Nat} {es : List Event} (h : ∀ e ∈ es, e.region? ≠ some id) :
    thread id es = [] := by
  refine List.filter_eq_nil_iff.2 fun e he => ?_
  rw [decide_eq_true_iff]
  exact h e he

theorem RegionFree.thread {es : List Event} (h : RegionFree es) (id : Nat) :
    thread id es = [] := by
  refine thread_eq_nil fun e he hid => ?_
  rw [h e he] at hid
  cases hid

theorem thread_cons_self {id : Nat} {e : Event} (h : e.region? = some id) (es : List Event) :
    thread id (e :: es) = e :: thread id es :=
  List.filter_cons_of_pos (decide_eq_true h)

theorem thread_cons_other {id : Nat} {e : Event} (h : e.region? ≠ some id) (es : List Event) :
    thread id (e :: es) = thread id es :=
  List.filter_cons_of_neg fun hid => h (of_decide_eq_true hid)

section Region

variable {id : Nat} {function : String} {released : Nat}
  {inside releases pause settlement after : List Event}

/-- All that is reported of a region, from the entry into it to the end of its clause. -/
def regionReport (id : Nat) (function : String) (released : Nat)
    (inside releases pause settlement after : List Event) : List Event :=
  .trace (.enterRegion id function) :: inside ++ releases ++ [.trace (.leaveRegion id released)] ++
    pause ++ settlement ++ after

theorem thread_regionReport_self (hinside : thread id inside = []) (hreleases : RegionFree releases)
    (hpause : RegionFree pause) (hsettlement : ∀ e ∈ settlement, e.region? = some id) :
    thread id (regionReport id function released inside releases pause settlement after) =
      .trace (.enterRegion id function) :: .trace (.leaveRegion id released) ::
        (settlement ++ thread id after) := by
  have henter : (Event.trace (.enterRegion id function)).region? = some id := rfl
  have hleave : (Event.trace (.leaveRegion id released)).region? = some id := rfl
  have hsettled : thread id settlement = settlement :=
    List.filter_eq_self.2 fun e he => decide_eq_true (hsettlement e he)
  simp only [regionReport, thread_append, thread_cons_self henter, thread_cons_self hleave,
    hreleases.thread, hpause.thread, hsettled, hinside, List.append_assoc]
  rfl

theorem thread_regionReport_other {other : Nat} (hne : id ≠ other)
    (hreleases : RegionFree releases) (hpause : RegionFree pause)
    (hsettlement : ∀ e ∈ settlement, e.region? = some id) :
    thread other (regionReport id function released inside releases pause settlement after) =
      thread other inside ++ thread other after := by
  have hother : ∀ e : Event, e.region? = some id → e.region? ≠ some other := by
    intro e he heq
    rw [he] at heq
    exact hne (Option.some.inj heq)
  have henter := hother (.trace (.enterRegion id function)) rfl
  have hleave := hother (.trace (.leaveRegion id released)) rfl
  have hsettled : thread other settlement = [] :=
    thread_eq_nil fun e he => hother e (hsettlement e he)
  have hnil : thread other [] = [] := rfl
  simp only [regionReport, thread_append, thread_cons_other henter, thread_cons_other hleave,
    hreleases.thread, hpause.thread, hsettled, hnil, List.append_nil]

theorem mem_regionReport {e : Event} (hreleases : RegionFree releases) (hpause : RegionFree pause)
    (hsettlement : ∀ e ∈ settlement, e.region? = some id)
    (he : e ∈ regionReport id function released inside releases pause settlement after) :
    e ∈ inside ∨ e.region? = some id ∨ e.region? = none ∨ e ∈ after := by
  simp only [regionReport, List.mem_append, List.mem_cons, List.not_mem_nil, or_false] at he
  rcases he with (((((rfl | he) | he) | rfl) | he) | he) | he
  · exact .inr (.inl rfl)
  · exact .inl he
  · exact .inr (.inr (.inl (hreleases e he)))
  · exact .inr (.inl rfl)
  · exact .inr (.inr (.inl (hpause e he)))
  · exact .inr (.inl (hsettlement e he))
  · exact .inr (.inr (.inr he))

theorem WellNested.regionReport (hinside : WellNested inside) (hreleases : RegionFree releases)
    (hpause : RegionFree pause) (hsettlement : WellNested settlement)
    (hafter : WellNested after) :
    WellNested (regionReport id function released inside releases pause settlement after) := by
  have hbody : WellNested (inside ++ releases) := hinside.append hreleases.wellNested
  have hrest : WellNested (pause ++ (settlement ++ after)) :=
    hpause.wellNested.append (hsettlement.append hafter)
  have hregion : WellNested (.trace (.enterRegion id function) :: (inside ++ releases) ++
      .trace (.leaveRegion id released) :: (pause ++ (settlement ++ after))) :=
    .region hbody hrest
  simpa only [Unwind.regionReport, List.append_assoc, List.cons_append, List.nil_append] using
    hregion

end Region

/-! ## Accounts of parts of a run -/

/-- The events `es` of a part of a run, before which `start` regions were entered, inside clauses
that handle `hs`: the part evaluates the regions in `evs`, each of them takes its course, and
nothing is reported of any other region but that a clause around this part sends on what it
handles. -/
structure Accounted (hs : Fin k → Handled) (start : Nat) (es : List Event)
    (evs : List Evaluation) : Prop where
  numbered : evs.map (·.region) = List.range' (start + 1) evs.length
  course : ∀ ev ∈ evs, ev.Course (thread ev.region es)
  others : ∀ e ∈ es, ∀ id, e.region? = some id →
    id ∈ evs.map (·.region) ∨ ∃ i, e = (hs i).sentOn
  nested : WellNested es

namespace Accounted

variable {hs : Fin k → Handled} {hs' : Fin k' → Handled} {start : Nat} {es es' : List Event}
  {evs evs' : List Evaluation}

theorem region_ne {id : Nat} (hbelow : ∀ i, (hs i).region ≤ start) (hid : start < id) (i : Fin k) :
    (hs i).region ≠ id :=
  Nat.ne_of_lt (Nat.lt_of_le_of_lt (hbelow i) hid)

theorem of_regionFree (h : RegionFree es) : Accounted hs start es [] := by
  refine ⟨rfl, List.forall_mem_nil _, fun e he id hid => ?_, h.wellNested⟩
  rw [h e he] at hid
  cases hid

theorem mem_region (h : Accounted hs start es evs) {id : Nat} :
    id ∈ evs.map (·.region) ↔ start < id ∧ id ≤ start + evs.length := by
  rw [h.numbered, List.mem_range'_1]
  omega

/-- Nothing is said of a region that was not entered in this part and has no clause around it. -/
theorem thread_eq_nil (h : Accounted hs start es evs) {id : Nat}
    (hid : id ≤ start ∨ start + evs.length < id) (hhs : ∀ i, (hs i).region ≠ id) :
    thread id es = [] := by
  refine Unwind.thread_eq_nil fun e he hregion => ?_
  rcases h.others e he id hregion with hmem | ⟨i, rfl⟩
  · obtain ⟨hlt, hle⟩ := h.mem_region.1 hmem
    omega
  · cases hregion
    exact hhs i rfl

theorem append (h : Accounted hs start es evs) (h' : Accounted hs (start + evs.length) es' evs')
    (hbelow : ∀ i, (hs i).region ≤ start) : Accounted hs start (es ++ es') (evs ++ evs') := by
  refine ⟨?_, fun ev hev => ?_, fun e he id hid => ?_, h.nested.append h'.nested⟩
  · rw [List.map_append, h.numbered, h'.numbered, Nat.add_right_comm, List.range'_append_1,
      List.length_append]
  · rw [thread_append]
    rcases List.mem_append.1 hev with hev | hev
    · obtain ⟨hlt, hle⟩ := h.mem_region.1 (List.mem_map_of_mem hev)
      rw [h'.thread_eq_nil (.inl hle) (region_ne hbelow hlt), List.append_nil]
      exact h.course ev hev
    · obtain ⟨hlt, -⟩ := h'.mem_region.1 (List.mem_map_of_mem hev)
      rw [h.thread_eq_nil (.inr hlt) (region_ne hbelow (by omega)), List.nil_append]
      exact h'.course ev hev
  · rw [List.map_append, List.mem_append]
    rcases List.mem_append.1 he with he | he
    · exact (h.others e he id hid).imp_left .inl
    · exact (h'.others e he id hid).imp_left .inr

/-- What is not about regions changes nothing. -/
theorem surround {before after : List Event} (h : Accounted hs start es evs)
    (hbelow : ∀ i, (hs i).region ≤ start) (hbefore : RegionFree before)
    (hafter : RegionFree after) : Accounted hs start (before ++ es ++ after) evs := by
  have hfirst : Accounted hs start before [] := .of_regionFree hbefore
  have hlast : Accounted hs (start + evs.length) after [] := .of_regionFree hafter
  have hall := (hfirst.append h hbelow).append hlast hbelow
  rwa [List.nil_append, List.append_nil] at hall

/-- A region with its clauses. Its body is a part of the run, and so is what its clause does, if one
runs. That clause may be handling what its own region has offered it. -/
theorem region {ev : Evaluation} {function : String} {released : Nat}
    {inside releases pause settlement after : List Event} (hid : ev.region = start + 1)
    (hbelow : ∀ i, (hs i).region ≤ start) (hbody : Accounted hs (start + 1) inside evs)
    (hclause : Accounted hs' (start + 1 + evs.length) after evs')
    (hhs' : ∀ i, (hs' i).region = start + 1 ∨ ∃ j, hs' i = hs j)
    (hreleases : RegionFree releases) (hpause : RegionFree pause)
    (hsettlement : ∀ e ∈ settlement, e.region? = some (start + 1))
    (hnested : WellNested settlement)
    (hcourse : ev.Course (.trace (.enterRegion ev.region function) ::
      .trace (.leaveRegion ev.region released) :: (settlement ++ thread (start + 1) after))) :
    Accounted hs start
      (regionReport (start + 1) function released inside releases pause settlement after)
      (ev :: evs ++ evs') := by
  refine ⟨?_, fun ev' hev => ?_, fun e he id hregion => ?_,
    hbody.nested.regionReport hreleases hpause hnested hclause.nested⟩
  · rw [List.map_append, List.map_cons, hid, hbody.numbered, hclause.numbered, List.cons_append,
      Nat.add_right_comm (start + 1), List.range'_append_1, List.cons_append, List.length_cons,
      List.length_append, List.range'_succ]
  · rcases List.mem_append.1 hev with hev | hev
    · rcases List.mem_cons.1 hev with rfl | hev
      · have hinside : thread (start + 1) inside = [] :=
          hbody.thread_eq_nil (.inl (Nat.le_refl _)) (region_ne hbelow (Nat.lt_succ_self _))
        rw [hid] at hcourse ⊢
        rw [thread_regionReport_self hinside hreleases hpause hsettlement]
        exact hcourse
      · obtain ⟨hlt, hle⟩ := hbody.mem_region.1 (List.mem_map_of_mem hev)
        -- The clause may send on for its own region and those around it, but for none inside.
        have hlater : thread ev'.region after = [] := by
          refine hclause.thread_eq_nil (.inl hle) fun i heq => ?_
          rcases hhs' i with hi | ⟨j, hj⟩
          · omega
          · rw [hj] at heq
            exact region_ne hbelow (Nat.lt_of_succ_lt hlt) j heq
        rw [thread_regionReport_other (Nat.ne_of_lt hlt) hreleases hpause hsettlement, hlater,
          List.append_nil]
        exact hbody.course ev' hev
    · obtain ⟨hlt, -⟩ := hclause.mem_region.1 (List.mem_map_of_mem hev)
      have hne : start + 1 < ev'.region := by omega
      have hearlier : thread ev'.region inside = [] :=
        hbody.thread_eq_nil (.inr hlt) (region_ne hbelow (Nat.lt_of_succ_lt hne))
      rw [thread_regionReport_other (Nat.ne_of_lt hne) hreleases hpause hsettlement, hearlier]
      exact hclause.course ev' hev
  · have hself : id = start + 1 → id ∈ (ev :: evs ++ evs').map (·.region) := by
      rintro rfl
      rw [← hid]
      exact List.mem_map_of_mem List.mem_cons_self
    rw [List.map_append, List.map_cons] at hself ⊢
    rcases mem_regionReport hreleases hpause hsettlement he with he | hown | hnone | he
    · exact (hbody.others e he id hregion).imp_left fun hmem =>
        List.mem_append_left _ (List.mem_cons_of_mem _ hmem)
    · rw [hown] at hregion
      exact .inl (hself (Option.some.inj hregion).symm)
    · rw [hnone] at hregion
      cases hregion
    · rcases hclause.others e he id hregion with hmem | ⟨i, rfl⟩
      · exact .inl (List.mem_append_right _ hmem)
      · rcases hhs' i with hi | ⟨j, hj⟩
        · have heq : (hs' i).region = id := Option.some.inj hregion
          exact .inl (hself (heq.symm.trans hi))
        · exact .inr ⟨j, by rw [hj]⟩

end Accounted

/-! ## Runs -/

theorem Command.regionFree (σ : Env n k) (c : Command n) (m : Machine) :
    RegionFree (c.run σ m).events := by
  cases c with
  | report remarks =>
    intro e he
    obtain ⟨remark, -, rfl⟩ := List.mem_map.1 he
    cases remark with
    | plain e => exact e.2.1
    | clause | failed | minted => rfl
  | keep | retain => exact List.forall_mem_nil _
  | defer => exact List.forall_mem_singleton.2 rfl

theorem Machine.leaving_regionFree (name : String) (count : Nat) (failure : Option Nat) :
    RegionFree (leaving name count failure) := by
  cases failure with
  | none => exact List.forall_mem_nil _
  | some id => exact List.forall_mem_singleton.2 rfl

/-- Inside a clause, the new clause handles something of its own region, and the others are
those from before. -/
theorem Env.handled_handle (σ : Env n k) (h : Handled) (i : Fin (k + 1)) :
    (σ.handle h).handled i = h ∨ ∃ j, (σ.handle h).handled i = σ.handled j := by
  cases i using Fin.cases with
  | zero => exact .inl rfl
  | succ i => exact .inr ⟨i, rfl⟩

theorem Env.region_handle_le {σ : Env n k} {h : Handled} {b : Nat} (hnew : h.region ≤ b)
    (hσ : ∀ i, (σ.handled i).region ≤ b) (i : Fin (k + 1)) :
    ((σ.handle h).handled i).region ≤ b := by
  rcases σ.handled_handle h i with hi | ⟨j, hj⟩
  · rw [hi]
    exact hnew
  · rw [hj]
    exact hσ j

/-- All that a clause reports of its own region is that it sends on what it handles. -/
theorem Accounted.eq_sentOn {σ : Env n k} {h : Handled} {start : Nat} {es : List Event}
    {evs : List Evaluation} (hes : Accounted (σ.handle h).handled start es evs)
    (hstart : h.region ≤ start) (hbelow : ∀ i, (σ.handled i).region < h.region) :
    ∀ e ∈ thread h.region es, e = h.sentOn := by
  intro e he
  obtain ⟨hmem, hregion⟩ := mem_thread.1 he
  rcases hes.others e hmem h.region hregion with hid | ⟨i, rfl⟩
  · obtain ⟨hlt, -⟩ := hes.mem_region.1 hid
    omega
  · rcases σ.handled_handle h i with hi | ⟨j, hj⟩
    · rw [hi]
    · have hlt := hbelow j
      have heq : ((σ.handle h).handled i).region = h.region := Option.some.inj hregion
      rw [hj] at heq
      omega

namespace Routine

/-- A region of a run, with what its body and its clause are known to do. -/
theorem accounted_guard {body : Routine sight n k α} {σ : Env n k} {m : Machine}
    {hs' : Fin k' → Handled} {settlement after : List Event} {evs' : List Evaluation}
    (hm : m.Plain) (hσ : ∀ i, (σ.handled i).region ≤ m.entered)
    (hbody : Accounted σ.handled (m.entered + 1) (body.run σ m.withRegion).events
      (body.evaluations σ m.withRegion))
    (pause : Nat → List PlainEvent) (ev : Evaluation) (hid : ev.region = m.entered + 1)
    (hclause : Accounted hs' (m.entered + 1 + (body.evaluations σ m.withRegion).length) after evs')
    (hhs' : ∀ i, (hs' i).region = m.entered + 1 ∨ ∃ j, hs' i = σ.handled j)
    (hsettlement : ∀ e ∈ settlement, e.region? = some (m.entered + 1))
    (hnested : WellNested settlement)
    (hcourse : ∀ function released, ev.Course (.trace (.enterRegion ev.region function) ::
      .trace (.leaveRegion ev.region released) ::
        (settlement ++ thread (m.entered + 1) after))) :
    Accounted σ.handled m.entered (bodyEvents body pause σ m ++ settlement ++ after)
      (ev :: body.evaluations σ m.withRegion ++ evs') := by
  have hreleases := RegionFree.of_isPlain
    ((body.run_plain σ hm.withRegion).returnTo_events m.stack.mark)
  have hpause : RegionFree (PlainEvent.events (pause (m.entered + 1))) :=
    .of_isPlain PlainEvent.forall_events
  exact .region hid hσ hbody hclause hhs' hreleases hpause hsettlement hnested (hcourse _ _)

/-- The regions of a run take their course. -/
theorem accounted_run (r : Routine sight n k α) (σ : Env n k) {m : Machine} (hm : m.Plain)
    (hσ : ∀ i, (σ.handled i).region ≤ m.entered) :
    Accounted σ.handled m.entered (r.run σ m).events (r.evaluations σ m) ∧
      (r.run σ m).machine.entered = m.entered + (r.evaluations σ m).length := by
  induction r generalizing m with
  | done | fail => exact ⟨.of_regionFree (List.forall_mem_nil _), rfl⟩
  | rethrow i =>
    refine ⟨⟨rfl, List.forall_mem_nil _, fun e he id _ => ?_, .other rfl .nil⟩, rfl⟩
    exact .inr ⟨i, List.mem_singleton.1 he⟩
  | act c =>
    refine ⟨.of_regionFree (c.regionFree σ m), ?_⟩
    cases c <;> rfl
  | look view next ih => exact ih _ σ hm hσ
  | mint p next ih =>
    obtain ⟨hrun, hentered⟩ := ih (σ.know (m.mint p).result) (m := (m.mint p).machine) hm hσ
    refine ⟨?_, hentered⟩
    have hraise : RegionFree (m.mint p).events := List.forall_mem_singleton.2 rfl
    have hall := hrun.surround hσ hraise (List.forall_mem_nil _)
    rwa [List.append_nil] at hall
  | takeUp name found missing ihf ihm =>
    simp only [run, evaluations]
    cases m.kept? name with
    | none => exact ihm σ hm hσ
    | some f => exact ihf (σ.know f) hm hσ
  | andThen first next failed ih ihn ihf =>
    obtain ⟨hfirst, hentered⟩ := ih σ hm hσ
    have hplain := first.run_plain σ hm
    have hσ' : ∀ i, (σ.handled i).region ≤ (first.run σ m).machine.entered := by
      intro i
      rw [hentered]
      exact Nat.le_add_right_of_le (hσ i)
    simp only [evaluations]
    cases hr : (first.run σ m).result with
    | ok a =>
      obtain ⟨hnext, hentered'⟩ := ihn a σ hplain hσ'
      rw [hentered] at hnext hentered'
      rw [run_andThen_ok hr, List.length_append, ← Nat.add_assoc]
      exact ⟨hfirst.append hnext hσ, hentered'⟩
    | error f =>
      obtain ⟨hnext, hentered'⟩ := ihf (σ.know f) hplain hσ'
      rw [hentered] at hnext hentered'
      rw [run_andThen_error hr, List.length_append, ← Nat.add_assoc]
      exact ⟨hfirst.append hnext hσ, hentered'⟩
  | call name body ih =>
    have hframe := hm.withFrame name
    obtain ⟨hbody, hentered⟩ := ih σ hframe hσ
    have hreleases := RegionFree.of_isPlain ((body.run_plain σ hframe).popTo_events m.stack.depth)
    have henter : RegionFree [.trace (.enter name m.stack.depth)] :=
      List.forall_mem_singleton.2 rfl
    rw [run, Machine.call_eq_popTo]
    refine ⟨?_, hentered⟩
    simp only [List.append_assoc (_ :: _)]
    exact hbody.surround hσ henter (hreleases.append (Machine.leaving_regionFree name _ _))
  | guard body pause selectors clauses ih ihc =>
    have hplain := body.run_plain σ hm.withRegion
    obtain ⟨hbody, hentered⟩ := ih σ hm.withRegion fun i => Nat.le_succ_of_le (hσ i)
    have hleft : (m.enterRegion (body.run σ)).machine.entered =
        m.entered + 1 + (body.evaluations σ m.withRegion).length := hentered
    have hnone : Accounted σ.handled
        (m.entered + 1 + (body.evaluations σ m.withRegion).length) [] [] :=
      .of_regionFree (List.forall_mem_nil _)
    cases hr : (m.enterRegion (body.run σ)).result.2 with
    | ok a =>
      have hall := accounted_guard hm hσ hbody pause ⟨m.entered + 1, selectors, none⟩ rfl hnone
        (fun i => .inr ⟨i, rfl⟩) (List.forall_mem_nil _) .nil fun _ _ => .completed rfl
      rw [run_guard_ok hr, evaluations_guard_ok hr]
      rw [List.append_nil, List.append_nil] at hall
      refine ⟨hall, ?_⟩
      rw [List.append_nil, List.length_cons, hleft]
      omega
    | error f =>
      cases hfirst : Selector.first? f.kind selectors with
      | none =>
        have hpassed := Selector.first?_eq_none hfirst
        have hall := accounted_guard hm hσ hbody pause ⟨m.entered + 1, selectors, some f⟩ rfl
          hnone (fun i => .inr ⟨i, rfl⟩) (List.forall_mem_singleton.2 rfl) (.other rfl .nil)
          fun _ _ => .passed rfl hpassed
        rw [run_guard_passed hr hfirst, evaluations_guard_passed hr hfirst]
        rw [List.append_nil (_ ++ _)] at hall
        refine ⟨hall, ?_⟩
        rw [List.append_nil, List.length_cons, hleft]
        omega
      | some c =>
        obtain ⟨selector, i⟩ := c
        obtain ⟨hget, haccepts, hbefore⟩ := Selector.first?_eq_some hfirst
        have hnew := σ.handled_handle ⟨f, m.entered + 1⟩
        have hle : m.entered + 1 ≤ (m.enterRegion (body.run σ)).machine.entered := by
          rw [hleft]
          exact Nat.le_add_right _ _
        have hσ' := Env.region_handle_le (h := ⟨f, m.entered + 1⟩) hle
          fun j => Nat.le_trans (hσ j) (Nat.le_of_succ_le hle)
        obtain ⟨hclause, hentered'⟩ := ihc i _ hplain.enterRegion hσ'
        rw [hleft] at hclause hentered'
        have hsent := hclause.eq_sentOn (Nat.le_add_right _ _)
          fun j => Nat.lt_succ_of_le (hσ j)
        have hall := accounted_guard hm hσ hbody pause ⟨m.entered + 1, selectors, some f⟩ rfl
          hclause (fun j => (hnew j).imp_left fun hj => by rw [hj])
          (List.forall_mem_singleton.2 rfl) (.other rfl .nil)
          fun _ _ => .taken rfl hget haccepts hbefore hsent
        rw [run_guard_taken hr hfirst, evaluations_guard_taken hr hfirst]
        rw [List.append_assoc] at hall
        refine ⟨hall, ?_⟩
        rw [List.length_append, List.length_cons]
        dsimp only
        rw [hentered']
        omega

end Routine

/-! ## Whole runs -/

/-- What the events of a whole run say about its regions. -/
structure RegionLaw (es : List Event) (evs : List Evaluation) : Prop where
  /-- Regions are numbered in the order in which they are entered. -/
  numbered : evs.map (·.region) = List.range' 1 evs.length
  course : ∀ ev ∈ evs, ev.Course (thread ev.region es)
  complete : ∀ e ∈ es, ∀ id, e.region? = some id → id ∈ evs.map (·.region)
  nested : WellNested es

theorem Routine.regionLaw (r : Routine sight 0 0 α) (config : Config) :
    let start := Machine.new config
    let s := r.run .empty start
    RegionLaw (s.events ++ s.machine.drain) (r.evaluations .empty start) := by
  intro start s
  have hplain : start.Plain := .new config
  have hdrain := RegionFree.of_isPlain (r.run_plain .empty hplain).drain_events
  have hbelow : ∀ i, (Env.empty.handled i).region ≤ start.entered := fun i => i.elim0
  have hall := (r.accounted_run .empty hplain hbelow).1.surround hbelow (List.forall_mem_nil _)
    hdrain
  refine ⟨hall.numbered, hall.course, fun e he id hid => ?_, hall.nested⟩
  rcases hall.others e he id hid with hmem | ⟨i, -⟩
  · exact hmem
  · exact i.elim0

/-- Every region that is evaluated takes its course: it is entered once and left once, all regions
are properly nested, and after that at most one failure is offered to its clauses, of which at most
one runs.

Of each region the events say this and nothing more (`Evaluation.Course`): it is entered, then left;
nothing follows if its body has ended with a value; if its body has failed, it is reported that no
clause takes the failure, or that the first clause runs that takes it; and only after that, and only
if a clause runs, may what this clause handles be sent on. It does not matter what the clause does
else. It may end with a value, raise a payload that another clause of the same region would take,
enter further regions, or send on what it or a clause around it handles. -/
theorem regions_take_their_course :
    (∀ {sight : Sight} {α : Type} (r : Routine sight 0 0 α) (config : Config),
      let start := Machine.new config
      let s := r.run .empty start
      RegionLaw (s.events ++ s.machine.drain) (r.evaluations .empty start)) ∧
    (∀ (tasks : List Task) (config : Config),
      let start := Machine.new config
      let steps := Task.runAll tasks start
      RegionLaw (steps.flatMap (·.events) ++ (steps.foldl (fun _ s => s.machine) start).drain)
        ((Task.routineAll tasks).evaluations .empty start)) ∧
    ∀ p : Startup,
      RegionLaw (Startup.events p.run) (p.routine.evaluations .empty (Machine.new p.config)) := by
  refine ⟨fun r config => r.regionLaw config, fun tasks config => ?_, fun p => ?_⟩
  · intro start steps
    have hlaw := (Task.routineAll tasks).regionLaw config
    obtain ⟨hevents, hmachine⟩ := Task.run_routineAll tasks .empty start
    simp only [start, hevents, hmachine] at hlaw
    exact hlaw
  · have hlaw := p.routine.regionLaw p.config
    simp only [p.run_routine] at hlaw
    exact hlaw

/-- The clause that takes an integer raises a record. The next clause would take it, but only the
region around gets to see it. -/
example :
    let tasks : List Task := [⟨none, [.guard [.guard [.raise (.int 1)]
      [(.kind .int, [.raise (.record ⟨2⟩)]), (.kind .record, [])]] [(.any, [.rethrow 0])]]⟩]
    let events := (Task.runAll tasks (Machine.new {})).flatMap (·.events)
    thread 1 events = [.trace (.enterRegion 1 "<root>"), .trace (.leaveRegion 1 0),
        .trace (.caught 2 1 0 .any), .trace (.rethrow 2 1 (.record ⟨2⟩))] ∧
      thread 2 events = [.trace (.enterRegion 2 "<root>"), .trace (.leaveRegion 2 0),
        .trace (.caught 1 2 0 (.kind .int))] := by
  decide

end Unwind
