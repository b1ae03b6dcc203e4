import Unwind.Proofs.RegionNumbers

/-!
# Active regions

At each point of a run the active regions are those whose bodies are running. What is around a point
is a list of calls, bodies and clauses, from which the active regions and their depths can be read
off (`Enclosure.running`); they can be read off the events before the point as well, as the regions
that were entered and not left. `Moment.Regular` says all this of a point. One lemma for each kind
of step shows that it is kept, and `Routine.Visits.regular` that it holds throughout a run.
-/

namespace Unwind

variable {sight : Sight} {n k : Nat} {α β : Type}

/-! ## Moments of a run -/

/-- A call, or a part of a region, that a run is in. -/
inductive Enclosure where
  | call (name : String)
  | body (region : Nat)
  | clause (region : Nat)

namespace Enclosure

/-- The number of frames inside of `path`, of which one is there before any call. -/
def depth : (path : List Enclosure) → Nat
  | [] => 1
  | .call _ :: outer => depth outer + 1
  | .body _ :: outer | .clause _ :: outer => depth outer

/-- The regions whose bodies are around a point, outermost first, each with the number of frames
around its body. The path to the point is given from its inner end. -/
def running : (path : List Enclosure) → List (Nat × Nat)
  | [] => []
  | .body region :: outer => running outer ++ [(region, depth outer)]
  | .call _ :: outer | .clause _ :: outer => running outer

end Enclosure

/-- A point of a run. -/
structure Moment where
  /-- What is around it, innermost first. -/
  path : List Enclosure
  /-- What was reported so far. -/
  past : List Event
  machine : Machine

namespace Moment

def start (config : Config) : Moment :=
  ⟨[], [], Machine.new config⟩

/-- What can be seen of the active regions: their numbers and depths, outermost first. -/
def active (p : Moment) : List (Nat × Nat) :=
  p.machine.snapshot.regions

def after (p : Moment) (s : Step β) : Moment :=
  ⟨p.path, p.past ++ s.events, s.machine⟩

def within (p : Moment) (e : Enclosure) : Moment :=
  ⟨e :: p.path, p.past, p.machine⟩

/-- The start of a function that is called. -/
def inCall (p : Moment) (name : String) : Moment :=
  (p.after ⟨[.trace (.enter name p.machine.stack.depth)], (), p.machine.withFrame name⟩).within
    (.call name)

/-- The number of the region that is entered next. -/
def nextRegion (p : Moment) : Nat :=
  p.machine.entered + 1

/-- The event of entering a region. -/
def entry (p : Moment) : Event :=
  .trace (.enterRegion p.nextRegion p.machine.stack.topName)

/-- The start of the body of a region. -/
def inBody (p : Moment) : Moment :=
  (p.after ⟨[p.entry], (), p.machine.withRegion⟩).within (.body p.nextRegion)

end Moment

namespace Routine

/-- A region up to the start of the clause that takes the failure of its body. -/
def takenStep (body : Routine sight n k α) (pause : Nat → List PlainEvent) (σ : Env n k)
    (m : Machine) (f : Failure) (selector : Selector) (i : Nat) : Step Unit where
  events := bodyEvents body pause σ m ++ [.trace (.caught f.id (m.entered + 1) i selector)]
  result := ()
  machine := (m.enterRegion (body.run σ)).machine

/-- The run of a routine from one moment comes to another one. -/
inductive Visits : {n k : Nat} → {α : Type} → Routine sight n k α → Env n k → Moment → Moment →
    Prop where
  | here {n k : Nat} {α : Type} {r : Routine sight n k α} {σ : Env n k} {p : Moment} :
    Visits r σ p p
  | look {n k : Nat} {α τ : Type} {view : View sight n k τ} {next : τ → Routine sight n k α}
    {σ : Env n k} {p q : Moment} : Visits (next (view.see σ p.machine)) σ p q →
    Visits (.look view next) σ p q
  | mint {n k : Nat} {α : Type} {payload : Payload} {next : Routine sight (n + 1) k α} {σ : Env n k}
    {p q : Moment} :
    Visits next (σ.know (p.machine.mint payload).result) (p.after (p.machine.mint payload)) q →
    Visits (.mint payload next) σ p q
  | found {n k : Nat} {α : Type} {name : String} {found : Routine sight (n + 1) k α}
    {missing : Routine sight n k α} {σ : Env n k} {p q : Moment} {f : Failure} :
    p.machine.kept? name = some f → Visits found (σ.know f) p q →
    Visits (.takeUp name found missing) σ p q
  | missing {n k : Nat} {α : Type} {name : String} {found : Routine sight (n + 1) k α}
    {missing : Routine sight n k α} {σ : Env n k} {p q : Moment} :
    p.machine.kept? name = none → Visits missing σ p q →
    Visits (.takeUp name found missing) σ p q
  | first {n k : Nat} {α β : Type} {first : Routine sight n k α} {next : α → Routine sight n k β}
    {failed : Routine sight (n + 1) k β} {σ : Env n k} {p q : Moment} : Visits first σ p q →
    Visits (.andThen first next failed) σ p q
  | next {n k : Nat} {α β : Type} {first : Routine sight n k α} {next : α → Routine sight n k β}
    {failed : Routine sight (n + 1) k β} {σ : Env n k} {p q : Moment} {a : α} :
    (first.run σ p.machine).result = .ok a →
    Visits (next a) σ (p.after (first.run σ p.machine)) q →
    Visits (.andThen first next failed) σ p q
  | failed {n k : Nat} {α β : Type} {first : Routine sight n k α} {next : α → Routine sight n k β}
    {failed : Routine sight (n + 1) k β} {σ : Env n k} {p q : Moment} {f : Failure} :
    (first.run σ p.machine).result = .error f →
    Visits failed (σ.know f) (p.after (first.run σ p.machine)) q →
    Visits (.andThen first next failed) σ p q
  | call {n k : Nat} {α : Type} {name : String} {body : Routine sight n k α} {σ : Env n k}
    {p q : Moment} : Visits body σ (p.inCall name) q → Visits (.call name body) σ p q
  | body {n k : Nat} {α : Type} {body : Routine sight n k α} {pause : Nat → List PlainEvent}
    {selectors : List Selector} {clauses : Nat → Routine sight (n + 1) (k + 1) α} {σ : Env n k}
    {p q : Moment} : Visits body σ p.inBody q → Visits (.guard body pause selectors clauses) σ p q
  /-- The body of a region is over. -/
  | left {n k : Nat} {α : Type} {body : Routine sight n k α} {pause : Nat → List PlainEvent}
    {selectors : List Selector} {clauses : Nat → Routine sight (n + 1) (k + 1) α} {σ : Env n k}
    {p : Moment} :
    Visits (.guard body pause selectors clauses) σ p
      (p.after (p.machine.enterRegion (body.run σ)))
  | clause {n k : Nat} {α : Type} {body : Routine sight n k α} {pause : Nat → List PlainEvent}
    {selectors : List Selector} {clauses : Nat → Routine sight (n + 1) (k + 1) α} {σ : Env n k}
    {p q : Moment} {f : Failure} {selector : Selector} {i : Nat} :
    (p.machine.enterRegion (body.run σ)).result.2 = .error f →
    Selector.first? f.kind selectors = some (selector, i) →
    Visits (clauses i) (σ.handle ⟨f, p.nextRegion⟩)
      ((p.after (body.takenStep pause σ p.machine f selector i)).within (.clause p.nextRegion)) q →
    Visits (.guard body pause selectors clauses) σ p q

theorem visits_here {r : Routine sight n k α} {σ : Env n k} {p : Moment} {pt : Point}
    (h : pt = ⟨σ, p.machine⟩) : ∃ q, r.Visits σ p q ∧ q.machine = pt.machine := by
  rw [h]
  exact ⟨p, .here, rfl⟩

/-- A run comes to a moment at each of its points. -/
theorem exists_visits {r : Routine sight n k α} {σ : Env n k} {p : Moment} {pt : Point}
    (h : pt ∈ r.points σ p.machine) : ∃ q, r.Visits σ p q ∧ q.machine = pt.machine := by
  induction r generalizing p with
  | done | fail | rethrow | act => exact visits_here (List.mem_singleton.1 h)
  | look view next ih =>
    rcases List.mem_cons.1 h with h | h
    · exact visits_here h
    · obtain ⟨q, hq, hm⟩ := ih _ h
      exact ⟨q, .look hq, hm⟩
  | mint payload next ih =>
    rcases List.mem_cons.1 h with h | h
    · exact visits_here h
    · obtain ⟨q, hq, hm⟩ := ih (p := p.after (p.machine.mint payload)) h
      exact ⟨q, .mint hq, hm⟩
  | takeUp name found missing ihf ihm =>
    rcases List.mem_cons.1 h with h | h
    · exact visits_here h
    · cases hkept : p.machine.kept? name with
      | none =>
        rw [hkept] at h
        obtain ⟨q, hq, hm⟩ := ihm h
        exact ⟨q, .missing hkept hq, hm⟩
      | some f =>
        rw [hkept] at h
        obtain ⟨q, hq, hm⟩ := ihf h
        exact ⟨q, .found hkept hq, hm⟩
  | andThen first next failed ih ihn ihf =>
    rw [points] at h
    rcases List.mem_append.1 h with h | h
    · obtain ⟨q, hq, hm⟩ := ih h
      exact ⟨q, .first hq, hm⟩
    · cases hr : (first.run σ p.machine).result with
      | ok a =>
        rw [hr] at h
        obtain ⟨q, hq, hm⟩ := ihn a (p := p.after (first.run σ p.machine)) h
        exact ⟨q, .next hr hq, hm⟩
      | error f =>
        rw [hr] at h
        obtain ⟨q, hq, hm⟩ := ihf (p := p.after (first.run σ p.machine)) h
        exact ⟨q, .failed hr hq, hm⟩
  | call name body ih =>
    rcases List.mem_cons.1 h with h | h
    · exact visits_here h
    · obtain ⟨q, hq, hm⟩ := ih (p := p.inCall name) h
      exact ⟨q, .call hq, hm⟩
  | guard body pause selectors clauses ih ihc =>
    have hbody (h : pt ∈ bodyPoints body σ p.machine) :
        ∃ q, (guard body pause selectors clauses).Visits σ p q ∧ q.machine = pt.machine := by
      rcases List.mem_cons.1 h with h | h
      · exact visits_here h
      · obtain ⟨q, hq, hm⟩ := ih (p := p.inBody) h
        exact ⟨q, .body hq, hm⟩
    cases hr : (p.machine.enterRegion (body.run σ)).result.2 with
    | ok a =>
      rw [points_guard_ok hr, List.mem_append, List.mem_singleton] at h
      rcases h with h | rfl
      · exact hbody h
      · exact ⟨_, .left, rfl⟩
    | error f =>
      cases hfirst : Selector.first? f.kind selectors with
      | none =>
        rw [points_guard_passed hr hfirst, List.mem_append, List.mem_singleton] at h
        rcases h with h | rfl
        · exact hbody h
        · exact ⟨_, .left, rfl⟩
      | some c =>
        rw [points_guard_taken hr hfirst, List.mem_append, List.mem_cons] at h
        rcases h with h | rfl | h
        · exact hbody h
        · exact ⟨_, .left, rfl⟩
        · let t := body.takenStep pause σ p.machine f c.1 c.2
          obtain ⟨q, hq, hm⟩ := ihc c.2 (p := (p.after t).within (.clause p.nextRegion)) h
          exact ⟨q, .clause hr hfirst hq, hm⟩

end Routine

namespace Moment

/-- One moment comes before another one, inside of all that is around it. -/
structure Before (p q : Moment) : Prop where
  path : p.path <:+ q.path
  past : p.past <+: q.past

namespace Before

variable {p q : Moment}

theorem refl (p : Moment) : p.Before p :=
  ⟨List.suffix_refl _, List.prefix_refl _⟩

theorem of_after {s : Step β} (h : (p.after s).Before q) : p.Before q :=
  ⟨h.path, (List.prefix_append _ _).trans h.past⟩

theorem of_within {e : Enclosure} (h : (p.within e).Before q) : p.Before q :=
  ⟨(List.suffix_cons _ _).trans h.path, h.past⟩

end Before

end Moment

/-! ## Regular moments -/

namespace Moment

/-- The active regions are those whose bodies are running. -/
structure Regular (p : Moment) : Prop where
  depth : p.machine.stack.depth = Enclosure.depth p.path
  /-- They are the bodies around this moment. -/
  running : p.active = Enclosure.running p.path
  /-- Regions are numbered in the order in which they are entered. -/
  entered : regionsEntered p.past = List.range' 1 p.machine.entered
  left : regionsLeft p.past ⊆ regionsEntered p.past
  /-- They are the regions that were entered and not left. -/
  isOpen : ∀ id, id ∈ p.active.map (·.1) ↔ id ∈ regionsEntered p.past ∧ id ∉ regionsLeft p.past
  /-- A region has been left before its clause runs. -/
  handling : ∀ id, .clause id ∈ p.path → id ∈ regionsLeft p.past
  /-- From outside to inside the numbers increase, and the depths do not decrease. -/
  ascending : p.active.Pairwise fun r s => r.1 < s.1 ∧ r.2 ≤ s.2
  bounded : ∀ r ∈ p.active, 1 ≤ r.2 ∧ r.2 ≤ p.machine.stack.depth

theorem active_after {p : Moment} {s : Step β} (h : p.machine.Grows s.machine) :
    (p.after s).active = p.active := by
  rw [active, active, after, Machine.snapshot, Machine.snapshot, h.regions]

theorem active_inBody (p : Moment) :
    p.inBody.active = p.active ++ [(p.nextRegion, p.machine.stack.depth)] := by
  have hregions : p.inBody.machine.regions =
      ⟨p.nextRegion, p.machine.stack.depth⟩ :: p.machine.regions := rfl
  rw [active, Machine.snapshot, hregions, List.reverse_cons, List.map_append]
  rfl

theorem regular_start (config : Config) : (start config).Regular where
  depth := rfl
  running := rfl
  entered := rfl
  left := List.Subset.refl _
  isOpen := by simp [active, start, Machine.snapshot, Machine.new, regionsEntered]
  handling := fun _ h => absurd h List.not_mem_nil
  ascending := .nil
  bounded := List.forall_mem_nil _

namespace Regular

variable {p : Moment}

theorem mem_entered (h : p.Regular) {id : Nat} :
    id ∈ regionsEntered p.past ↔ 1 ≤ id ∧ id ≤ p.machine.entered := by
  rw [h.entered, List.mem_range'_1]
  omega

/-- Whatever runs to its end changes neither the active regions nor what is around. -/
theorem after (h : p.Regular) {s : Step β} (hgrows : p.machine.Grows s.machine)
    (hclosed : Closed p.machine.entered s.machine.entered s.events) : (p.after s).Regular := by
  have hactive := active_after hgrows
  have hdepth : s.machine.stack.depth = p.machine.stack.depth := by
    obtain ⟨acquired, hstack⟩ := hgrows.stack
    rw [hstack]
    rfl
  have hentered : regionsEntered (p.after s).past =
      regionsEntered p.past ++ regionsEntered s.events := regionsEntered_append _ _
  have hleft : regionsLeft (p.after s).past = regionsLeft p.past ++ regionsLeft s.events :=
    regionsLeft_append _ _
  refine ⟨hdepth.trans h.depth, hactive.trans h.running, ?_, ?_, fun id => ?_, fun id hid => ?_,
    ?_, ?_⟩
  · rw [hentered, h.entered, hclosed.entered, Nat.add_comm p.machine.entered, List.range'_append_1,
      Nat.add_sub_of_le hclosed.le]
    rfl
  · rw [hentered, hleft]
    intro id hid
    rcases List.mem_append.1 hid with hid | hid
    · exact List.mem_append_left _ (h.left hid)
    · exact List.mem_append_right _ ((hclosed.left id).1 hid)
  · rw [hactive, hentered, hleft, h.isOpen, List.mem_append, List.mem_append, hclosed.left]
    constructor
    · rintro ⟨hid, hopen⟩
      refine ⟨.inl hid, ?_⟩
      rintro (hold | hnew)
      · exact hopen hold
      · exact Nat.not_le_of_lt (hclosed.mem_entered.1 hnew).1 (h.mem_entered.1 hid).2
    · rintro ⟨hid | hnew, hopen⟩
      · exact ⟨hid, fun hold => hopen (.inl hold)⟩
      · exact absurd (.inr hnew) hopen
  · rw [hleft]
    exact List.mem_append_left _ (h.handling id hid)
  · rw [hactive]
    exact h.ascending
  · rw [hactive]
    intro r hr
    obtain ⟨hpos, hle⟩ := h.bounded r hr
    exact ⟨hpos, Nat.le_trans hle (Nat.le_of_eq hdepth.symm)⟩

/-- A clause runs after its region has been left. -/
theorem inClause (h : p.Regular) {id : Nat} (hid : id ∈ regionsLeft p.past) :
    (p.within (.clause id)).Regular := by
  refine ⟨h.depth, h.running, h.entered, h.left, h.isOpen, fun id' hid' => ?_, h.ascending,
    h.bounded⟩
  cases hid' with
  | head => exact hid
  | tail _ hid' => exact h.handling id' hid'

theorem inCall (h : p.Regular) (name : String) : (p.inCall name).Regular := by
  have hentered : regionsEntered (p.inCall name).past = regionsEntered p.past :=
    (regionsEntered_append _ _).trans (List.append_nil _)
  have hleft : regionsLeft (p.inCall name).past = regionsLeft p.past :=
    (regionsLeft_append _ _).trans (List.append_nil _)
  refine ⟨congrArg (· + 1) h.depth, h.running, ?_, ?_, fun id => ?_, fun id hid => ?_,
    h.ascending, fun r hr => ?_⟩
  · rw [hentered]
    exact h.entered
  · rw [hentered, hleft]
    exact h.left
  · rw [hentered, hleft]
    exact h.isOpen id
  · rw [hleft]
    cases hid with
    | tail _ hid => exact h.handling id hid
  · obtain ⟨hpos, hle⟩ := h.bounded r hr
    exact ⟨hpos, Nat.le_succ_of_le hle⟩

/-- A region that is entered becomes the innermost one. -/
theorem inBody (h : p.Regular) : p.inBody.Regular := by
  have hentered : regionsEntered p.inBody.past = regionsEntered p.past ++ [p.nextRegion] :=
    regionsEntered_append _ _
  have hleft : regionsLeft p.inBody.past = regionsLeft p.past :=
    (regionsLeft_append _ _).trans (List.append_nil _)
  -- All regions before have lower numbers, whether they are active or not.
  have hbelow : ∀ id ∈ regionsEntered p.past, id < p.nextRegion := fun id hid =>
    Nat.lt_succ_of_le (h.mem_entered.1 hid).2
  have hfresh : p.nextRegion ∉ regionsLeft p.past := fun hid =>
    Nat.lt_irrefl _ (hbelow _ (h.left hid))
  have hactive : ∀ r ∈ p.active, r.1 < p.nextRegion := fun r hr =>
    hbelow r.1 ((h.isOpen r.1).1 (List.mem_map_of_mem hr)).1
  refine ⟨h.depth, ?_, ?_, ?_, fun id => ?_, fun id hid => ?_, ?_, fun r hr => ?_⟩
  · rw [active_inBody, h.running, h.depth]
    rfl
  · have hnext : p.nextRegion = 1 + p.machine.entered := Nat.add_comm _ _
    rw [hentered, h.entered, hnext, ← List.range'_1_concat]
    rfl
  · rw [hentered, hleft]
    exact fun id hid => List.mem_append_left _ (h.left hid)
  · rw [active_inBody, hentered, hleft, List.map_append, List.mem_append, List.mem_append, h.isOpen,
      List.map_singleton, List.mem_singleton]
    constructor
    · rintro (⟨hid, hopen⟩ | rfl)
      · exact ⟨.inl hid, hopen⟩
      · exact ⟨.inr rfl, hfresh⟩
    · rintro ⟨hid | rfl, hopen⟩
      · exact .inl ⟨hid, hopen⟩
      · exact .inr rfl
  · rw [hleft]
    cases hid with
    | tail _ hid => exact h.handling id hid
  · rw [active_inBody]
    refine List.pairwise_append.2 ⟨h.ascending, List.pairwise_singleton _ _, fun r hr s hs => ?_⟩
    cases List.mem_singleton.1 hs
    exact ⟨hactive r hr, (h.bounded r hr).2⟩
  · rw [active_inBody] at hr
    rcases List.mem_append.1 hr with hr | hr
    · exact h.bounded r hr
    · cases List.mem_singleton.1 hr
      exact ⟨Nat.succ_le_succ (Nat.zero_le _), Nat.le_refl _⟩

end Regular

end Moment

namespace Routine

/-- The moments of a run are regular. -/
theorem Visits.regular {r : Routine sight n k α} {σ : Env n k} {p q : Moment} (h : r.Visits σ p q)
    (hplain : p.machine.Plain) (hp : p.Regular) : q.Regular := by
  induction h with
  | here => exact hp
  | look _ ih => exact ih hplain hp
  | @mint _ _ _ payload _ _ p _ _ ih =>
    have hgrows : p.machine.Grows (p.machine.mint payload).machine :=
      ⟨rfl, ⟨[], rfl⟩, rfl, Nat.le_succ _, Nat.le_refl _⟩
    exact ih hplain (hp.after hgrows (.of_others (List.forall_mem_singleton.2 rfl)))
  | found _ _ ih | missing _ _ ih | first _ ih => exact ih hplain hp
  | @next _ _ _ _ first _ _ σ p _ _ _ _ ih | @failed _ _ _ _ first _ _ σ p _ _ _ _ ih =>
    exact ih (first.run_plain σ hplain)
      (hp.after (first.run_grows σ p.machine) (first.closed_run σ hplain))
  | @call _ _ _ name _ _ _ _ _ ih => exact ih (hplain.withFrame name) (hp.inCall name)
  | body _ ih => exact ih hplain.withRegion hp.inBody
  | @left _ _ _ body _ _ _ σ p =>
    have hbody := body.closed_run σ hplain.withRegion
    exact hp.after (body.enterRegion_grows σ p.machine)
      (Machine.closed_enterRegion (body.run_plain σ hplain.withRegion) hbody)
  | @clause _ _ _ body pause _ _ σ p _ f selector i _ _ _ ih =>
    have hbody := closed_bodyEvents hplain (body.closed_run σ hplain.withRegion) pause
    have hcaught : Closed (p.machine.enterRegion (body.run σ)).machine.entered _
        [.trace (.caught f.id p.nextRegion i selector)] :=
      .of_others (List.forall_mem_singleton.2 rfl)
    have hclosed := hbody.append hcaught
    have hentered : p.nextRegion ≤ (p.machine.enterRegion (body.run σ)).machine.entered :=
      (body.run_grows σ p.machine.withRegion).entered
    have hleft := (hclosed.left _).2 (hclosed.mem_entered.2 ⟨Nat.lt_succ_self _, hentered⟩)
    have hafter : (p.after (body.takenStep pause σ p.machine f selector i)).Regular :=
      hp.after (body.enterRegion_grows σ p.machine) hclosed
    refine ih (body.run_plain σ hplain.withRegion).enterRegion (hafter.inClause ?_)
    rw [Moment.after, regionsLeft_append]
    exact List.mem_append_right _ hleft

theorem Visits.before {r : Routine sight n k α} {σ : Env n k} {p q : Moment} (h : r.Visits σ p q) :
    p.Before q := by
  induction h with
  | here => exact .refl _
  | look _ ih | found _ _ ih | missing _ _ ih | first _ ih => exact ih
  | mint _ ih | next _ _ ih | failed _ _ ih => exact ih.of_after
  | call _ ih | body _ ih | clause _ _ _ ih => exact ih.of_within.of_after
  | left => exact (Moment.Before.refl _).of_after

theorem prefix_append_append {past before es rest : List Event} (h : past <+: before ++ es) :
    past <+: before ++ (es ++ rest) := by
  rw [← List.append_assoc]
  exact h.trans (List.prefix_append _ _)

/-- What has been reported at a moment is the first part of what the run reports. -/
theorem Visits.past_prefix {r : Routine sight n k α} {σ : Env n k} {p q : Moment}
    (h : r.Visits σ p q) : q.past <+: p.past ++ (r.run σ p.machine).events := by
  induction h with
  | here => exact List.prefix_append _ _
  | look _ ih => exact ih
  | mint _ ih =>
    rw [Moment.after, List.append_assoc] at ih
    exact ih
  | found hkept _ ih | missing hkept _ ih =>
    simp only [run, hkept]
    exact ih
  | first _ ih =>
    rw [run]
    exact prefix_append_append ih
  | next hr _ ih =>
    rw [Moment.after, List.append_assoc] at ih
    rw [run_andThen_ok hr]
    exact ih
  | failed hr _ ih =>
    rw [Moment.after, List.append_assoc] at ih
    rw [run_andThen_error hr]
    exact ih
  | @call _ _ _ name body σ p _ _ ih =>
    rw [Moment.inCall, Moment.within, Moment.after, List.append_assoc] at ih
    rw [run, Machine.call_eq_popTo]
    exact prefix_append_append (prefix_append_append ih)
  | @body _ _ _ body _ _ _ σ p _ _ ih =>
    rw [Moment.inBody, Moment.within, Moment.after, List.append_assoc] at ih
    exact prefix_append_append (prefix_append_append (prefix_append_append ih))
  | left => exact prefix_append_append (List.prefix_refl _)
  | clause hr hfirst _ ih =>
    rw [Moment.within, Moment.after, List.append_assoc, takenStep, List.append_assoc] at ih
    rw [run_guard_taken hr hfirst]
    exact ih

/-- Whatever is active at a moment was active at the start, or was entered on the way from there to
the moment and is still around it. -/
theorem Visits.exists_entry {r : Routine sight n k α} {σ : Env n k} {p q : Moment}
    (h : r.Visits σ p q) {a : Nat × Nat} (ha : a ∈ q.active) :
    a ∈ p.active ∨ ∃ e, r.Visits σ p e ∧ a = (e.nextRegion, e.machine.stack.depth) ∧
      e.inBody.Before q := by
  induction h with
  | here => exact .inl ha
  | look _ ih => exact (ih ha).imp_right (Exists.imp fun _ => And.imp_left .look)
  | mint _ ih => exact (ih ha).imp_right (Exists.imp fun _ => And.imp_left .mint)
  | found hkept _ ih =>
    exact (ih ha).imp_right (Exists.imp fun _ => And.imp_left (.found hkept))
  | missing hkept _ ih =>
    exact (ih ha).imp_right (Exists.imp fun _ => And.imp_left (.missing hkept))
  | first _ ih => exact (ih ha).imp_right (Exists.imp fun _ => And.imp_left .first)
  | @next _ _ _ _ first _ _ σ p _ _ hr _ ih =>
    rw [← Moment.active_after (first.run_grows σ p.machine)]
    exact (ih ha).imp_right (Exists.imp fun _ => And.imp_left (.next hr))
  | @failed _ _ _ _ first _ _ σ p _ _ hr _ ih =>
    rw [← Moment.active_after (first.run_grows σ p.machine)]
    exact (ih ha).imp_right (Exists.imp fun _ => And.imp_left (.failed hr))
  | call _ ih => exact (ih ha).imp_right (Exists.imp fun _ => And.imp_left .call)
  | @body _ _ _ body _ _ _ σ p q h ih =>
    rcases ih ha with ha | hlater
    -- What is new at the start of the body is the region that is entered here.
    · rw [Moment.active_inBody, List.mem_append, List.mem_singleton] at ha
      exact ha.imp_right fun ha => ⟨p, .here, ha, h.before⟩
    · exact .inr (hlater.imp fun _ => And.imp_left .body)
  | @left _ _ _ body _ _ _ σ p =>
    rw [Moment.active_after (body.enterRegion_grows σ p.machine)] at ha
    exact .inl ha
  | @clause _ _ _ body pause _ _ σ p _ f selector i hr hfirst _ ih =>
    have hactive : (p.after (body.takenStep pause σ p.machine f selector i)).active = p.active :=
      Moment.active_after (body.enterRegion_grows σ p.machine)
    rw [← hactive]
    exact (ih ha).imp_right (Exists.imp fun _ => And.imp_left (.clause hr hfirst))

/-- The body of a region leaves the region as the last one that is active, and this is the one that
is taken out. -/
theorem regions_after_body (body : Routine sight n k α) (σ : Env n k) (m : Machine) :
    let s := body.run σ m.withRegion
    s.machine.snapshot.regions = m.snapshot.regions ++ [(m.entered + 1, m.stack.depth)] ∧
      (s.machine.withoutRegion (m.entered + 1)).snapshot.regions =
        s.machine.snapshot.regions.dropLast := by
  intro s
  have hgrows := body.run_grows σ m.withRegion
  have hbefore : s.machine.snapshot.regions =
      m.snapshot.regions ++ [(m.entered + 1, m.stack.depth)] :=
    (Moment.active_after (p := ⟨[], [], m.withRegion⟩) hgrows).trans
      (Moment.active_inBody ⟨[], [], m⟩)
  have hregions : (s.machine.withoutRegion (m.entered + 1)).regions = m.regions :=
    hgrows.enterRegion.1.2
  refine ⟨hbefore, ?_⟩
  rw [hbefore, List.dropLast_concat, Machine.snapshot, hregions]
  rfl

end Routine

/-! ## Whole runs -/

/-- What is active during a run of `r` that reports `es`. -/
structure RegionsRun (r : Routine sight 0 0 α) (config : Config) (es : List Event) : Prop where
  /-- All points of the run are accounted for. -/
  points : ∀ pt ∈ r.points .empty (Machine.new config),
    ∃ q, r.Visits .empty (.start config) q ∧ q.machine = pt.machine
  past : ∀ q, r.Visits .empty (.start config) q → q.past <+: es
  regular : ∀ q, r.Visits .empty (.start config) q → q.Regular
  /-- Every active region was entered at an earlier moment, at the depth that it shows, and its body
  is around. -/
  entry : ∀ q, r.Visits .empty (.start config) q → ∀ a ∈ q.active,
    ∃ e, r.Visits .empty (.start config) e ∧ a = (e.nextRegion, e.machine.stack.depth) ∧
      e.inBody.Before q
  /-- A region is not active while its clause runs. -/
  handling : ∀ q, r.Visits .empty (.start config) q → ∀ id, .clause id ∈ q.path →
    id ∉ q.active.map (·.1)

theorem Routine.regionsRun (r : Routine sight 0 0 α) (config : Config) {es : List Event}
    (hes : (r.run .empty (Machine.new config)).events = es) : RegionsRun r config es := by
  have hregular (q : Moment) (h : r.Visits .empty (.start config) q) : q.Regular :=
    h.regular (.new config) (Moment.regular_start config)
  refine ⟨fun pt hpt => exists_visits hpt, fun q h => ?_, hregular, fun q h a ha => ?_,
    fun q h id hid hmem => ?_⟩
  · rw [← hes]
    exact h.past_prefix
  · exact (h.exists_entry ha).resolve_left List.not_mem_nil
  · exact (((hregular q h).isOpen id).1 hmem).2 ((hregular q h).handling id hid)

/-- The active regions are exactly the regions whose bodies are running. At every moment of every
run they are the bodies around it, from outside to inside, and also the regions that were entered
and not left; a region whose clause runs is not among them, but the regions around that clause are.
Their numbers increase, and their depths are those of the stack when they were entered, do not
decrease, and lie between one and the depth of the stack now (`Moment.Regular`). So what is taken
out when a body is over is the last of them. -/
theorem active_regions_are_running :
    (∀ {sight : Sight} {α : Type} (r : Routine sight 0 0 α) (config : Config),
      RegionsRun r config (r.run .empty (Machine.new config)).events) ∧
    (∀ (tasks : List Task) (config : Config),
      RegionsRun (Task.routineAll tasks) config
        ((Task.runAll tasks (Machine.new config)).flatMap (·.events))) ∧
    (∀ p : Startup, RegionsRun p.routine p.config p.run.events) ∧
    ∀ {sight : Sight} {n k : Nat} {α : Type} (body : Routine sight n k α) (σ : Env n k)
      (m : Machine),
      let s := body.run σ m.withRegion
      s.machine.snapshot.regions = m.snapshot.regions ++ [(m.entered + 1, m.stack.depth)] ∧
        (s.machine.withoutRegion (m.entered + 1)).snapshot.regions =
          s.machine.snapshot.regions.dropLast := by
  refine ⟨fun r config => ?_, fun tasks config => ?_, fun p => ?_, Routine.regions_after_body⟩
  · exact r.regionsRun config rfl
  · exact (Task.routineAll tasks).regionsRun config (Task.run_routineAll tasks .empty _).1
  · exact p.routine.regionsRun p.config (congrArg Step.events p.run_routine)

/-- In a clause in a function that is called in the body of another region. -/
theorem active_regions_are_running_in_clause :
    ∃ q : Moment, q.path = [.clause 2, .call "f", .body 1] ∧ q.active = [(1, 1)] ∧
      q.machine.stack.depth = 2 ∧ q.Regular := by
  let inner : BlindRoutine 0 0 Unit :=
    .guard (.raise (.int 1)) (fun _ => []) [.any] fun _ => .act (.report [])
  let r : BlindRoutine 0 0 Unit := .guard (.call "f" inner) (fun _ => []) [] fun _ => .done ()
  have hregular := (active_regions_are_running.1 r {}).regular _
    (.body (.call (.clause rfl rfl .here)))
  exact ⟨_, rfl, rfl, rfl, hregular⟩

end Unwind
