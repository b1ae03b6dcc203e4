import Unwind.Proofs.Built
import Unwind.Proofs.Custody

/-!
# The identity of a failure

Programs keep to their ledgers: an action that uses only failures it has been given has a ledger
for every run (`Action.Honest`), and the statements of a program are such actions. So the numbers of
failures, their payloads and origins can be read off the raises of a run.
-/

namespace Unwind

variable {α β : Type}

namespace Action

/-- The action uses no failures but those in `known`, those that are set aside and those that it
comes by itself. -/
def Honest (known : List Failure) (act : Action α) : Prop :=
  ∀ (m : Machine) (L : Ledger), (∀ entry ∈ m.kept, L.Holds entry.2) → (∀ f ∈ known, L.Holds f) →
    ∃ L', Custody m (act m) L L'

namespace Honest

variable {known : List Failure}

theorem done (a : α) : Honest known (done a) :=
  fun _ L _ _ => ⟨L, .done a⟩

theorem fail {f : Failure} (hf : f ∈ known) : Honest known (fail f : Action α) :=
  fun _ L _ hknown => ⟨L, .fail (hknown f hf)⟩

/-- Reports are notes that show known failures. -/
theorem notes (notes : List Note) (h : ∀ n ∈ notes, ∀ f ∈ n.failures, f ∈ known) (a : α) :
    Honest known (report (notes.map .note) a) := by
  intro m L _ hknown
  refine ⟨L, .report a fun e he => ?_⟩
  obtain ⟨n, hn, rfl⟩ := List.mem_map.1 he
  exact fun f hf => hknown f (h n hn f hf)

theorem note {n : Note} (hn : ∀ f ∈ n.failures, f ∈ known) (a : α) :
    Honest known (report [.note n] a) :=
  notes [n] (List.forall_mem_singleton.2 hn) a

/-- A note that shows no failure. -/
theorem plainNote {n : Note} (hn : n.failures = []) (a : α) : Honest known (report [.note n] a) :=
  note (by rw [hn]; exact List.forall_mem_nil _) a

theorem remember (change : List (String × Failure) → List (String × Failure))
    (h : ∀ kept, ∀ entry ∈ change kept, entry ∈ kept ∨ entry.2 ∈ known) (a : α) :
    Honest known fun m => ⟨[], .ok a, { m with kept := change m.kept }⟩ := by
  intro m L hkept hknown
  refine ⟨L, .remember a fun entry he => ?_⟩
  rcases h m.kept entry he with hmem | hmem
  · exact hkept entry hmem
  · exact hknown _ hmem

theorem mono {known' : List Failure} {act : Action α} (h : Honest known act)
    (hsub : known ⊆ known') : Honest known' act :=
  fun m L hkept hknown => h m L hkept fun f hf => hknown f (hsub hf)

theorem andThen {act : Action α} {next : Except Failure α → Action β} (h : Honest known act)
    (hok : ∀ a, Honest known (next (.ok a)))
    (herror : ∀ f, Honest (f :: known) (next (.error f))) :
    Honest known fun m => (act m).andThen next := by
  intro m L hkept hknown
  obtain ⟨L₁, h₁⟩ := h m L hkept hknown
  have hkept₁ := h₁.kept_held hkept
  have hknown₁ : ∀ f ∈ known, L₁.Holds f := fun f hf => h₁.ledger_extends.holds (hknown f hf)
  cases hr : (act m).result with
  | ok a =>
    obtain ⟨L₂, h₂⟩ := hok a _ L₁ hkept₁ hknown₁
    exact ⟨L₂, .andThen h₁ (by rw [hr]; exact h₂)⟩
  | error f =>
    obtain ⟨L₂, h₂⟩ := herror f _ L₁ hkept₁
      (List.forall_mem_cons.2 ⟨h₁.result_held hr, hknown₁⟩)
    exact ⟨L₂, .andThen h₁ (by rw [hr]; exact h₂)⟩

theorem bind {act : Action α} {next : α → Action β} (h : Honest known act)
    (hn : ∀ a, Honest known (next a)) : Honest known (act.andThen next) :=
  h.andThen hn fun _ => .fail List.mem_cons_self

theorem mint {p : Payload} {next : Failure → Action α} (h : ∀ f, Honest (f :: known) (next f)) :
    Honest known fun m => (m.mint p).andThen next := by
  intro m L hkept hknown
  have hgrows := Ledger.Extends.enter L ⟨p, m.stack.topName⟩ (m.mint p).result
  obtain ⟨L', h'⟩ := h (m.mint p).result (m.mint p).machine _
    (fun entry he => hgrows.holds (hkept entry he))
    (List.forall_mem_cons.2 ⟨⟨_, List.mem_cons_self⟩, fun f hf => hgrows.holds (hknown f hf)⟩)
  exact ⟨L', .mint h'⟩

theorem raise (p : Payload) : Honest known (Machine.raise p : Action α) :=
  mint fun _ => .fail List.mem_cons_self

theorem defer {resource : Resource} (h : ∀ L : Ledger, ∀ e ∈ resource.onRelease, L.MayReport e)
    (a : α) : Honest known (Machine.defer resource a) :=
  fun _ L _ _ => ⟨L, .defer a (h L)⟩

theorem call (name : String) {body : Action α} (h : Honest known body) :
    Honest known (Machine.call name body) := by
  intro m L hkept hknown
  obtain ⟨L₁, h₁⟩ := h (m.withFrame name) L hkept hknown
  obtain ⟨L₂, hp⟩ :
      ∃ L₂, L₁.PassesOn (body (m.withFrame name)).result (m.call name body).result L₂ := by
    rw [Machine.call_eq_popTo]
    exact Ledger.PassesOn.exists_of_mapError _ fun f hf => h₁.result_held hf
  exact ⟨L₂, .call h₁ hp⟩

theorem region {body : Action α} {next : Nat × Except Failure α → Action β} (h : Honest known body)
    (hok : ∀ id a, Honest known (next (id, .ok a)))
    (herror : ∀ id f, Honest (f :: known) (next (id, .error f))) :
    Honest known fun m => (m.enterRegion body).andThen next := by
  intro m L hkept hknown
  obtain ⟨L₁, h₁⟩ := h m.withRegion L hkept hknown
  obtain ⟨L₂, hp⟩ : ∃ L₂, L₁.PassesOn (body m.withRegion).result (m.enterRegion body).result.2 L₂ :=
    Ledger.PassesOn.exists_of_mapError _ fun f hf => h₁.result_held hf
  have hkept₂ : ∀ entry ∈ (m.enterRegion body).machine.kept, L₂.Holds entry.2 :=
    fun entry he => hp.ledger_extends.holds (h₁.kept_held hkept entry he)
  have hknown₂ : ∀ f ∈ known, L₂.Holds f :=
    fun f hf => (h₁.ledger_extends.trans hp.ledger_extends).holds (hknown f hf)
  have hresult : (m.enterRegion body).result = (m.entered + 1, (m.enterRegion body).result.2) := rfl
  cases hr : (m.enterRegion body).result.2 with
  | ok a =>
    obtain ⟨L₃, h₃⟩ := hok (m.entered + 1) a _ L₂ hkept₂ hknown₂
    exact ⟨L₃, .region h₁ hp (by rw [hresult, hr]; exact h₃)⟩
  | error f =>
    have hf : L₂.Holds f := by
      rw [hr] at hp
      exact hp.holds
    obtain ⟨L₃, h₃⟩ := herror (m.entered + 1) f _ L₂ hkept₂ (List.forall_mem_cons.2 ⟨hf, hknown₂⟩)
    exact ⟨L₃, .region h₁ hp (by rw [hresult, hr]; exact h₃)⟩

theorem offer {region i : Nat} {f : Failure} {clauses : List (Clause α)} (hf : f ∈ known)
    (h : ∀ c ∈ clauses, Honest known (c.run ⟨f, region⟩)) :
    Honest known (Machine.offer region f i clauses) := by
  intro m L hkept hknown
  have hheld := hknown f hf
  cases hc : clauses.find? (·.selector.accepts f.kind) with
  | none =>
    obtain ⟨n, hn⟩ := hheld
    have hp : L.PassesOn (.error f : Except Failure α) (Machine.offer region f i clauses m).result
        (L.hand n (f.record (.passed region))) := by
      rw [Machine.offer_of_none hc]
      exact .failure hn
    exact ⟨_, .pass hc hp⟩
  | some c =>
    obtain ⟨L', h'⟩ := h c (List.mem_of_find?_eq_some hc) m L hkept hknown
    exact ⟨L', .take hheld hc h'⟩

theorem rethrow {handled : Handled} (hf : handled.failure ∈ known) :
    Honest known (handled.rethrow : Action α) := by
  intro m L _ hknown
  obtain ⟨n, hn⟩ := hknown _ hf
  exact ⟨_, .rethrow (.failure hn)⟩

theorem dispatch {region : Nat} {f : Failure} {clauses : List (Clause α)} (hf : f ∈ known)
    (h : ∀ c ∈ clauses, Honest known (c.run ⟨f, region⟩)) :
    Honest known (Machine.dispatch region clauses (.error f)) :=
  offer hf h

theorem guard {body : Action α} {clauses : List (Clause α)} (hb : Honest known body)
    (h : ∀ c ∈ clauses, ∀ handled, Honest (handled.failure :: known) (c.run handled)) :
    Honest known (Machine.guard body clauses) :=
  hb.region (fun _ a => .done a) fun _ _ => .dispatch List.mem_cons_self fun c hc => h c hc ⟨_, _⟩

theorem nested {scope : Action α → Action α}
    (hscope : ∀ act, Honest known act → Honest known (scope act)) {act : Action α}
    (h : Honest known act) (n : Nat) : Honest known (nested scope n act) := by
  induction n with
  | zero => exact h
  | succ n ih => exact hscope _ ih

/-- A run may depend on the machine. -/
theorem of_each {act : Action α}
    (h : ∀ m : Machine, ∃ other : Action α, Honest (m.kept.map (·.2) ++ known) other ∧
      act m = other m) : Honest known act := by
  intro m L hkept hknown
  obtain ⟨other, hother, heq⟩ := h m
  rw [heq]
  refine hother m L hkept fun f hf => ?_
  rcases List.mem_append.1 hf with hf | hf
  · obtain ⟨entry, he, rfl⟩ := List.mem_map.1 hf
    exact hkept entry he
  · exact hknown f hf

end Honest

end Action

/-! ## Programs -/

namespace Sample

open Unwind.Action

variable {known : List Failure}

theorem foo_honest (b : Bool) : Honest known (foo b) :=
  .call "foo" (.raise _)

theorem exits_honest : ∀ c ∈ exits, ∀ h : Handled, Honest (h.failure :: known) (c.run h) := by
  simp only [exits, List.forall_mem_cons]
  exact ⟨fun _ => .done _, fun _ => .done _, fun _ => .done _, List.forall_mem_nil _⟩

theorem fooStatement_honest (b : Bool) : Honest known (fooStatement b) :=
  (foo_honest b).bind fun _ => .done _

theorem unlessEarly_honest {act : Action (Completion Unit Int32)} {rest : Action Int32}
    (h : Honest known act) (hrest : Honest known rest) : Honest known (unlessEarly act rest) := by
  refine h.bind fun c => ?_
  cases c with
  | value u => exact hrest
  | early v => exact .done v

theorem entry_honest (argc : Int32) : Honest known (entry argc) := by
  refine .call "main" ((Honest.defer (fun L e he => ?_) ()).bind fun _ => ?_)
  · rw [List.mem_singleton.1 he]
    rfl
  · refine unlessEarly_honest (.guard (fooStatement_honest _) exits_honest) ?_
    exact (foo_honest _).bind fun _ => .done _

theorem entryRethrowing_honest (argc : Int32) : Honest known (entryRethrowing argc) := by
  refine .call "main" (unlessEarly_honest (.guard ?_ exits_honest) (.done _))
  refine .guard (fooStatement_honest _) fun c hc h => ?_
  cases List.mem_singleton.1 hc
  exact .rethrow List.mem_cons_self

end Sample

theorem SampleFunction.run_honest {known : List Failure} (f : SampleFunction) :
    Action.Honest known f.run := by
  cases f with
  | foo b => exact Sample.foo_honest b
  | bar b =>
    rw [run, Sample.bar_eq]
    exact .call _ (Sample.foo_honest b)
  | baz b => exact .call _ (Sample.foo_honest b)
  | entry argc => exact Sample.entry_honest argc
  | entryRethrowing argc => exact Sample.entryRethrowing_honest argc
  | globalInit => exact (Sample.foo_honest true).bind fun _ => .done _

namespace Stmt

open Unwind.Action

variable {known : List Failure}

theorem yield_honest (v : Int32) : Honest known (yield v) :=
  .plainNote rfl _

theorem yieldEnded_honest (e : Ended) : Honest known (yieldEnded e) := by
  cases e <;> exact .plainNote rfl _

theorem notedGuard_honest {clauses : List (Clause Ended)} {body : Action Ended}
    (hb : Honest known body)
    (h : ∀ c ∈ clauses, ∀ handled, Honest (handled.failure :: known) (c.run handled)) :
    Honest known (notedGuard clauses body) := by
  refine hb.region (fun id a => ?_) fun id f => ?_
  · exact (Honest.plainNote rfl ()).bind fun _ => .done a
  · exact (Honest.plainNote rfl ()).bind fun _ =>
      .dispatch List.mem_cons_self fun c hc => h c hc ⟨f, id⟩

theorem notedClause_honest {index : Nat} {selector : Selector} {body : Handled → Action Ended}
    {handled : Handled} (h : Honest (handled.failure :: known) (body handled)) :
    Honest (handled.failure :: known) ((notedClause index selector body).run handled) := by
  refine .of_each fun m => ?_
  let start : ClauseStart :=
    ⟨index, handled.region, handled.failure, m.stack.depth, m.regions.length⟩
  refine ⟨(Action.report [.note (.clause start)] ()).andThen fun _ => body handled, ?_, rfl⟩
  refine (Honest.note (List.forall_mem_singleton.2 ?_) ()).bind fun _ => ?_
  · exact List.mem_append_right _ List.mem_cons_self
  · exact h.mono (List.subset_append_right _ _)

theorem attempting_honest {name : Option String} {body : Action Ended} {v : Int32}
    (h : Honest known body) : Honest known (attempting name body v) := by
  refine h.andThen (fun ended => .done ended) fun f => ?_
  have hf : f ∈ f :: known := List.mem_cons_self
  cases name with
  | none =>
    refine Honest.notes [.failed f, .dropped f.payload] ?_ _
    rw [List.forall_mem_cons, List.forall_mem_singleton]
    exact ⟨List.forall_mem_singleton.2 hf, List.forall_mem_nil _⟩
  | some name =>
    have hshown : ∀ g ∈ (Note.failed f).failures, g ∈ f :: known := List.forall_mem_singleton.2 hf
    refine Honest.bind (.remember (fun kept => (name, f) :: kept.filter (·.1 ≠ name)) ?_ ())
      fun _ => .note hshown (Completion.value v)
    intro kept entry he
    rcases List.mem_cons.1 he with rfl | he
    · exact .inr hf
    · exact .inl (List.mem_filter.1 he).1

theorem resuming_honest (name : String) (forget : Bool) (v : Int32) :
    Honest known (resuming name forget v) := by
  refine .of_each fun m => ?_
  unfold resuming
  split
  next f hf =>
    have hmem : f ∈ m.kept.map (·.2) ++ known := by
      obtain ⟨before, after, hkept, -⟩ := List.lookup_eq_some_iff.1 hf
      rw [hkept, List.map_append]
      exact List.mem_append_left _ (List.mem_append_right _ List.mem_cons_self)
    cases forget with
    | false => exact ⟨_, .fail hmem, rfl⟩
    | true =>
      refine ⟨_, (Honest.remember (fun kept => kept.filter (·.1 ≠ name)) ?_ ()).bind
        fun _ => .fail hmem, rfl⟩
      exact fun kept entry he => .inl (List.mem_filter.1 he).1
  next => exact ⟨_, .plainNote rfl _, rfl⟩

theorem repeating_honest {body : Action Ended} (h : Honest known body) (n : Nat) (v : Int32) :
    Honest known (repeating body n v) := by
  induction n generalizing v with
  | zero => exact .done _
  | succ n ih =>
    refine h.bind fun e => ?_
    cases e with
    | value v => exact ih v
    | early v => exact .done _

mutual

theorem run_honest : ∀ (stmt : Stmt) (hs : List Handled) (v : Int32),
    Honest (hs.map (·.failure)) (stmt.run hs v)
  | .call name body, hs, _ => by
    rw [run]
    exact ((runBody_honest body hs 0).call name).bind fun _ => yield_honest _
  | .nest n name body, hs, _ => by
    rw [run]
    exact (Honest.nested (fun _ h => h.call name) (runBody_honest body hs 0) n).bind
      fun _ => .done _
  | .guard body clauses, hs, _ => by
    rw [run]
    exact (notedGuard_honest (runBody_honest body hs 0) (runClauses_honest 0 clauses hs)).bind
      yieldEnded_honest
  | .nestGuard n body clauses, hs, _ => by
    rw [run]
    exact .nested (fun _ h => notedGuard_honest h (runClauses_honest 0 clauses hs))
      (runBody_honest body hs 0) n
  | .times n body, hs, v => by
    rw [run]
    exact repeating_honest (runBody_honest body hs 0) n v
  | .attempt body name, hs, v => by
    rw [run]
    exact attempting_honest (runBody_honest body hs 0)
  | .resume name, _, v => by rw [run]; exact resuming_honest name true v
  | .resumeCopy name, _, v => by rw [run]; exact resuming_honest name false v
  | .defer label, _, v => by
    rw [run]
    refine .defer (fun L e he => ?_) _
    rw [List.mem_singleton.1 he]
    exact List.forall_mem_nil _
  | .raise p, _, _ => by rw [run]; exact .raise p
  | .mint p, _, v => by
    rw [run]
    exact .mint fun f => .note (List.forall_mem_singleton.2 List.mem_cons_self) _
  | .rethrow up, hs, v => by
    rw [run]
    split
    next h hup => exact .rethrow (List.mem_map_of_mem (List.mem_of_getElem? hup))
    next => exact .done _
  | .leave v, _, _ => by rw [run]; exact .done _
  | .value v, _, _ => by rw [run]; exact .done _
  | .payloadValue, hs, v => by
    rw [run]
    split <;> exact .done _
  | .snap, _, v => by rw [run]; exact .of_each fun _ => ⟨_, .plainNote rfl _, rfl⟩
  | .note text, _, v => by rw [run]; exact .plainNote rfl _
  | .sample f, _, _ => by rw [run]; exact f.run_honest.bind yield_honest

theorem runBody_honest : ∀ (body : List Stmt) (hs : List Handled) (v : Int32),
    Honest (hs.map (·.failure)) (runBody body hs v)
  | [], _, v => by rw [runBody]; exact .done _
  | stmt :: rest, hs, v => by
    rw [runBody]
    refine (run_honest stmt hs v).bind fun e => ?_
    cases e with
    | value v => exact runBody_honest rest hs v
    | early v => exact .done _

theorem runClauses_honest : ∀ (i : Nat) (clauses : List (Selector × List Stmt)) (hs : List Handled),
    ∀ c ∈ runClauses i clauses hs, ∀ h : Handled,
      Honest (h.failure :: hs.map (·.failure)) (c.run h)
  | _, [], _, c, hc, _ => by simp [runClauses] at hc
  | i, (selector, body) :: rest, hs, c, hc, h => by
    rw [runClauses, List.mem_cons] at hc
    rcases hc with rfl | hc
    · exact notedClause_honest (runBody_honest body (h :: hs) 0)
    · exact runClauses_honest (i + 1) rest hs c hc h

end

end Stmt

/-! ## Entry points -/

/-- After a step that may end fatally the ledger is `L'`, and what follows goes on from there. -/
structure Leads (m : Machine) (s : Step (Except Fatal α)) (L L' : Ledger) : Prop where
  kept : ∀ entry ∈ s.machine.kept, L'.Holds entry.2
  fatal : ∀ f, s.result = .error f → L'.Holds f.failure
  follow : ∀ {β : Type} {next : Except Fatal α → Action β} {L'' : Ledger},
    Custody s.machine (next s.result s.machine) L' L'' → Custody m (s.andThen next) L L''

/-- A call, of which the failure is announced and becomes fatal. -/
theorem Leads.of_call {name : String} {body : Action α} (h : Action.Honest [] body) {m : Machine}
    {L : Ledger} (hkept : ∀ entry ∈ m.kept, L.Holds entry.2) {f : Failure}
    (hf : (m.call name body).result = .error f) {fatal : Fatal} (hfatal : fatal.failure = f)
    {t : Trace} (ht : t = .uncaught f.id name f.payload ∨ t = .uncaughtInit f.id name f.payload) :
    ∃ L', Leads m ((m.call name body).andThen fun _ m =>
      (⟨[.trace t], .error fatal, m⟩ : Step (Except Fatal β))) L L' := by
  obtain ⟨L', h'⟩ := h.call name m L hkept (List.forall_mem_nil _)
  have hheld : L'.Holds f := h'.result_held hf
  refine ⟨L', h'.kept_held hkept, fun g hg => ?_, fun {γ next L''} hnext => ?_⟩
  · cases hg
    rwa [hfatal]
  · rw [Step.andThen_assoc]
    refine .andThen h' ?_
    change Custody _ ((Action.report [.trace t] () _).andThen fun _ => next (.error fatal)) L' L''
    exact .andThen (.announce () hheld ht) hnext

theorem Leads.enter (name : String) {body : Action α} (h : Action.Honest [] body) {m : Machine}
    {L : Ledger} (hkept : ∀ entry ∈ m.kept, L.Holds entry.2) :
    ∃ L', Leads m (m.enter name body) L L' := by
  cases hr : (m.call name body).result with
  | ok a =>
    obtain ⟨L', h'⟩ := h.call name m L hkept (List.forall_mem_nil _)
    have henter : m.enter name body = (m.call name body).andThen fun _ m => ⟨[], .ok a, m⟩ := by
      simp only [Machine.enter, Step.andThen, hr]
    rw [henter]
    refine ⟨L', h'.kept_held hkept, fun g hg => ?_, fun hnext => ?_⟩
    · cases hg
    · rw [Step.andThen_assoc]
      exact .andThen h' hnext
  | error f =>
    have henter : m.enter name body = (m.call name body).andThen fun _ m =>
        ⟨[.trace (.uncaught f.id name f.payload)], .error (.uncaught name f), m⟩ := by
      simp only [Machine.enter, Step.andThen, hr]
    rw [henter]
    exact Leads.of_call h hkept hr rfl (.inl rfl)

theorem Leads.initialise {inits : List (String × Action α)}
    (h : ∀ init ∈ inits, Action.Honest [] init.2) {m : Machine} {L : Ledger}
    (hkept : ∀ entry ∈ m.kept, L.Holds entry.2) : ∃ L', Leads m (m.initialise inits) L L' := by
  induction inits generalizing m L with
  | nil => exact ⟨L, hkept, fun g hg => (nomatch hg), fun hnext => hnext⟩
  | cons init rest ih =>
    obtain ⟨name, body⟩ := init
    rw [List.forall_mem_cons] at h
    cases hr : (m.call name body).result with
    | ok a =>
      obtain ⟨L₁, h₁⟩ := h.1.call name m L hkept (List.forall_mem_nil _)
      obtain ⟨L₂, h₂⟩ := ih h.2 (h₁.kept_held hkept)
      have hinit : m.initialise ((name, body) :: rest) =
          (m.call name body).andThen fun _ => Machine.initialise rest := by
        simp only [Machine.initialise, Step.andThen, hr]
      rw [hinit]
      refine ⟨L₂, h₂.kept, h₂.fatal, fun hnext => ?_⟩
      rw [Step.andThen_assoc]
      exact .andThen h₁ (h₂.follow hnext)
    | error f =>
      have hinit : m.initialise ((name, body) :: rest) = (m.call name body).andThen fun _ m =>
          ⟨[.trace (.uncaughtInit f.id name f.payload)], .error (.init name f), m⟩ := by
        simp only [Machine.initialise, Step.andThen, hr]
      rw [hinit]
      exact Leads.of_call h.1 hkept hr rfl (.inr rfl)

/-- The failures that a task ends with. -/
def Ending.failures : Ending → List Failure
  | .ended _ => []
  | .failed f => [f]
  | .fatal f => [f.failure]

namespace Task

theorem custody (t : Task) {m : Machine} {L : Ledger} (hkept : ∀ entry ∈ m.kept, L.Holds entry.2) :
    ∃ L', Custody m (t.action m) L L' ∧ ∀ f ∈ (t.run m).result.failures, L'.Holds f := by
  have hbody : Action.Honest [] (Stmt.runBody t.body [] 0) := Stmt.runBody_honest t.body [] 0
  unfold action run
  cases t.entry with
  | none =>
    obtain ⟨L', h'⟩ := hbody m L hkept (List.forall_mem_nil _)
    simp only [Step.andThen_assoc]
    cases hr : (Stmt.runBody t.body [] 0 m).result with
    | ok e =>
      refine ⟨L', .andThen h' (by rw [hr]; exact .done _), ?_⟩
      simp only [Step.andThen, hr]
      exact List.forall_mem_nil _
    | error f =>
      refine ⟨L', .andThen h' (by rw [hr]; exact .done _), ?_⟩
      simp only [Step.andThen, hr]
      exact List.forall_mem_singleton.2 (h'.result_held hr)
  | some name =>
    obtain ⟨L', h'⟩ := Leads.enter name hbody hkept
    simp only [Step.andThen_assoc]
    cases hr : (m.enter name (Stmt.runBody t.body [] 0)).result with
    | ok e =>
      refine ⟨L', h'.follow (by rw [hr]; exact .done _), ?_⟩
      simp only [Step.andThen, hr]
      exact List.forall_mem_nil _
    | error f =>
      refine ⟨L', h'.follow (by rw [hr]; exact .done _), ?_⟩
      simp only [Step.andThen, hr]
      exact List.forall_mem_singleton.2 (h'.fatal f hr)

/-- Tasks keep one ledger over all of them, and it has the failures that they end with. -/
theorem runAll_custody (tasks : List Task) {m : Machine} {L : Ledger}
    (hkept : ∀ entry ∈ m.kept, L.Holds entry.2) :
    ∃ L', Custody m (Action.inTurn (tasks.map action) m) L L' ∧
      ∀ s ∈ runAll tasks m, ∀ f ∈ s.result.failures, L'.Holds f := by
  induction tasks generalizing m L with
  | nil => exact ⟨L, .done (), List.forall_mem_nil _⟩
  | cons t rest ih =>
    obtain ⟨L₁, h₁, hends⟩ := t.custody hkept
    obtain ⟨L₂, h₂, hrest⟩ := ih (h₁.kept_held hkept)
    refine ⟨L₂, ?_, ?_⟩
    · change Custody m ((t.action m).andThen fun _ => Action.inTurn (rest.map action)) L L₂
      exact .andThen h₁ h₂
    · rw [runAll, List.forall_mem_cons]
      exact ⟨fun f hf => h₂.ledger_extends.holds (hends f hf), hrest⟩

end Task

namespace Startup

theorem phase_honest (body : List Stmt) : Action.Honest [] (phase body) := by
  have hforget : Action.Honest [] fun m => ⟨[], .ok (), { m with kept := [] }⟩ :=
    .remember (fun _ => []) (fun _ => List.forall_mem_nil _) ()
  exact hforget.bind fun _ => Stmt.runBody_honest body [] 0

/-- A startup keeps a ledger, and it has the failure that was fatal. -/
theorem run_custody (p : Startup) :
    ∃ L, Custody (Machine.new p.config) (p.run.andThen Action.done) {} L ∧
      ∀ f, p.run.result = .error f → L.Holds f.failure := by
  have hinits : ∀ init ∈ p.inits.map (fun init => (init.1, phase init.2)),
      Action.Honest [] init.2 :=
    List.forall_mem_map.2 fun init _ => phase_honest init.2
  obtain ⟨L₁, h₁⟩ : ∃ L₁, Leads (Machine.new p.config) _ {} L₁ :=
    Leads.initialise hinits (List.forall_mem_nil _)
  unfold run
  simp only [Step.andThen_assoc]
  cases hr : (Machine.initialise (p.inits.map fun init => (init.1, phase init.2))
      (Machine.new p.config)).result with
  | ok u =>
    obtain ⟨L₂, h₂⟩ := Leads.enter p.entry (phase_honest p.body) h₁.kept
    refine ⟨L₂, h₁.follow (by rw [hr]; exact h₂.follow (.done _)), fun f hf => h₂.fatal f ?_⟩
    simpa only [Step.andThen, hr] using hf
  | error f =>
    refine ⟨L₁, h₁.follow (by rw [hr]; exact .done _), fun g hg => h₁.fatal g ?_⟩
    simp only [Step.andThen, hr] at hg
    cases hg
    exact hr

end Startup

/-- Failures are numbered in the order in which they are raised, and keep their identity.

Whatever the tasks on one machine or a startup do, they keep to a ledger, in which every failure
that they end with is entered. In any run that keeps to a ledger, from a new machine on, the
reported raises are those of the ledger, and the n-th is reported under the number n. A failure that
the program was ever handed has the number, the payload and the origin of the raise from which it
descends, so that two failures have the same number just if they descend from the same raise. What a
run fails with, what is set aside and what reports show was handed to the program in this way, and
no clause takes a failure whose payload was of another kind when it was raised. -/
theorem failures_keep_identity :
    (∀ (config : Config) (tasks : List Task),
      let start := Machine.new config
      ∃ L, Custody start (Action.inTurn (tasks.map Task.action) start) {} L ∧
        ∀ s ∈ Task.runAll tasks start, ∀ f ∈ s.result.failures, L.Holds f) ∧
    (∀ p : Startup, ∃ L, Custody (Machine.new p.config) (p.run.andThen Action.done) {} L ∧
      ∀ f, p.run.result = .error f → L.Holds f.failure) ∧
    ∀ {α : Type} (config : Config) (s : Step (Except Failure α)) (L : Ledger),
      Custody (Machine.new config) s {} L →
      s.events.filterMap Event.raise? = numbered 0 L.raises ∧
      (∀ n f, (n, f) ∈ L.held → f.id = n + 1 ∧ L.raises[n]? = some ⟨f.payload, f.origin⟩) ∧
      (∀ n f n' f', (n, f) ∈ L.held → (n', f') ∈ L.held → (f.id = f'.id ↔ n = n')) ∧
      (∀ f, s.result = .error f → L.Holds f) ∧
      (∀ entry ∈ s.machine.kept, L.Holds entry.2) ∧
      ∀ e ∈ s.events ++ s.machine.drain, L.Explains e := by
  refine ⟨fun config tasks => Task.runAll_custody tasks (List.forall_mem_nil _),
    Startup.run_custody, fun {α} config s L h => ?_⟩
  have hstart := Ledger.Accounts.new config
  have hend := h.accounts hstart
  refine ⟨?_, hend.genuine, fun n f n' f' hf hf' => ?_, fun f hf => h.result_held hf,
    h.kept_held (List.forall_mem_nil _), fun e he => ?_⟩
  · obtain ⟨new, hraises, hevents⟩ := h.raised hstart
    rw [hraises]
    exact hevents
  · rw [(hend.genuine n f hf).1, (hend.genuine n' f' hf').1, Nat.succ_inj]
  · rcases List.mem_append.1 he with he | he
    · exact h.explained hstart e he
    · refine (Ledger.quiet_release (fun r hr => hend.resources r ?_) e he).1
      rwa [CallStack.drain_resources] at hr

/-- Equal payloads are raised twice. A copy of the first failure is raised again while the second is
being handled, and it is the second that ends the entry point. -/
theorem failures_keep_identity_resumed :
    let tasks : List Task :=
      [⟨none, [.attempt [.call "f" [.raise (.int 5)]] (some "x")]⟩,
        ⟨some "main", [.guard [.raise (.int 5)]
          [(.kind .int, [.guard [.resumeCopy "x"] [(.any, [.rethrow 1])]])]]⟩]
    let start := Machine.new {}
    ∃ L, Custody start (Action.inTurn (tasks.map Task.action) start) {} L ∧
      numbered 0 L.raises = [(1, ⟨.int 5, "f"⟩), (2, ⟨.int 5, "main"⟩)] ∧
      ∀ s ∈ Task.runAll tasks start, ∀ f ∈ s.result.failures, (1, f) ∈ L.held := by
  intro tasks start
  obtain ⟨htasks, -, hall⟩ := failures_keep_identity
  obtain ⟨L, hcustody, hends⟩ := htasks {} tasks
  obtain ⟨hraised, hgenuine, -⟩ := hall {} _ L hcustody
  have hreports : ((Task.runAll tasks start).flatMap (·.events)).filterMap Event.raise? =
      [(1, ⟨.int 5, "f"⟩), (2, ⟨.int 5, "main"⟩)] := by decide
  have hid : ∀ s ∈ Task.runAll tasks start, ∀ f ∈ s.result.failures, f.id = 2 := by decide
  refine ⟨L, hcustody, ?_, fun s hs f hf => ?_⟩
  · rw [(Task.runAll_eq_inTurn tasks start).1] at hreports
    exact hraised.symm.trans hreports
  · obtain ⟨n, hn⟩ := hends s hs f hf
    have hnumber : 2 = n + 1 := (hid s hs f hf).symm.trans (hgenuine n f hn).1
    cases hnumber
    exact hn

end Unwind
