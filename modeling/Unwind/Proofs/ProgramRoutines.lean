import Unwind.Proofs.Routine

/-!
# Programs as routines

Statements, tasks and startups never look at a trail. `Stmt.routine` is the routine of a statement,
and `Stmt.run_routine` says that it runs as the statement does; `Task.run_routineAll` and
`Startup.run_routine` say the same of whole runs.
-/

namespace Unwind

variable {n k : Nat} {α : Type}

namespace Routine

def raise (p : Payload) : BlindRoutine n k α :=
  mint p (fail Env.latest)

/-- Report a note that shows no failure. -/
def sayNote (note : Note) (h : note.failures = []) (a : α) : BlindRoutine n k α :=
  say [.plain (.note note h)] a

/-- A region that reports nothing by itself. -/
def silentGuard (body : BlindRoutine n k α) (selectors : List Selector)
    (clauses : Nat → BlindRoutine (n + 1) (k + 1) α) : BlindRoutine n k α :=
  guard body (fun _ => []) selectors clauses

def nested (scope : BlindRoutine n k α → BlindRoutine n k α) :
    Nat → BlindRoutine n k α → BlindRoutine n k α
  | 0, r => r
  | i + 1, r => scope (nested scope i r)

theorem run_sayNote (note : Note) (h : note.failures = []) (a : α) (σ : Env n k) :
    (sayNote note h a).run σ = Action.report [.note note] a :=
  run_say _ a σ

theorem run_silentGuard (body : BlindRoutine n k α) (selectors : List Selector)
    (clauses : Nat → BlindRoutine (n + 1) (k + 1) α) (σ : Env n k) :
    (silentGuard body selectors clauses).run σ =
      Machine.guard (body.run σ)
        (numberedClauses selectors fun i h => (clauses i).run (σ.handle h)) := rfl

theorem run_nested {scope : BlindRoutine n k α → BlindRoutine n k α} {scope' : Action α → Action α}
    {σ : Env n k} (h : ∀ r, (scope r).run σ = scope' (r.run σ)) (i : Nat) (r : BlindRoutine n k α) :
    (nested scope i r).run σ = Action.nested scope' i (r.run σ) := by
  induction i with
  | zero => rfl
  | succ i ih => rw [nested, h, ih, Action.nested]

end Routine

/-! ## The sample program -/

namespace Sample

def fooRoutine (b : Bool) : BlindRoutine n k Int32 :=
  .call "foo" (.raise (if b then .int 0 else .record ⟨0⟩))

def fooStatementRoutine (b : Bool) : BlindRoutine n k (Completion Unit Int32) :=
  (fooRoutine b).bind fun _ => .done (.value ())

/-- A region with the clauses of the entry points. -/
def exitsRoutine (body : BlindRoutine n k (Completion Unit Int32)) :
    BlindRoutine n k (Completion Unit Int32) :=
  .silentGuard body [.kind .record, .kind .int, .any] fun
    | 0 => .done (.early 2)
    | 1 => .done (.early 3)
    | _ => .done (.early 1)

def unlessEarlyRoutine (r : BlindRoutine n k (Completion Unit Int32))
    (rest : BlindRoutine n k Int32) : BlindRoutine n k Int32 :=
  r.bind fun
    | .value () => rest
    | .early v => .done v

def entryRoutine (argc : Int32) : BlindRoutine n k Int32 :=
  let atOne := decide (argc = 1)
  .call "main" <|
    (Routine.act (.defer "local" [.trace (.releaseLocal argc) rfl])).bind fun _ =>
      unlessEarlyRoutine (exitsRoutine (fooStatementRoutine atOne)) <|
        (fooRoutine atOne).bind fun _ => .done 0

def entryRethrowingRoutine (argc : Int32) : BlindRoutine n k Int32 :=
  let atOne := decide (argc = 1)
  let inner : BlindRoutine n k (Completion Unit Int32) :=
    .silentGuard (fooStatementRoutine atOne) [.kind .int] fun _ => .rethrow Env.latest
  .call "main" <| unlessEarlyRoutine (exitsRoutine inner) (.done 0)

theorem run_fooStatementRoutine (b : Bool) (σ : Env n k) :
    (fooStatementRoutine b).run σ = fooStatement b :=
  Routine.run_bind _ _ σ

theorem run_exitsRoutine (body : BlindRoutine n k (Completion Unit Int32)) (σ : Env n k) :
    (exitsRoutine body).run σ = Machine.guard (body.run σ) exits := rfl

theorem run_unlessEarlyRoutine (r : BlindRoutine n k (Completion Unit Int32))
    (rest : BlindRoutine n k Int32) (σ : Env n k) :
    (unlessEarlyRoutine r rest).run σ = unlessEarly (r.run σ) (rest.run σ) := by
  rw [unlessEarlyRoutine, Routine.run_bind, unlessEarly]
  congr 1
  funext c
  cases c <;> rfl

theorem run_entryRoutine (argc : Int32) (σ : Env n k) : (entryRoutine argc).run σ = entry argc := by
  rw [entryRoutine, Routine.run, Routine.run_bind, run_unlessEarlyRoutine, run_exitsRoutine,
    run_fooStatementRoutine, Routine.run_bind]
  rfl

theorem run_entryRethrowingRoutine (argc : Int32) (σ : Env n k) :
    (entryRethrowingRoutine argc).run σ = entryRethrowing argc := by
  rw [entryRethrowingRoutine, Routine.run, run_unlessEarlyRoutine, run_exitsRoutine,
    Routine.run_silentGuard, run_fooStatementRoutine]
  rfl

end Sample

def SampleFunction.routine : SampleFunction → BlindRoutine n k Int32
  | .foo b => Sample.fooRoutine b
  | .bar b => .call "bar" (Sample.fooRoutine b)
  | .baz b => .call "baz" (Sample.fooRoutine b)
  | .entry argc => Sample.entryRoutine argc
  | .entryRethrowing argc => Sample.entryRethrowingRoutine argc
  | .globalInit => (Sample.fooRoutine true).bind fun _ => .done 0

theorem SampleFunction.run_routine (f : SampleFunction) (σ : Env n k) :
    f.routine.run σ = f.run := by
  cases f with
  | foo b | baz b => rfl
  | bar b => exact (Sample.bar_eq b).symm
  | entry argc => exact Sample.run_entryRoutine argc σ
  | entryRethrowing argc => exact Sample.run_entryRethrowingRoutine argc σ
  | globalInit => exact Routine.run_bind _ _ σ

/-! ## Statements -/

namespace Stmt

def yieldRoutine (v : Int32) : BlindRoutine n k Ended :=
  .sayNote (.value v) rfl (.value v)

def yieldEndedRoutine : Ended → BlindRoutine n k Ended
  | .value v => yieldRoutine v
  | .early v => .sayNote (.early v) rfl (.early v)

/-- Clause `index` of a region, which reports what it sees when it starts. -/
def clauseRoutine (index : Nat) (body : BlindRoutine (n + 1) (k + 1) Ended) :
    BlindRoutine (n + 1) (k + 1) Ended :=
  .look (.handled Env.latest) fun seen => .look .machine fun s =>
    let start : Remark (n + 1) := .clause index seen.2 s.depth s.regions.length Env.latest
    (Routine.act (.report [start])).bind fun _ => body

def guardRoutine (selectors : List Selector) (clauses : Nat → BlindRoutine (n + 1) (k + 1) Ended)
    (body : BlindRoutine n k Ended) : BlindRoutine n k Ended :=
  .guard body (fun region => [.note (.dispatch region) rfl]) selectors fun i =>
    clauseRoutine i (clauses i)

/-- Report the latest failure, and set it aside or drop it. -/
def putAside (v : Int32) : Option String → BlindRoutine (n + 1) k Ended
  | some name =>
    (Routine.act (.keep name Env.latest)).bind fun _ => .say [.failed Env.latest] (.value v)
  | none => .look (.failure Env.latest) fun f =>
    .say [.failed Env.latest, .plain (.note (.dropped f.payload) rfl)] (.value v)

def attemptRoutine (name : Option String) (body : BlindRoutine n k Ended) (v : Int32) :
    BlindRoutine n k Ended :=
  body.andThen .done (putAside v name)

def resumeRoutine (name : String) (forget : Bool) (v : Int32) : BlindRoutine n k Ended :=
  .takeUp name
    (if forget then
      (Routine.act (.retain fun name' => name' ≠ name)).bind fun _ => .fail Env.latest
    else .fail Env.latest)
    (.sayNote .nothingToResume rfl (.value v))

def repeatRoutine (body : BlindRoutine n k Ended) : Nat → Int32 → BlindRoutine n k Ended
  | 0, v => .done (.value v)
  | i + 1, _ => body.bind fun
    | .value v => repeatRoutine body i v
    | .early v => .done (.early v)

mutual

def routine : {n k : Nat} → Stmt → Int32 → BlindRoutine n k Ended
  | _, _, .call name body, _ =>
    (Routine.call name (routineBody body 0)).bind (yieldRoutine ·.get)
  | _, _, .nest i name body, _ =>
    (Routine.nested (.call name) i (routineBody body 0)).bind fun ended => .done (.value ended.get)
  | _, _, .guard body clauses, _ =>
    (guardRoutine (clauses.map (·.1)) (routineClauses clauses) (routineBody body 0)).bind
      yieldEndedRoutine
  | _, _, .nestGuard i body clauses, _ =>
    Routine.nested (guardRoutine (clauses.map (·.1)) (routineClauses clauses)) i
      (routineBody body 0)
  | _, _, .times i body, v => repeatRoutine (routineBody body 0) i v
  | _, _, .attempt body name, v => attemptRoutine name (routineBody body 0) v
  | _, _, .resume name, v => resumeRoutine name true v
  | _, _, .resumeCopy name, v => resumeRoutine name false v
  | _, _, .defer label, v =>
    (Routine.act (.defer label [.note (.released label) rfl])).bind fun _ => .done (.value v)
  | _, _, .raise p, _ => .raise p
  | _, _, .mint p, v => .mint p (.say [.minted Env.latest] (.value v))
  | _, k, .rethrow up, v => if h : up < k then .rethrow ⟨up, h⟩ else .done (.value v)
  | _, _, .leave v, _ => .done (.early v)
  | _, _, .value v, _ => .done (.value v)
  | _, k, .payloadValue, v =>
    if h : 0 < k then
      .look (.handled ⟨0, h⟩) fun seen => .done (.value seen.1.payload.integer)
    else .done (.value v)
  | _, _, .snap, v => .look .machine fun s => .sayNote (.snap s) rfl (.value v)
  | _, _, .note text, v => .sayNote (.text text) rfl (.value v)
  | _, _, .sample f, _ => f.routine.bind yieldRoutine

def routineBody : {n k : Nat} → List Stmt → Int32 → BlindRoutine n k Ended
  | _, _, [], v => .done (.value v)
  | _, _, stmt :: rest, v => (routine stmt v).bind fun
    | .value v => routineBody rest v
    | .early v => .done (.early v)

/-- The body of each clause; there is nothing to do for a position without a clause. -/
def routineClauses : {n k : Nat} → List (Selector × List Stmt) → Nat → BlindRoutine n k Ended
  | _, _, [], _ => .done (.value 0)
  | _, _, (_, body) :: _, 0 => routineBody body 0
  | _, _, _ :: rest, i + 1 => routineClauses rest i

end

theorem run_yieldRoutine (v : Int32) (σ : Env n k) : (yieldRoutine v).run σ = yield v :=
  Routine.run_sayNote _ _ _ σ

theorem run_yieldEndedRoutine (e : Ended) (σ : Env n k) :
    (yieldEndedRoutine e).run σ = yieldEnded e := by
  cases e <;> exact Routine.run_sayNote _ _ _ σ

theorem run_clauseRoutine {index : Nat} {selector : Selector}
    {body : BlindRoutine (n + 1) (k + 1) Ended} {meaning : Handled → Action Ended} {σ : Env n k}
    {h : Handled} (hbody : meaning h = body.run (σ.handle h)) :
    (notedClause index selector meaning).run h = (clauseRoutine index body).run (σ.handle h) := by
  funext m
  have hactive : m.snapshot.regions.length = m.regions.length := by
    simp only [Machine.snapshot, List.length_map, List.length_reverse]
  simp only [clauseRoutine, Routine.run, Routine.run_bind, View.see, hactive]
  rw [← hbody]
  rfl

theorem run_putAside (v : Int32) (name : Option String) (σ : Env (n + 1) k) (m : Machine) :
    (putAside v name).run σ m =
      let f := σ.known Env.latest
      match name with
      | some name => ⟨[.note (.failed f)], .ok (.value v), m.keep name f⟩
      | none => ⟨[.note (.failed f), .note (.dropped f.payload)], .ok (.value v), m⟩ := by
  cases name with
  | some name =>
    rw [putAside, Routine.run_bind]
    simp only [Routine.run_say]
    rfl
  | none => exact congrFun (Routine.run_say _ _ σ) m

theorem run_attemptRoutine {name : Option String} {body : BlindRoutine n k Ended} {v : Int32}
    {σ : Env n k} :
    (attemptRoutine name body v).run σ = attempting name (body.run σ) v := by
  funext m
  cases hr : (body.run σ m).result with
  | ok ended =>
    rw [attemptRoutine, Routine.run_andThen_ok hr]
    simp only [attempting, Step.andThen, hr, Routine.run_done]
  | error f =>
    rw [attemptRoutine, Routine.run_andThen_error hr]
    simp only [attempting, Step.andThen, hr, run_putAside]
    cases name <;> rfl

theorem run_resumeRoutine (name : String) (forget : Bool) (v : Int32) (σ : Env n k) :
    (resumeRoutine name forget v).run σ = resuming name forget v := by
  funext m
  simp only [resumeRoutine, Routine.run, resuming]
  cases m.kept? name with
  | none => exact congrFun (Routine.run_sayNote _ _ _ σ) m
  | some f =>
    cases forget with
    | false => rfl
    | true => exact congrFun (Routine.run_bind _ _ (σ.know f)) m

theorem run_repeatRoutine (body : BlindRoutine n k Ended) (i : Nat) (v : Int32) (σ : Env n k) :
    (repeatRoutine body i v).run σ = repeating (body.run σ) i v := by
  induction i generalizing v with
  | zero => rfl
  | succ i ih =>
    rw [repeatRoutine, Routine.run_bind, repeating]
    congr 1
    funext e
    cases e with
    | value v => exact ih v
    | early v => rfl

/-- The routine of a body runs as the body does, wherever it stands. -/
def RunsAsRoutine (body : List Stmt) : Prop :=
  ∀ {n k : Nat} (σ : Env n k) (v : Int32),
    runBody body (List.ofFn σ.handled) v = (routineBody body v).run σ

theorem ofFn_handle (σ : Env n k) (h : Handled) :
    List.ofFn (σ.handle h).handled = h :: List.ofFn σ.handled := by
  rw [List.ofFn_succ]
  rfl

theorem runClauses_eq {clauses : List (Selector × List Stmt)}
    (hbodies : ∀ c ∈ clauses, RunsAsRoutine c.2) (σ : Env n k) :
    runClauses 0 clauses (List.ofFn σ.handled) =
      numberedClauses (clauses.map (·.1)) fun i h =>
        (clauseRoutine i (routineClauses clauses i)).run (σ.handle h) := by
  -- In a list of clauses that starts at position `j`, the clause at `j + i` has the i-th body.
  suffices ∀ (j : Nat) (run : Nat → Handled → Action Ended),
      (∀ i h, run (j + i) h =
        (clauseRoutine (j + i) (routineClauses clauses i)).run (σ.handle h)) →
      runClauses j clauses (List.ofFn σ.handled) =
        ((clauses.map (·.1)).zipIdx j).map fun c => ⟨c.1, run c.2⟩ from
    this 0 (fun i h => (clauseRoutine i (routineClauses clauses i)).run (σ.handle h)) fun i h => by
      rw [Nat.zero_add]
  induction clauses with
  | nil => intro j run _; rw [runClauses]; rfl
  | cons c rest ih =>
    obtain ⟨selector, body⟩ := c
    rw [List.forall_mem_cons] at hbodies
    intro j run hrun
    rw [runClauses, List.map_cons, List.zipIdx_cons, List.map_cons]
    congr 1
    · have hfirst : ∀ h, (notedClause j selector fun h =>
          runBody body (h :: List.ofFn σ.handled) 0).run h = run j h := by
        intro h
        refine (run_clauseRoutine ?_).trans (hrun 0 h).symm
        rw [routineClauses, ← ofFn_handle, hbodies.1]
      exact congrArg (Clause.mk selector) (funext hfirst)
    · refine ih hbodies.2 (j + 1) run fun i h => ?_
      have hnext := hrun (i + 1) h
      rw [routineClauses] at hnext
      rwa [Nat.add_right_comm]

theorem run_guardRoutine {clauses : List (Selector × List Stmt)}
    (hclauses : ∀ c ∈ clauses, RunsAsRoutine c.2) (body : BlindRoutine n k Ended) (σ : Env n k) :
    (guardRoutine (clauses.map (·.1)) (routineClauses clauses) body).run σ =
      notedGuard (runClauses 0 clauses (List.ofFn σ.handled)) (body.run σ) := by
  rw [runClauses_eq hclauses]
  rfl

mutual

theorem run_routine : ∀ (stmt : Stmt) {n k : Nat} (σ : Env n k) (v : Int32),
    stmt.run (List.ofFn σ.handled) v = (stmt.routine v).run σ
  | .call name body, _, _, σ, _ => by
    rw [run, routine, Routine.run_bind, Routine.run, runBody_routine body]
    simp only [run_yieldRoutine]
  | .nest i name body, _, _, σ, _ => by
    rw [run, routine, Routine.run_bind, Routine.run_nested (fun _ => rfl), runBody_routine body]
    rfl
  | .guard body clauses, _, _, σ, _ => by
    rw [run, routine, Routine.run_bind, run_guardRoutine (runClauses_routine clauses),
      runBody_routine body]
    simp only [run_yieldEndedRoutine]
  | .nestGuard i body clauses, _, _, σ, _ => by
    have hscope := fun r => run_guardRoutine (runClauses_routine clauses) r σ
    rw [run, routine, Routine.run_nested hscope, runBody_routine body]
  | .times i body, _, _, σ, v => by
    rw [run, routine, run_repeatRoutine, runBody_routine body]
  | .attempt body name, _, _, σ, v => by
    rw [run, routine, run_attemptRoutine, runBody_routine body]
  | .resume name, _, _, σ, v => by rw [run, routine, run_resumeRoutine]
  | .resumeCopy name, _, _, σ, v => by rw [run, routine, run_resumeRoutine]
  | .defer label, _, _, σ, v => by
    rw [run, routine, Routine.run_bind]
    rfl
  | .raise p, _, _, σ, _ => by
    rw [run, routine]
    rfl
  | .mint p, _, _, σ, v => by
    rw [run, routine, Routine.run]
    simp only [Routine.run_say]
    rfl
  | .rethrow up, _, k, σ, v => by
    rw [run, routine, List.getElem?_ofFn]
    by_cases hup : up < k
    · rw [dif_pos hup, dif_pos hup]
      rfl
    · rw [dif_neg hup, dif_neg hup]
      rfl
  | .leave v, _, _, _, _ => by
    rw [run, routine]
    rfl
  | .value v, _, _, _, _ => by
    rw [run, routine]
    rfl
  | .payloadValue, _, k, σ, v => by
    rw [run, routine, List.head?_eq_getElem?, List.getElem?_ofFn]
    by_cases hk : 0 < k
    · rw [dif_pos hk, dif_pos hk]
      rfl
    · rw [dif_neg hk, dif_neg hk]
      rfl
  | .snap, _, _, σ, v => by
    rw [run, routine]
    funext m
    exact congrFun (Routine.run_sayNote _ _ _ σ).symm m
  | .note text, _, _, σ, v => by
    rw [run, routine]
    exact (Routine.run_sayNote _ _ _ σ).symm
  | .sample f, _, _, σ, _ => by
    rw [run, routine, Routine.run_bind, f.run_routine]
    simp only [run_yieldRoutine]

theorem runBody_routine : ∀ body : List Stmt, RunsAsRoutine body
  | [], _, _, _, v => by
    rw [runBody, routineBody]
    rfl
  | stmt :: rest, _, _, σ, v => by
    rw [runBody, routineBody, Routine.run_bind, run_routine stmt]
    congr 1
    funext e
    cases e with
    | value v => exact runBody_routine rest σ v
    | early v => rfl

theorem runClauses_routine : ∀ clauses : List (Selector × List Stmt),
    ∀ c ∈ clauses, RunsAsRoutine c.2
  | [] => List.forall_mem_nil _
  | (_, body) :: rest =>
    List.forall_mem_cons.2 ⟨runBody_routine body, runClauses_routine rest⟩

end

end Stmt

/-! ## Tasks and startups -/

namespace Routine

/-- Report something about the latest failure. -/
def announcement (announce : Sighting → PlainEvent) : BlindRoutine (n + 1) k Unit :=
  .look (.failure Env.latest) fun f => .say [.plain (announce f)] ()

/-- Call a function, and go on unless a failure escapes it. Such a failure is announced. -/
def announcing (name : String) (announce : Sighting → PlainEvent) (body : BlindRoutine n k α)
    (next : BlindRoutine n k Unit) : BlindRoutine n k Unit :=
  (call name body).andThen (fun _ => next) (announcement announce)

def enter (name : String) (body : BlindRoutine n k α) : BlindRoutine n k Unit :=
  announcing name (fun f => .trace (.uncaught f.id name f.payload) rfl) body (.done ())

section Announcing

variable {name : String} {announce : Sighting → PlainEvent} {body : BlindRoutine n k α}
  {next : BlindRoutine n k Unit} {σ : Env n k} {m : Machine}

theorem run_announcing_ok {a : α} (h : (m.call name (body.run σ)).result = .ok a) :
    (announcing name announce body next).run σ m =
      let s := next.run σ (m.call name (body.run σ)).machine
      { s with events := (m.call name (body.run σ)).events ++ s.events } :=
  run_andThen_ok h

theorem run_announcing_error {f : Failure} (h : (m.call name (body.run σ)).result = .error f) :
    (announcing name announce body next).run σ m =
      ⟨(m.call name (body.run σ)).events ++ [(announce f.sighting).1], .ok (),
        (m.call name (body.run σ)).machine⟩ := by
  have hsay : ∀ m', (announcement announce).run (σ.know f) m' =
      Action.report [(announce f.sighting).1] () m' :=
    fun m' => congrFun (run_say _ _ (σ.know f)) m'
  have hcall : ((call name body).run σ m).result = .error f := h
  rw [announcing, run_andThen_error hcall, hsay]
  rfl

end Announcing

theorem run_enter (name : String) (body : BlindRoutine n k α) (σ : Env n k) (m : Machine) :
    (enter name body).run σ m =
      ⟨(m.enter name (body.run σ)).events, .ok (), (m.enter name (body.run σ)).machine⟩ := by
  cases hr : (m.call name (body.run σ)).result with
  | ok a =>
    rw [enter, run_announcing_ok hr]
    simp only [Machine.enter, Step.andThen, hr]
    rfl
  | error f =>
    rw [enter, run_announcing_error hr]
    simp only [Machine.enter, Step.andThen, hr]
    rfl

end Routine

namespace Task

/-- The routine of a task. It does not fail. -/
def routine (t : Task) : BlindRoutine n k Unit :=
  match t.entry with
  | none => (Stmt.routineBody t.body 0).andThen (fun _ => .done ()) (.done ())
  | some name => .enter name (Stmt.routineBody t.body 0)

theorem run_routine (t : Task) (σ : Env n 0) (m : Machine) :
    t.routine.run σ m = ⟨(t.run m).events, .ok (), (t.run m).machine⟩ := by
  have hbody : Stmt.runBody t.body [] 0 = (Stmt.routineBody t.body 0).run σ :=
    Stmt.runBody_routine t.body σ 0
  unfold routine run
  rw [hbody]
  cases t.entry with
  | none =>
    simp only [Routine.run, Step.andThen]
    cases ((Stmt.routineBody t.body 0).run σ m).result <;> rfl
  | some name =>
    simp only [Routine.run_enter, Step.andThen]
    cases (m.enter name ((Stmt.routineBody t.body 0).run σ)).result <;> simp

/-- Do tasks one after the other. -/
def routineAll : {n : Nat} → List Task → BlindRoutine n 0 Unit
  | _, [] => .done ()
  | _, t :: rest => t.routine.andThen (fun _ => routineAll rest) (routineAll rest)

theorem run_routineAll (tasks : List Task) (σ : Env n 0) (m : Machine) :
    ((routineAll tasks).run σ m).events = (runAll tasks m).flatMap (·.events) ∧
      ((routineAll tasks).run σ m).machine = (runAll tasks m).foldl (fun _ s => s.machine) m := by
  induction tasks generalizing m with
  | nil => exact ⟨rfl, rfl⟩
  | cons t rest ih =>
    obtain ⟨hevents, hmachine⟩ := ih (t.run m).machine
    have hok : (t.routine.run σ m).result = .ok () := by rw [run_routine]
    rw [routineAll, Routine.run_andThen_ok hok, run_routine, runAll, List.flatMap_cons]
    exact ⟨congrArg ((t.run m).events ++ ·) hevents, hmachine⟩

end Task

namespace Startup

def phaseRoutine (body : List Stmt) : BlindRoutine n k Ended :=
  (Routine.act (.retain fun _ => false)).bind fun _ => Stmt.routineBody body 0

theorem run_phaseRoutine (body : List Stmt) (σ : Env n 0) :
    (phaseRoutine body).run σ = phase body := by
  funext m
  have hbody : Stmt.runBody body [] 0 = (Stmt.routineBody body 0).run σ :=
    Stmt.runBody_routine body σ 0
  have hnone : (m.kept.filter fun _ => false) = [] :=
    List.filter_eq_nil_iff.2 fun _ _ => Bool.false_ne_true
  rw [phaseRoutine, Routine.run_bind, phase, hbody, ← hnone]
  rfl

/-- The routine of a startup from some initializer on. -/
def routineFrom (p : Startup) : List (String × List Stmt) → BlindRoutine n k Unit
  | [] => .enter p.entry (phaseRoutine p.body)
  | (name, body) :: rest =>
    .announcing name (fun f => .trace (.uncaughtInit f.id name f.payload) rfl) (phaseRoutine body)
      (routineFrom p rest)

def routine (p : Startup) : BlindRoutine 0 0 Unit :=
  p.routineFrom p.inits

theorem run_routineFrom (p : Startup) (inits : List (String × List Stmt)) (σ : Env n 0)
    (m : Machine) :
    let s := (m.initialise (inits.map fun init => (init.1, phase init.2))).andThen fun
      | .error f => fun m => ⟨[], .error f, m⟩
      | .ok () => Machine.enter p.entry (phase p.body)
    (p.routineFrom inits).run σ m = ⟨s.events, .ok (), s.machine⟩ := by
  induction inits generalizing m with
  | nil =>
    rw [routineFrom, Routine.run_enter, run_phaseRoutine]
    rfl
  | cons init rest ih =>
    obtain ⟨name, body⟩ := init
    have hphase := run_phaseRoutine body σ
    cases hr : (m.call name (phase body)).result with
    | ok e =>
      rw [routineFrom, Routine.run_announcing_ok (by rw [hphase, hr]), hphase, ih]
      simp only [List.map_cons, Machine.initialise, Step.andThen, hr, List.append_assoc]
    | error f =>
      rw [routineFrom, Routine.run_announcing_error (by rw [hphase, hr]), hphase]
      simp only [List.map_cons, Machine.initialise, Step.andThen, hr, List.append_nil]
      rfl

theorem run_routine (p : Startup) :
    p.routine.run .empty (Machine.new p.config) = ⟨p.run.events, .ok (), p.run.machine⟩ :=
  p.run_routineFrom p.inits .empty _

end Startup

end Unwind
