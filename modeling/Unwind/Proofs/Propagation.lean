import Unwind.Proofs.Layers

/-!
# The way of a failure through layers

A failure raised inside layers of which none keeps it comes out with a trail that can be read off
the layers. One layer adds its own hops (`Escapes.call`, `Escapes.guard`), and `escapes_around` is
the induction over all of them.
-/

namespace Unwind

variable {α : Type}

namespace Failure

/-- Add hops to the trail, the first of them first. -/
def recordAll (f : Failure) (hops : List Hop) : Failure :=
  hops.foldl record f

theorem recordAll_append (f : Failure) (hops hops' : List Hop) :
    f.recordAll (hops ++ hops') = (f.recordAll hops).recordAll hops' :=
  List.foldl_append

theorem recordAll_concat (f : Failure) (hops : List Hop) (hop : Hop) :
    f.recordAll (hops ++ [hop]) = (f.recordAll hops).record hop :=
  f.recordAll_append hops [hop]

theorem record_payload (f : Failure) (hop : Hop) : (f.record hop).payload = f.payload := by
  unfold record
  split <;> rfl

theorem recordAll_payload (f : Failure) (hops : List Hop) :
    (f.recordAll hops).payload = f.payload := by
  induction hops generalizing f with
  | nil => rfl
  | cons hop rest ih => exact (ih (f.record hop)).trans (f.record_payload hop)

/-- A trail is cut off at its limit. -/
theorem recordAll_eq {f : Failure} (h : f.hops.length ≤ f.hopLimit) (hops : List Hop) :
    f.recordAll hops = { f with hops := (f.hops ++ hops).take f.hopLimit } := by
  induction hops generalizing f with
  | nil => rw [List.append_nil, List.take_of_length_le h]; rfl
  | cons hop rest ih =>
    change (f.record hop).recordAll rest = _
    by_cases hlt : f.hops.length < f.hopLimit
    · have hrec : f.record hop = { f with hops := f.hops ++ [hop] } := if_pos hlt
      have hlen : (f.hops ++ [hop]).length ≤ f.hopLimit := by simpa using Nat.succ_le_of_lt hlt
      rw [hrec, ih (f := { f with hops := f.hops ++ [hop] }) hlen, List.append_assoc]
      rfl
    · have hrec : f.record hop = f := if_neg hlt
      have hfull : f.hopLimit ≤ f.hops.length := Nat.le_of_not_lt hlt
      rw [hrec, ih h, List.take_append_of_le_length hfull, List.take_append_of_le_length hfull]

end Failure

namespace Layer

/-- A layer does not keep payloads of kind `k`: no clause takes them, or the first that does only
sends them on. -/
def LetsThrough (k : Kind) : Layer α → Prop
  | .call .. => True
  | .guard _ clauses =>
    ∀ c, clauses.find? (·.selector.accepts k) = some c → c.run = Handled.rethrow

/-- The hops that a failure of kind `k` makes on its way out of a layer. If the layer is a region,
its number is `id`. -/
def hops (k : Kind) (id : Nat) : Layer α → List Hop
  | .call name resources => [.unwound name resources.length]
  | .guard resources clauses =>
    (if resources.length = 0 then [] else [.released id resources.length]) ++
      [match clauses.find? (·.selector.accepts k) with
        | none => .passed id
        | some _ => .rethrown id]

/-- The hops through layers that were entered when `entered` regions were. -/
def trail (k : Kind) (entered : Nat) : List (Layer α) → List Hop
  | [] => []
  | layer :: outer => layer.hops k (regionId entered layer outer) ++ trail k entered outer

theorem trail_concat (k : Kind) (entered : Nat) (inner : List (Layer α)) (layer : Layer α) :
    trail k entered (inner ++ [layer]) =
      trail k (entered + [layer].countP isRegion) inner ++
        layer.hops k (entered + [layer].countP isRegion) := by
  induction inner with
  | nil => simp [trail, regionId]
  | cons x rest ih =>
    have hid : regionId entered x (rest ++ [layer]) =
        regionId (entered + [layer].countP isRegion) x rest := by
      rw [regionId, regionId, ← List.cons_append, List.countP_append]
      omega
    rw [List.cons_append, trail, trail, ih, hid, List.append_assoc]

/-- A failure as it is when it is raised inside layers. -/
def raised (p : Payload) (layers : List (Layer α)) (m : Machine) : Failure where
  id := m.raises + 1
  payload := p
  origin := (layers.findSome? callName?).getD m.stack.topName
  hopLimit := m.config.hopLimit

/-- What becomes of a payload raised inside layers that let it through. -/
structure Escapes (p : Payload) (layers : List (Layer α)) (m : Machine)
    (s : Step (Except Failure α)) : Prop where
  result : s.result = .error ((raised p layers m).recordAll (trail p.kind m.entered layers))
  scopes : m.SameScopes s.machine
  raises : s.machine.raises = m.raises + 1
  entered : s.machine.entered = m.entered + layers.countP isRegion

theorem raised_concat_call (p : Payload) (inner : List (Layer α)) (m : Machine) (name : String)
    (resources : List Resource) :
    raised p (inner ++ [.call name resources]) m =
      raised p inner ((m.withFrame name).acquire resources.reverse) := by
  have horigin : ((inner ++ [Layer.call name resources]).findSome? callName?).getD m.stack.topName =
      (inner.findSome? callName?).getD name := by
    rw [List.findSome?_append]
    cases inner.findSome? callName? <;> rfl
  rw [raised, horigin]
  rfl

theorem raised_concat_guard (p : Payload) (inner : List (Layer α)) (m : Machine)
    (resources : List Resource) (clauses : List (Clause α)) :
    raised p (inner ++ [.guard resources clauses]) m =
      raised p inner (m.withRegion.acquire resources.reverse) := by
  have horigin : (inner ++ [Layer.guard resources clauses]).findSome? callName? =
      inner.findSome? callName? := by
    rw [List.findSome?_append]
    exact Option.or_none
  rw [raised, horigin]
  rfl

theorem Escapes.call {p : Payload} {inner : List (Layer α)} {act : Action α} {name : String}
    {resources : List Resource} (h : ∀ m, Escapes p inner m (act m)) (m : Machine) :
    Escapes p (inner ++ [.call name resources]) m ((Layer.call name resources).wrap act m) := by
  have hin := h ((m.withFrame name).acquire resources.reverse)
  have hbody := act.deferring_eq resources (m.withFrame name)
  have hs : (act.deferring resources (m.withFrame name)).machine.stack =
      (m.stack.push name).acquire resources.reverse := by
    rw [hbody]
    exact hin.scopes.1
  rw [wrap, Machine.call_eq hs, hbody]
  refine ⟨?_, ⟨rfl, hin.scopes.2⟩, hin.raises, ?_⟩
  · rw [trail_concat, Failure.recordAll_append, raised_concat_call, List.length_reverse]
    exact congrArg (Except.mapError _) hin.result
  · rw [List.countP_append]
    exact hin.entered

/-- A guarded region that lets a failure through hands it on unchanged but for one hop. -/
theorem guard_of_letsThrough {m : Machine} {body : Action α} {clauses : List (Clause α)}
    {resources : List Resource} {f : Failure} (hf : (m.enterRegion body).result.2 = .error f)
    (hthrough : (Layer.guard resources clauses).LetsThrough f.kind) :
    (m.guard body clauses).machine = (m.enterRegion body).machine ∧
      (m.guard body clauses).result =
        .error (f.record (match clauses.find? (·.selector.accepts f.kind) with
          | none => .passed (m.entered + 1)
          | some _ => .rethrown (m.entered + 1))) := by
  rw [Machine.guard_of_error hf, Step.andThen]
  cases hfind : clauses.find? (·.selector.accepts f.kind) with
  | none =>
    rw [Machine.offer_of_none hfind]
    exact ⟨rfl, rfl⟩
  | some c =>
    rw [Machine.offer_of_first hfind, hthrough c hfind]
    exact ⟨rfl, rfl⟩

/-- When a failure leaves the body of a region, the region is closed and its resources released. -/
theorem Escapes.enterRegion {p : Payload} {inner : List (Layer α)} {act : Action α}
    (h : ∀ m, Escapes p inner m (act m)) (resources : List Resource) (m : Machine) :
    let s := m.enterRegion (act.deferring resources)
    s.result.2 = .error ((raised p inner (m.withRegion.acquire resources.reverse)).recordAll
        (trail p.kind (m.entered + 1) inner ++
          if resources.length = 0 then [] else [.released (m.entered + 1) resources.length])) ∧
      m.SameScopes s.machine ∧ s.machine.raises = m.raises + 1 ∧
      s.machine.entered = m.entered + 1 + inner.countP isRegion := by
  intro s
  have hin := h (m.withRegion.acquire resources.reverse)
  have hbody := act.deferring_eq resources m.withRegion
  have hs : (act.deferring resources m.withRegion).machine.stack =
      m.stack.acquire resources.reverse := by
    rw [hbody]
    exact hin.scopes.1
  have hregion : s = _ := Machine.enterRegion_eq hs
  rw [hregion, hbody]
  refine ⟨?_, ⟨rfl, ?_⟩, hin.raises, hin.entered⟩
  · rw [Failure.recordAll_append, List.length_reverse]
    refine (congrArg (Except.mapError _) hin.result).trans ?_
    split <;> rfl
  · change List.filter _ (act _).machine.regions = m.regions
    rw [hin.scopes.2]
    exact m.filter_withRegion_regions

theorem Escapes.guard {p : Payload} {inner : List (Layer α)} {act : Action α}
    {resources : List Resource} {clauses : List (Clause α)}
    (hthrough : (Layer.guard resources clauses).LetsThrough p.kind)
    (h : ∀ m, Escapes p inner m (act m)) (m : Machine) :
    Escapes p (inner ++ [.guard resources clauses]) m
      ((Layer.guard resources clauses).wrap act m) := by
  obtain ⟨hf, hscopes, hraises, hentered⟩ := Escapes.enterRegion h resources m
  have hkind : ∀ hops, ((raised p inner (m.withRegion.acquire resources.reverse)).recordAll
      hops).kind = p.kind :=
    fun hops => congrArg Payload.kind (Failure.recordAll_payload _ hops)
  obtain ⟨hmachine, hresult⟩ := guard_of_letsThrough hf (by rwa [hkind])
  rw [wrap]
  refine ⟨hresult.trans ?_, ?_, ?_, ?_⟩
  · rw [hkind, trail_concat, raised_concat_guard, hops, ← List.append_assoc]
    exact congrArg _ (Failure.recordAll_concat ..).symm
  · rw [hmachine]
    exact hscopes
  · rw [hmachine]
    exact hraises
  · rw [hmachine, hentered, List.countP_append, Nat.add_right_comm]
    rfl

theorem escapes_around {p : Payload} {layers : List (Layer α)}
    (h : ∀ layer ∈ layers, layer.LetsThrough p.kind) (m : Machine) :
    Escapes p layers m (around layers (Machine.raise p) m) := by
  -- The outermost layer comes last in the list and is entered first: what it does to the machine is
  -- what the layers inside it start with.
  induction layers using List.reverseRecOn generalizing m with
  | nil => exact ⟨rfl, ⟨rfl, rfl⟩, rfl, rfl⟩
  | append_singleton inner layer ih =>
    rw [List.forall_mem_append] at h
    rw [around_append]
    cases layer with
    | call name resources => exact .call (ih h.1) m
    | guard resources clauses => exact .guard (h.2 _ (List.mem_singleton_self _)) (ih h.1) m

end Layer

open Layer

/-- A payload raised inside layers that all let it through comes out of them as one failure, and
everything else is as before. The failure has the next number, the payload, the innermost call for
its origin and, up to the limit, the hops of the layers for its trail, the innermost first. As an
entry point the nest ends fatally, with one hop more. -/
theorem failure_propagates {p : Payload} {layers : List (Layer α)}
    (h : ∀ layer ∈ layers, layer.LetsThrough p.kind) (m : Machine) :
    let nest := around layers (Machine.raise p)
    let failure (current : String) (hops : List Hop) : Failure :=
      { id := m.raises + 1
        payload := p
        origin := (layers.findSome? callName?).getD current
        hops := hops.take m.config.hopLimit
        hopLimit := m.config.hopLimit }
    ((nest m).result = .error (failure m.stack.topName (trail p.kind m.entered layers)) ∧
      m.SameScopes (nest m).machine ∧
      (nest m).machine.raises = m.raises + 1 ∧
      (nest m).machine.entered = m.entered + layers.countP isRegion) ∧
    ∀ name,
      (m.enter name nest).result = .error (.uncaught name
        (failure name (trail p.kind m.entered layers ++ [.unwound name 0]))) ∧
      m.SameScopes (m.enter name nest).machine := by
  intro nest failure
  refine ⟨?_, fun name => ?_⟩
  · have hout := escapes_around h m
    refine ⟨hout.result.trans ?_, hout.scopes, hout.raises, hout.entered⟩
    rw [Failure.recordAll_eq (Nat.zero_le _)]
    rfl
  · have hcall : Escapes p (layers ++ [.call name []]) m (m.call name nest) :=
      .call (escapes_around h) m
    have htrail : trail p.kind m.entered (layers ++ [Layer.call name []]) =
        trail p.kind m.entered layers ++ [.unwound name 0] := trail_concat ..
    rw [Machine.enter_of_error hcall.result, Machine.enter_machine]
    refine ⟨?_, hcall.scopes⟩
    rw [raised_concat_call, htrail, Failure.recordAll_eq (Nat.zero_le _)]
    rfl

/-- An integer leaves a function that holds two resources, a region for records that holds one, a
region that sends it on, and a function, when the trail has room for three hops. -/
theorem failure_propagates_four :
    let record : Clause Int32 := ⟨.kind .record, fun _ => Action.done 0⟩
    let int : Clause Int32 := ⟨.kind .int, Handled.rethrow⟩
    let layers : List (Layer Int32) :=
      [.call "f" [.noted "a", .noted "b"], .guard [.noted "c"] [record], .guard [] [record, int],
        .call "g" []]
    (∀ layer ∈ layers, layer.LetsThrough .int) ∧
      (around layers (Machine.raise (.int 5)) (Machine.new { hopLimit := 3 })).result =
        .error
          { id := 1
            payload := .int 5
            origin := "f"
            hops := [.unwound "f" 2, .released 2 1, .passed 2]
            hopLimit := 3 } := by
  intro record int layers
  have hthrough : ∀ layer ∈ layers, layer.LetsThrough .int := by
    simp [layers, LetsThrough, record, int, Selector.accepts]
  exact ⟨hthrough, (failure_propagates (p := .int 5) hthrough _).1.1⟩

end Unwind
