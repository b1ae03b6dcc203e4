import Unwind.Proofs.Recording

/-!
# Which operations a recorder accepts

A recorder accepts the walks over well-formed outlines and nothing else. That an accepted sequence
of operations is well-nested is shown from the front: in every state `Rest` says what the operations
that are still to come have to look like.
-/

namespace Unwind

/-! ## Functions in an index -/

namespace CallIndex

/-- The entry of a function, which is empty if it is missing. -/
def entryIn (fns : List FunctionEntry) (name : String) : FunctionEntry :=
  (fns.find? (·.name = name)).getD { name }

def entryOf (ix : CallIndex) (name : String) : FunctionEntry :=
  entryIn ix.functions name

theorem function?_bind_decl (ix : CallIndex) (name : String) :
    (ix.function? name).bind (·.decl) = (ix.entryOf name).decl := by
  rw [entryOf, entryIn, function?]
  cases ix.functions.find? (·.name = name) <;> rfl

def declare (ix : CallIndex) (f : OutlineFunction) : CallIndex :=
  ix.update f.name fun e => { e with decl := some f.loc }

section

variable {change : FunctionEntry → FunctionEntry} (hchange : ∀ e, (change e).name = e.name)
include hchange

theorem entryIn_updateIn (fns : List FunctionEntry) (name other : String) :
    entryIn (updateIn name change fns) other =
      if other = name then change (entryIn fns name) else entryIn fns other := by
  have hcons : ∀ (e : FunctionEntry) fns name, entryIn (e :: fns) name =
      if e.name = name then e else entryIn fns name := by
    intro e fns name
    by_cases h : e.name = name <;> simp [entryIn, h]
  induction fns with
  | nil =>
    by_cases h : other = name
    · subst h
      simp [updateIn, entryIn, hchange]
    · simp [updateIn, entryIn, hchange, h, Ne.symm h]
  | cons e fns ih =>
    rw [updateIn]
    by_cases he : e.name = name
    · subst he
      rw [if_pos rfl, hcons, hcons, hcons, hchange, if_pos rfl]
      by_cases h : other = e.name
      · rw [if_pos h.symm, if_pos h]
      · rw [if_neg (Ne.symm h), if_neg h, if_neg (Ne.symm h)]
    · rw [if_neg he, hcons, hcons, hcons, ih, if_neg he]
      by_cases h : other = name
      · subst h
        rw [if_neg he, if_pos rfl, if_pos rfl]
      · rw [if_neg h, if_neg h]

theorem names_updateIn (fns : List FunctionEntry) (name : String) :
    (updateIn name change fns).map (·.name) =
      if name ∈ fns.map (·.name) then fns.map (·.name) else fns.map (·.name) ++ [name] := by
  induction fns with
  | nil => simp [updateIn, hchange]
  | cons e fns ih =>
    rw [updateIn]
    by_cases he : e.name = name
    · simp [he, hchange]
    · rw [if_neg he, List.map_cons, ih, List.map_cons]
      by_cases h : name ∈ fns.map (·.name)
      · rw [if_pos h, if_pos (List.mem_cons_of_mem _ h)]
      · rw [if_neg h, if_neg fun hmem => (List.mem_cons.1 hmem).elim (Ne.symm he) h]
        rfl

theorem mem_names_updateIn (fns : List FunctionEntry) (name other : String) :
    other ∈ (updateIn name change fns).map (·.name) ↔
      other = name ∨ other ∈ fns.map (·.name) := by
  rw [names_updateIn hchange]
  split
  · rename_i hmem
    exact ⟨.inr, fun h => h.elim (fun heq => heq ▸ hmem) fun h => h⟩
  · rw [List.mem_append, List.mem_singleton, or_comm]

theorem nodup_names_updateIn {fns : List FunctionEntry} (h : (fns.map (·.name)).Nodup)
    (name : String) : ((updateIn name change fns).map (·.name)).Nodup := by
  rw [names_updateIn hchange]
  split
  · exact h
  · rename_i hmem
    refine List.nodup_append.2 ⟨h, by simp, ?_⟩
    intro a ha b hb heq
    rw [List.mem_singleton.1 hb] at heq
    exact hmem (heq ▸ ha)

end

/-- What is known of a function from some sites, added to its entry. -/
theorem entryIn_noteCall (fns : List FunctionEntry) (s : OutlineSite) (name : String) :
    let e := entryIn fns name
    entryIn (noteCall fns s) name = { e with
      callers := e.callers ++ (s.callTo? name).toList
      calls := e.calls ++ (s.callFrom? name).toList } := by
  cases s with
  | throw | rethrow => simp [noteCall, OutlineSite.callTo?, OutlineSite.callFrom?]
  | call p callee loc =>
    simp only [noteCall, entryIn_updateIn, implies_true, OutlineSite.callTo?, OutlineSite.callFrom?]
    -- A function may call itself, and then both ends are in one entry.
    by_cases hto : name = callee
    · subst hto
      by_cases hfrom : name = p.function
      · simp [hfrom]
      · simp [hfrom, Ne.symm hfrom]
    · by_cases hfrom : name = p.function
      · subst hfrom
        simp [hto, Ne.symm hto]
      · simp [hto, hfrom, Ne.symm hto, Ne.symm hfrom]

theorem mem_names_noteCall (fns : List FunctionEntry) (s : OutlineSite) (name : String) :
    name ∈ (noteCall fns s).map (·.name) ↔ name ∈ fns.map (·.name) ∨ s.Mentions name := by
  cases s with
  | throw | rethrow => simp [noteCall, OutlineSite.Mentions]
  | call p callee loc =>
    simp only [noteCall, mem_names_updateIn, implies_true, OutlineSite.Mentions]
    rw [← or_assoc, or_comm]

theorem nodup_names_noteCall {fns : List FunctionEntry} (h : (fns.map (·.name)).Nodup)
    (s : OutlineSite) : ((noteCall fns s).map (·.name)).Nodup := by
  cases s with
  | throw | rethrow => exact h
  | call p callee loc =>
    rw [noteCall]
    exact nodup_names_updateIn (by exact fun _ => rfl)
      (nodup_names_updateIn (by exact fun _ => rfl) h _) _

/-- All that `ix'` has and `ix` has not: the declarations of some functions, and what stands in a
layout. -/
structure Adds (ix ix' : CallIndex) (fns : Outline) (L : Layout) : Prop where
  regions : ix'.regions = ix.regions ++ L.regions
  throws : ix'.throws = ix.throws ++ L.sites.filterMap OutlineSite.throwEntry?
  entry : ∀ name, ix'.entryOf name =
    { name := (ix.entryOf name).name
      decl := (ix.entryOf name).decl.or ((fns.find? (·.name = name)).map (·.loc))
      callers := (ix.entryOf name).callers ++ L.sites.filterMap (OutlineSite.callTo? name)
      calls := (ix.entryOf name).calls ++ L.sites.filterMap (OutlineSite.callFrom? name) }
  names : ∀ name, name ∈ ix'.functions.map (·.name) ↔ name ∈ ix.functions.map (·.name) ∨
    name ∈ fns.map (·.name) ∨ ∃ s ∈ L.sites, s.Mentions name
  distinct : (ix.functions.map (·.name)).Nodup → (ix'.functions.map (·.name)).Nodup

namespace Adds

variable {ix ix' ix'' : CallIndex} {fns fns' : Outline} {L L' : Layout}

theorem refl (ix : CallIndex) : ix.Adds ix [] {} := by
  constructor <;> simp

theorem trans (h : ix.Adds ix' fns L) (h' : ix'.Adds ix'' fns' L') :
    ix.Adds ix'' (fns ++ fns') (L ++ L') where
  regions := by rw [h'.regions, h.regions, List.append_assoc, Layout.append_regions]
  throws := by
    rw [h'.throws, h.throws, List.append_assoc, Layout.append_sites, List.filterMap_append]
  entry name := by
    simp [h'.entry, h.entry, List.find?_append, Option.or_assoc, Option.map_or]
  names name := by
    simp only [h'.names, h.names, List.map_append, Layout.append_sites, List.mem_append,
      or_and_right, exists_or]
    constructor
    · rintro ((hix | hfn | hs) | hfn | hs)
      · exact .inl hix
      · exact .inr (.inl (.inl hfn))
      · exact .inr (.inr (.inl hs))
      · exact .inr (.inl (.inr hfn))
      · exact .inr (.inr (.inr hs))
    · rintro (hix | (hfn | hfn) | hs | hs)
      · exact .inl (.inl hix)
      · exact .inl (.inr (.inl hfn))
      · exact .inr (.inl hfn)
      · exact .inl (.inr (.inr hs))
      · exact .inr (.inr hs)
  distinct := h'.distinct ∘ h.distinct

theorem note_ofSite (ix : CallIndex) (s : OutlineSite) :
    ix.Adds (ix.note (.ofSite s)) [] (.ofSite s) := by
  rw [CallIndex.note_ofSite]
  constructor
  · exact (List.append_nil _).symm
  · cases h : s.throwEntry? <;> simp [Layout.ofSite, h]
  · intro name
    refine (entryIn_noteCall ix.functions s name).trans ?_
    cases hto : s.callTo? name <;> cases hfrom : s.callFrom? name <;>
      simp [Layout.ofSite, entryOf, hto, hfrom]
  · intro name
    simpa [Layout.ofSite] using mem_names_noteCall ix.functions s name
  · exact fun h => nodup_names_noteCall h s

theorem note (ix : CallIndex) (L : Layout) : ix.Adds (ix.note L) [] L := by
  obtain ⟨regions, sites⟩ := L
  induction sites generalizing ix with
  | nil => constructor <;> simp [CallIndex.note, entryOf]
  | cons s sites ih =>
    have hsplit : (⟨regions, s :: sites⟩ : Layout) = .ofSite s ++ ⟨regions, sites⟩ := rfl
    rw [hsplit, note_append]
    exact (note_ofSite ix s).trans (ih _)

theorem declare (ix : CallIndex) (f : OutlineFunction) (h : (ix.entryOf f.name).decl = none) :
    ix.Adds (ix.declare f) [f] {} := by
  constructor
  · simp [CallIndex.declare, update]
  · simp [CallIndex.declare, update]
  · intro name
    refine (entryIn_updateIn (fun _ => by rfl) ix.functions f.name name).trans ?_
    by_cases hname : name = f.name
    · subst hname
      have hdecl : (entryIn ix.functions f.name).decl = none := h
      simp [entryOf, hdecl]
    · simp [hname, Ne.symm hname, entryOf]
  · intro name
    simp [CallIndex.declare, update, mem_names_updateIn, or_comm]
  · exact fun h => nodup_names_updateIn (by exact fun _ => rfl) h _

end Adds

/-- None of some functions is declared yet, nor any of them twice. -/
structure Fresh (ix : CallIndex) (fns : Outline) : Prop where
  distinct : (fns.map (·.name)).Nodup
  undeclared : ∀ f ∈ fns, (ix.entryOf f.name).decl = none

theorem fresh_cons {ix ix' : CallIndex} {f : OutlineFunction} {fns : Outline} {L : Layout}
    (h : ix.Adds ix' [f] L) :
    ix.Fresh (f :: fns) ↔ (ix.entryOf f.name).decl = none ∧ ix'.Fresh fns := by
  have hdecl : ∀ name, (ix'.entryOf name).decl = none ↔
      (ix.entryOf name).decl = none ∧ f.name ≠ name := by
    intro name
    rw [h.entry]
    simp [Option.or_eq_none_iff]
  constructor
  · rintro ⟨hdistinct, hundeclared⟩
    rw [List.map_cons, List.nodup_cons] at hdistinct
    rw [List.forall_mem_cons] at hundeclared
    refine ⟨hundeclared.1, hdistinct.2, fun g hg => ?_⟩
    refine (hdecl g.name).2 ⟨hundeclared.2 g hg, fun heq => hdistinct.1 ?_⟩
    rw [heq]
    exact List.mem_map_of_mem hg
  · rintro ⟨hf, hdistinct, hundeclared⟩
    refine ⟨List.nodup_cons.2 ⟨fun hmem => ?_, hdistinct⟩, List.forall_mem_cons.2 ⟨hf, ?_⟩⟩
    · obtain ⟨g, hg, heq⟩ := List.mem_map.1 hmem
      exact ((hdecl g.name).1 (hundeclared g hg)).2 heq.symm
    · exact fun g hg => ((hdecl g.name).1 (hundeclared g hg)).1

/-- Declare a function and add what stands in it. -/
def recordFunction (ix : CallIndex) (f : OutlineFunction) : CallIndex :=
  (ix.declare f).note (f.layout ix.regions.length)

def record : CallIndex → Outline → CallIndex :=
  List.foldl recordFunction

theorem recordFunction_adds {ix : CallIndex} {f : OutlineFunction}
    (h : (ix.entryOf f.name).decl = none) :
    ix.Adds (ix.recordFunction f) [f] (f.layout ix.regions.length) :=
  (Adds.declare ix f h).trans (.note _ _)

theorem record_adds {ix : CallIndex} {fns : Outline} (h : ix.Fresh fns) :
    ix.Adds (ix.record fns) fns (fns.layout ix.regions.length) := by
  induction fns generalizing ix with
  | nil => exact .refl ix
  | cons f rest ih =>
    have hf := recordFunction_adds (h.undeclared f List.mem_cons_self)
    have hrest := ih ((fresh_cons hf).1 h).2
    rw [hf.regions, List.length_append] at hrest
    exact hf.trans hrest

end CallIndex

/-! ## Functions of an outline -/

namespace Recorder

theorem accepts_enterFunction (ix : CallIndex) (f : OutlineFunction) (r' : Recorder) :
    Accepts { index := ix } [.enterFunction f.name f.loc] r' ↔
      (ix.entryOf f.name).decl = none ∧ r' = { index := ix.declare f, current := some f.name } := by
  rw [accepts_singleton, step, enterFunction]
  simp only [CallIndex.function?_bind_decl]
  cases (ix.entryOf f.name).decl with
  | none => simp [orRefuse, CallIndex.declare, eq_comm]
  | some first => simp [orRefuse]

theorem accepts_walkFunction (ix : CallIndex) (f : OutlineFunction) (r' : Recorder) :
    Accepts { index := ix } f.walk r' ↔
      ((ix.entryOf f.name).decl = none ∧ (f.layout ix.regions.length).WellFormed) ∧
        r' = { index := ix.recordFunction f } := by
  have hstands : StandsAt { index := ix.declare f, current := some f.name } ⟨f.name, []⟩ :=
    ⟨rfl, rfl⟩
  have hleave : Accepts { index := ix.recordFunction f, current := some f.name }
      [.leaveFunction] r' ↔ True ∧ r' = { index := ix.recordFunction f } := by
    rw [accepts_singleton, true_and, eq_comm, Prod.mk.injEq]
    exact and_iff_left rfl
  have hbody := accepts_append_of (OutlineStmt.accepts_walkBody f.body hstands rfl) hleave
  rw [OutlineFunction.walk, ← List.singleton_append,
    accepts_append_of (accepts_enterFunction ix f) hbody, and_true]
  rfl

end Recorder

namespace Outline

open Recorder

/-- A walk over an outline is accepted exactly if the functions are new and their layout is
well-formed. -/
theorem accepts_walk (fns : Outline) (ix : CallIndex) (r' : Recorder) :
    Accepts { index := ix } fns.walk r' ↔
      (ix.Fresh fns ∧ (fns.layout ix.regions.length).WellFormed) ∧
        r' = { index := ix.record fns } := by
  induction fns generalizing ix with
  | nil =>
    have hfresh : ix.Fresh [] := ⟨List.nodup_nil, List.forall_mem_nil _⟩
    simp [walk, layout, accepts_nil, hfresh, Layout.WellFormed, CallIndex.record]
  | cons f rest ih =>
    rw [walk, accepts_append_of (accepts_walkFunction ix f) (ih (ix.recordFunction f)), layout,
      Layout.wellFormed_append]
    refine and_congr_left' ?_
    constructor
    · rintro ⟨⟨hdecl, hf⟩, hfresh, hrest⟩
      have hadds := CallIndex.recordFunction_adds hdecl
      rw [hadds.regions, List.length_append] at hrest
      exact ⟨(CallIndex.fresh_cons hadds).2 ⟨hdecl, hfresh⟩, hf, hrest⟩
    · rintro ⟨hfresh, hf, hrest⟩
      have hdecl := hfresh.undeclared f List.mem_cons_self
      have hadds := CallIndex.recordFunction_adds hdecl
      rw [← List.length_append, ← hadds.regions] at hrest
      exact ⟨⟨hdecl, hf⟩, ((CallIndex.fresh_cons hadds).1 hfresh).2, hrest⟩

end Outline

/-! ## Well-nested operations -/

/-- Where a walk is: outside of functions, or in one with so many regions open. -/
inductive WalkOp.Moves : WalkOp → Option Nat → Option Nat → Prop where
  | enterFunction {name : String} {loc : Location} : Moves (.enterFunction name loc) none (some 0)
  | leaveFunction : Moves .leaveFunction (some 0) none
  | call {callee : String} {loc : Location} {n : Nat} : Moves (.call callee loc) (some n) (some n)
  | throw {loc : Location} {kind : Kind} {n : Nat} : Moves (.throw loc kind) (some n) (some n)
  | rethrow {loc : Location} {n : Nat} : Moves (.rethrow loc) (some n) (some n)
  | openRegion {loc : Location} {n : Nat} : Moves (.openRegion loc) (some n) (some (n + 1))
  | startClause {loc : Location} {selector : Selector} {n : Nat} :
    Moves (.startClause loc selector) (some (n + 1)) (some (n + 1))
  | closeRegion {n : Nat} : Moves .closeRegion (some (n + 1)) (some n)

namespace Recorder

variable {r r' : Recorder}

def depth? (r : Recorder) : Option Nat :=
  r.current.map fun _ => r.opened.length

/-- Regions are open only in a function. -/
def Sane (r : Recorder) : Prop :=
  r.current = none → r.opened = []

theorem orRefuse_eq_none {result : Except WalkError Recorder} :
    r.orRefuse result = (r', none) ↔ result = .ok r' := by
  cases result with
  | ok r₁ => simp [orRefuse]
  | error e => simp [orRefuse]

theorem inFunction_bind_eq_ok {what : Construct} {loc : Location}
    {next : String → Except WalkError Recorder} (h : (r.inFunction what loc >>= next) = .ok r') :
    ∃ function, r.current = some function ∧ next function = .ok r' := by
  unfold inFunction at h
  cases hc : r.current with
  | none =>
    rw [hc] at h
    cases h
  | some function =>
    rw [hc] at h
    exact ⟨function, rfl, h⟩

/-- A region is open, so a function is being walked. -/
theorem Sane.exists_current (h : r.Sane) {t : WalkedRegion} {rest : List WalkedRegion}
    (ho : r.opened = t :: rest) : ∃ function, r.current = some function := by
  cases hc : r.current with
  | none => cases ho.symm.trans (h hc)
  | some function => exact ⟨function, rfl⟩

theorem moves_inside {op : WalkOp} {function function' : String} (hc : r.current = some function)
    (hc' : r'.current = some function')
    (h : op.Moves (some r.opened.length) (some r'.opened.length)) :
    op.Moves r.depth? r'.depth? ∧ r'.Sane := by
  refine ⟨?_, fun hnone => nomatch hc'.symm.trans hnone⟩
  rw [depth?, depth?, hc, hc']
  exact h

theorem moves_of_step {op : WalkOp} (hsane : r.Sane) (h : r.step op = (r', none)) :
    op.Moves r.depth? r'.depth? ∧ r'.Sane := by
  cases op with
  | enterFunction name loc =>
    have h := orRefuse_eq_none.1 h
    unfold enterFunction at h
    cases hc : r.current with
    | some outer =>
      rw [hc] at h
      cases h
    | none =>
      simp only [hc] at h
      split at h
      · cases h
      · cases h
        simp only [depth?, hc, hsane hc]
        exact ⟨.enterFunction, fun hnone => nomatch hnone⟩
  | leaveFunction =>
    have h := orRefuse_eq_none.1 h
    unfold leaveFunction at h
    cases ho : r.opened with
    | cons t rest =>
      rw [ho] at h
      cases h
    | nil =>
      simp only [ho] at h
      obtain ⟨function, hc, h⟩ := inFunction_bind_eq_ok h
      cases h
      simp only [depth?, hc, ho]
      exact ⟨.leaveFunction, fun _ => rfl⟩
  | call callee loc =>
    obtain ⟨function, hc, h⟩ := inFunction_bind_eq_ok (orRefuse_eq_none.1 h)
    cases h
    exact moves_inside hc hc .call
  | throw loc kind =>
    obtain ⟨function, hc, h⟩ := inFunction_bind_eq_ok (orRefuse_eq_none.1 h)
    cases h
    exact moves_inside hc hc .throw
  | rethrow loc =>
    obtain ⟨function, hc, h⟩ := inFunction_bind_eq_ok (orRefuse_eq_none.1 h)
    split at h <;> cases h <;> exact moves_inside hc hc .rethrow
  | openRegion loc =>
    obtain ⟨function, hc, h⟩ := inFunction_bind_eq_ok (orRefuse_eq_none.1 h)
    cases h
    exact moves_inside hc hc .openRegion
  | startClause loc selector =>
    have h := orRefuse_eq_none.1 h
    unfold startClause at h
    split at h
    · cases h
    · rename_i t rest ho
      cases h
      obtain ⟨function, hc⟩ := hsane.exists_current ho
      refine moves_inside hc hc ?_
      rw [ho]
      exact .startClause
  | closeRegion =>
    rw [step, closeRegion] at h
    split at h
    · cases h
    · rename_i t rest ho
      obtain ⟨function, hc⟩ := hsane.exists_current ho
      split at h
      · cases h
        refine moves_inside hc hc ?_
        rw [ho]
        exact .closeRegion
      · cases h

end Recorder

open OutlineStmt in
/-- The operations to come in a function with `n` open regions. -/
def RestInside : Nat → List WalkOp → Prop
  | 0, ops => ∃ body fns, ops = walkBody body ++ .leaveFunction :: Outline.walk fns
  | n + 1, ops => ∃ body clauses after,
    ops = walkBody body ++ (walkClauses clauses ++ .closeRegion :: after) ∧ RestInside n after

/-- The operations to come. -/
def Rest : Option Nat → List WalkOp → Prop
  | none, ops => ∃ fns, ops = Outline.walk fns
  | some n, ops => RestInside n ops

namespace RestInside

variable {n : Nat} {ops : List WalkOp}

theorem stmt (s : OutlineStmt) (h : RestInside n ops) : RestInside n (s.walk ++ ops) := by
  cases n with
  | zero =>
    obtain ⟨body, fns, rfl⟩ := h
    refine ⟨s :: body, fns, ?_⟩
    rw [OutlineStmt.walkBody, List.append_assoc]
  | succ n =>
    obtain ⟨body, clauses, after, rfl, hafter⟩ := h
    refine ⟨s :: body, clauses, after, ?_, hafter⟩
    rw [OutlineStmt.walkBody, List.append_assoc]

theorem region (loc : Location) (h : RestInside (n + 1) ops) :
    RestInside n (.openRegion loc :: ops) := by
  obtain ⟨body, clauses, after, rfl, hafter⟩ := h
  have hregion := hafter.stmt (.region loc body clauses)
  simpa only [OutlineStmt.walk, List.cons_append, List.append_assoc, List.nil_append] using hregion

end RestInside

theorem Rest.cons {op : WalkOp} {ops : List WalkOp} {place place' : Option Nat}
    (hmoves : op.Moves place place') (h : Rest place' ops) : Rest place (op :: ops) := by
  cases hmoves with
  | @enterFunction name loc =>
    obtain ⟨body, fns, rfl⟩ := h
    refine ⟨⟨name, loc, body⟩ :: fns, ?_⟩
    simp [Outline.walk, OutlineFunction.walk]
  | leaveFunction =>
    obtain ⟨fns, rfl⟩ := h
    exact ⟨[], fns, rfl⟩
  | call => exact RestInside.stmt (.call _ _) h
  | throw => exact RestInside.stmt (.throw _ _) h
  | rethrow => exact RestInside.stmt (.rethrow _) h
  | openRegion => exact RestInside.region _ h
  | @startClause loc selector n =>
    obtain ⟨body, clauses, after, rfl, hafter⟩ := h
    refine ⟨[], (⟨loc, selector⟩, body) :: clauses, after, ?_, hafter⟩
    simp [OutlineStmt.walkBody, OutlineStmt.walkClauses]
  | closeRegion => exact ⟨[], [], _, rfl, h⟩

/-- Operations that are accepted to the end are well-nested. -/
theorem Recorder.Accepts.rest {r r' : Recorder} {ops : List WalkOp} (h : r.Accepts ops r')
    (hsane : r.Sane) (hend : r'.current = none) : Rest r.depth? ops := by
  induction ops generalizing r with
  | nil =>
    obtain rfl := accepts_nil.1 h
    rw [depth?, hend]
    exact ⟨[], rfl⟩
  | cons op ops ih =>
    obtain ⟨r₁, hstep, hrest⟩ := (accepts_cons op ops).1 h
    obtain ⟨hmoves, hsane₁⟩ := moves_of_step hsane hstep
    exact .cons hmoves (ih hrest hsane₁)

theorem Recorder.current_eq_none_of_finish {r : Recorder} {ix : CallIndex}
    (h : r.finish = .ok ix) : r.current = none := by
  unfold finish at h
  split at h
  · cases h
  · cases h
  · assumption

/-! ## The index of an outline -/

/-- An index shows all of an outline and nothing else. -/
structure CallIndex.Shows (ix : CallIndex) (fns : Outline) : Prop where
  /-- One entry for every region, with its clauses, in the order in which the regions open. -/
  regions : ix.regions = (fns.layout 0).regions
  numbers : ix.regions.map (·.id) = List.range ix.regions.length
  throws : ix.throws = (fns.layout 0).sites.filterMap OutlineSite.throwEntry?
  /-- Every call is in the entries of both functions, in order. -/
  entry : ∀ name, ix.entryOf name =
    { name
      decl := (fns.find? (·.name = name)).map (·.loc)
      callers := (fns.layout 0).sites.filterMap (OutlineSite.callTo? name)
      calls := (fns.layout 0).sites.filterMap (OutlineSite.callFrom? name) }
  names : ∀ name, name ∈ ix.functions.map (·.name) ↔
    name ∈ fns.map (·.name) ∨ ∃ s ∈ (fns.layout 0).sites, s.Mentions name
  distinct : (ix.functions.map (·.name)).Nodup

theorem CallIndex.record_shows {fns : Outline} (h : fns.WellFormed) :
    (record {} fns).Shows fns := by
  have hfresh : Fresh {} fns := ⟨h.distinct, fun _ _ => rfl⟩
  have hadds := record_adds hfresh
  refine ⟨hadds.regions, ?_, hadds.throws, hadds.entry, ?_, hadds.distinct List.nodup_nil⟩
  · rw [hadds.regions, List.range_eq_range']
    exact fns.layout_numberedFrom 0
  · intro name
    simpa using hadds.names name

/-- A recorder accepts exactly the walks over well-formed outlines, and then its index shows the
outline. -/
theorem records_exactly_outlines (ops : List WalkOp) :
    let last := Recorder.run {} ops
    ((∀ e ∈ last.2, e = none) ∧ (∃ ix, last.1.finish = .ok ix) ↔
      ∃ fns : Outline, fns.WellFormed ∧ ops = fns.walk) ∧
    ∀ fns : Outline, fns.WellFormed → ops = fns.walk →
      ∃ ix, last.1.finish = .ok ix ∧ ix.Shows fns := by
  intro last
  have haccepts : ∀ fns : Outline, fns.WellFormed → ops = fns.walk →
      Recorder.Accepts {} ops { index := CallIndex.record {} fns } := by
    rintro fns ⟨hdistinct, hlayout⟩ rfl
    exact (fns.accepts_walk {} _).2 ⟨⟨⟨hdistinct, fun _ _ => rfl⟩, hlayout⟩, rfl⟩
  refine ⟨⟨?_, ?_⟩, fun fns hwf hops => ?_⟩
  · rintro ⟨hnone, ix, hfinish⟩
    have hrun : Recorder.Accepts {} ops last.1 := ⟨hnone, rfl⟩
    obtain ⟨fns, rfl⟩ : Rest none ops :=
      hrun.rest (fun _ => rfl) (Recorder.current_eq_none_of_finish hfinish)
    obtain ⟨⟨hfresh, hlayout⟩, -⟩ := (fns.accepts_walk {} _).1 hrun
    exact ⟨fns, ⟨hfresh.distinct, hlayout⟩, rfl⟩
  · rintro ⟨fns, hwf, hops⟩
    obtain ⟨hnone, hend⟩ := haccepts fns hwf hops
    exact ⟨hnone, _, congrArg Recorder.finish hend⟩
  · obtain ⟨-, hend⟩ := haccepts fns hwf hops
    exact ⟨_, congrArg Recorder.finish hend, CallIndex.record_shows hwf⟩

/-- A region with a region in its clause: a rethrow in the inner body sends on what the outer clause
handles. -/
theorem records_exactly_outlines_nested :
    let inner : OutlineStmt := .region {} [.rethrow {}] [(⟨{}, .any⟩, [.rethrow {}])]
    let fns : Outline :=
      [⟨"main", {}, [.region {} [.call "f" {}] [(⟨{}, .kind .int⟩, [inner])]]⟩,
        ⟨"f", {}, [.throw {} .record]⟩]
    fns.WellFormed ∧ ∃ ix, (Recorder.run {} fns.walk).1.finish = .ok ix ∧ ix.Shows fns ∧
      ix.throws.map (fun t => (t.kind, t.rethrow, t.guards)) =
        [(some .int, true, [1]), (none, true, []), (some .record, false, [])] := by
  intro inner fns
  have hwf : fns.WellFormed := by decide
  obtain ⟨ix, hfinish, hshows⟩ := (records_exactly_outlines fns.walk).2 fns hwf rfl
  refine ⟨hwf, ix, hfinish, hshows, ?_⟩
  rw [hshows.throws]
  decide

end Unwind
