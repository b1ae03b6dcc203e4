import Unwind.Proofs.ClauseLists
import Unwind.Proofs.Outline

/-!
# What a recorder makes of an outline

`OutlineStmt.accepts_walk` is the spec of a recorder on well-nested operations: a walk over a
statement is accepted exactly if the layout of the statement is well-formed, and then the layout is
what has been added to the index.
-/

namespace Unwind

theorem RegionEntry.checkSelectors_eq_ok (e : RegionEntry) :
    checkSelectors (e.clauses.map (·.selector)) = .ok () ↔ e.WellFormed := by
  simp [checkSelectors_eq_ok_iff, RegionEntry.WellFormed, ← List.map_dropLast]

namespace CallIndex

/-- Enter a call at both of its ends. -/
def noteCall : List FunctionEntry → OutlineSite → List FunctionEntry
  | fns, .call p callee loc =>
    let calling := updateIn p.function
      (fun e => { e with calls := e.calls ++ [⟨callee, loc, p.guards⟩] }) fns
    updateIn callee
      (fun e => { e with callers := e.callers ++ [⟨p.function, loc, p.guards⟩] }) calling
  | fns, _ => fns

/-- Add all that is in a layout. -/
def note (ix : CallIndex) (L : Layout) : CallIndex where
  functions := L.sites.foldl noteCall ix.functions
  regions := ix.regions ++ L.regions
  throws := ix.throws ++ L.sites.filterMap OutlineSite.throwEntry?

def addClauses (ix : CallIndex) (id : Nat) (clauses : List RegionClause) : CallIndex :=
  { ix with regions := ix.regions.modify id fun e => { e with clauses := e.clauses ++ clauses } }

variable {ix ix' : CallIndex} {id : Nat}

theorem note_empty : ix.note {} = ix := by
  simp [note]

theorem note_append (L L' : Layout) : ix.note (L ++ L') = (ix.note L).note L' := by
  simp [note]

theorem note_ofSite (s : OutlineSite) :
    ix.note (.ofSite s) = { ix with
      functions := noteCall ix.functions s
      throws := ix.throws ++ s.throwEntry?.toList } := by
  simp only [note, Layout.ofSite, List.append_nil, List.foldl_cons, List.foldl_nil,
    List.filterMap_cons, List.filterMap_nil]
  cases s.throwEntry? <;> rfl

theorem note_ofRegion (e : RegionEntry) :
    ix.note (.ofRegion e) = { ix with regions := ix.regions ++ [e] } := by
  simp [note, Layout.ofRegion]

theorem note_length (L : Layout) :
    (ix.note L).regions.length = ix.regions.length + L.regions.length :=
  List.length_append

theorem addClauses_nil : ix.addClauses id [] = ix := by
  simp only [addClauses, List.append_nil]
  exact congrArg (fun regions => { ix with regions }) (List.modify_id id ix.regions)

theorem addClauses_addClauses (a b : List RegionClause) :
    (ix.addClauses id a).addClauses id b = ix.addClauses id (a ++ b) := by
  simp [addClauses, List.modify_modify_eq, Function.comp_def]

theorem addClauses_length (clauses : List RegionClause) :
    (ix.addClauses id clauses).regions.length = ix.regions.length :=
  List.length_modify ..

theorem region?_addClauses {e : RegionEntry} (h : ix.region? id = some e)
    (clauses : List RegionClause) :
    (ix.addClauses id clauses).region? id = some { e with clauses := e.clauses ++ clauses } := by
  unfold region? at *
  rw [addClauses, List.getElem?_modify_eq, h]
  rfl

private theorem modify_append {α : Type} (f : α → α) {l : List α} {i : Nat} (h : i < l.length)
    (l' : List α) : (l ++ l').modify i f = l.modify i f ++ l' := by
  induction l generalizing i with
  | nil => cases h
  | cons a l ih =>
    cases i with
    | zero => rfl
    | succ i => exact congrArg (a :: ·) (ih (Nat.lt_of_succ_lt_succ h))

private theorem modify_concat {α : Type} (f : α → α) (l : List α) (a : α) :
    (l ++ [a]).modify l.length f = l ++ [f a] := by
  induction l with
  | nil => rfl
  | cons b l ih => exact congrArg (b :: ·) ih

theorem addClauses_note_ofRegion (loc : Location) (function : String)
    (clauses : List RegionClause) :
    (ix.note (.ofRegion ⟨ix.regions.length, loc, function, []⟩)).addClauses ix.regions.length
      clauses = ix.note (.ofRegion ⟨ix.regions.length, loc, function, clauses⟩) := by
  simp only [note_ofRegion, addClauses, modify_concat, List.nil_append]

/-- What is added behind a region does not touch it. -/
theorem note_addClauses (h : id < ix.regions.length) (L : Layout) (clauses : List RegionClause) :
    (ix.note L).addClauses id clauses = (ix.addClauses id clauses).note L := by
  simp only [addClauses, note, modify_append _ h]

/-- Regions stay, and so do their clauses. -/
def Keeps (ix ix' : CallIndex) : Prop :=
  ∀ id e, ix.region? id = some e → ∃ e', ix'.region? id = some e' ∧ e.clauses <+: e'.clauses

/-- Regions are added behind the others. -/
theorem region?_note {e : RegionEntry} (h : ix.region? id = some e) (L : Layout) :
    (ix.note L).region? id = some e := by
  obtain ⟨hlt, -⟩ := List.getElem?_eq_some_iff.1 h
  exact (List.getElem?_append_left hlt).trans h

theorem keeps_note (L : Layout) : ix.Keeps (ix.note L) :=
  fun _ e he => ⟨e, region?_note he L, List.prefix_refl _⟩

theorem keeps_addClauses (id : Nat) (clauses : List RegionClause) :
    ix.Keeps (ix.addClauses id clauses) := by
  intro id' e he
  unfold region? at he
  simp only [region?, addClauses, List.getElem?_modify, he]
  split
  · exact ⟨_, rfl, List.prefix_append _ _⟩
  · exact ⟨_, rfl, List.prefix_refl _⟩

end CallIndex

namespace Recorder

variable {r r' r'' : Recorder} {p : Place}

/-- Operations that are all done turn `r` into `r'`. -/
def Accepts (r : Recorder) (ops : List WalkOp) (r' : Recorder) : Prop :=
  (∀ e ∈ (r.run ops).2, e = none) ∧ (r.run ops).1 = r'

theorem accepts_nil : r.Accepts [] r' ↔ r' = r := by
  simp [Accepts, run, eq_comm]

theorem accepts_cons (op : WalkOp) (ops : List WalkOp) :
    r.Accepts (op :: ops) r'' ↔ ∃ r', r.step op = (r', none) ∧ r'.Accepts ops r'' := by
  simp only [Accepts, run, List.forall_mem_cons, Prod.ext_iff]
  constructor
  · rintro ⟨⟨hfirst, hrest⟩, hend⟩
    exact ⟨_, ⟨rfl, hfirst⟩, hrest, hend⟩
  · rintro ⟨_, ⟨rfl, hfirst⟩, hrest, hend⟩
    exact ⟨⟨hfirst, hrest⟩, hend⟩

theorem accepts_append (ops ops' : List WalkOp) :
    r.Accepts (ops ++ ops') r'' ↔ ∃ r', r.Accepts ops r' ∧ r'.Accepts ops' r'' := by
  induction ops generalizing r with
  | nil => simp [accepts_nil]
  | cons op ops ih =>
    simp only [List.cons_append, accepts_cons, ih]
    constructor
    · rintro ⟨r₁, hstep, r₂, h, h'⟩
      exact ⟨r₂, ⟨r₁, hstep, h⟩, h'⟩
    · rintro ⟨r₂, ⟨r₁, hstep, h⟩, h'⟩
      exact ⟨r₁, hstep, r₂, h, h'⟩

theorem accepts_cons_of_step {op : WalkOp} (hstep : r.step op = (r', none)) (ops : List WalkOp) :
    r.Accepts (op :: ops) r'' ↔ r'.Accepts ops r'' := by
  rw [accepts_cons, hstep]
  constructor
  · rintro ⟨_, heq, h⟩
    cases heq
    exact h
  · exact fun h => ⟨r', rfl, h⟩

/-- Two runs in a row, each with a condition under which it is accepted and then a known end. -/
theorem accepts_append_of {A B : Prop} {ops ops' : List WalkOp} {r₁ r₂ : Recorder}
    (hfirst : ∀ r', r.Accepts ops r' ↔ A ∧ r' = r₁)
    (hsecond : r₁.Accepts ops' r'' ↔ B ∧ r'' = r₂) :
    r.Accepts (ops ++ ops') r'' ↔ (A ∧ B) ∧ r'' = r₂ := by
  simp only [accepts_append, hfirst]
  constructor
  · rintro ⟨_, ⟨hA, rfl⟩, h⟩
    obtain ⟨hB, heq⟩ := hsecond.1 h
    exact ⟨⟨hA, hB⟩, heq⟩
  · rintro ⟨⟨hA, hB⟩, heq⟩
    exact ⟨r₁, ⟨hA, rfl⟩, hsecond.2 ⟨hB, heq⟩⟩

theorem accepts_singleton (op : WalkOp) : r.Accepts [op] r' ↔ r.step op = (r', none) := by
  simp [accepts_cons, accepts_nil]

/-! ## Where a recorder stands -/

/-- The part of an open region that is being walked. -/
def part? (r : Recorder) (t : WalkedRegion) : Option Part :=
  match t.clause with
  | none => some (.body t.id)
  | some _ => (r.clauseSelector? t).map (.clause t.id)

theorem part?_bind_guard? (r : Recorder) (t : WalkedRegion) :
    (r.part? t).bind Part.guard? = if t.clause.isNone then some t.id else none := by
  unfold part?
  cases t.clause with
  | none => rfl
  | some i => cases r.clauseSelector? t <;> rfl

theorem part?_bind_handles? (r : Recorder) (t : WalkedRegion) :
    (r.part? t).bind Part.handles? = r.clauseSelector? t := by
  unfold part?
  cases h : t.clause with
  | none =>
    unfold clauseSelector?
    rw [h]
    rfl
  | some i => cases r.clauseSelector? t <;> rfl

theorem clauseSelector?_of_keeps (h : r.index.Keeps r'.index) {t : WalkedRegion} {s : Selector}
    (ht : r.clauseSelector? t = some s) : r'.clauseSelector? t = some s := by
  unfold clauseSelector? at *
  obtain ⟨i, hi, hs⟩ := Option.bind_eq_some_iff.1 ht
  refine Option.bind_eq_some_iff.2 ⟨i, hi, ?_⟩
  unfold selectorsOf at *
  cases he : r.index.region? t.id with
  | none => simp [he] at hs
  | some e =>
    obtain ⟨e', he', hclauses⟩ := h t.id e he
    simp only [he] at hs
    simp only [he']
    obtain ⟨new, hnew⟩ := hclauses.map RegionClause.selector
    obtain ⟨hlt, -⟩ := List.getElem?_eq_some_iff.1 hs
    rw [← hnew, List.getElem?_append_left hlt, hs]

theorem part?_of_entry {t : WalkedRegion} {e : RegionEntry} {i : Nat} {c : RegionClause}
    (he : r.index.region? t.id = some e) (ht : t.clause = some i) (hc : e.clauses[i]? = some c) :
    r.part? t = some (.clause t.id c.selector) := by
  have hs : r.clauseSelector? t = some c.selector := by
    simp [clauseSelector?, selectorsOf, he, ht, hc]
  simp [part?, ht, hs]

theorem part?_of_keeps (h : r.index.Keeps r'.index) {t : WalkedRegion} {part : Part}
    (ht : r.part? t = some part) : r'.part? t = some part := by
  unfold part? at *
  cases hc : t.clause with
  | none =>
    simp only [hc] at ht ⊢
    exact ht
  | some i =>
    simp only [hc] at ht ⊢
    obtain ⟨s, hs, hpart⟩ := Option.map_eq_some_iff.1 ht
    exact Option.map_eq_some_iff.2 ⟨s, clauseSelector?_of_keeps h hs, hpart⟩

/-- A recorder is walking a place. -/
structure StandsAt (r : Recorder) (p : Place) : Prop where
  current : r.current = some p.function
  opened : r.opened.map r.part? = p.around.map some

namespace StandsAt

theorem guards_eq (h : r.StandsAt p) : r.guards = p.guards := by
  have hguards : p.around.filterMap Part.guard? =
      (r.opened.filter (·.clause.isNone)).map (·.id) := by
    calc p.around.filterMap Part.guard?
        = (p.around.map some).filterMap (·.bind Part.guard?) := by
          rw [List.filterMap_map]
          rfl
      _ = r.opened.filterMap fun t => (r.part? t).bind Part.guard? := by
          rw [← h.opened, List.filterMap_map]
          rfl
      _ = (r.opened.filter (·.clause.isNone)).map (·.id) := by
          rw [← List.filterMap_eq_map, List.filterMap_filter]
          simp only [part?_bind_guard?]
          rfl
  rw [guards, Place.guards, hguards, List.map_reverse]

theorem inFunction_eq (h : r.StandsAt p) (what : Construct) (loc : Location) :
    r.inFunction what loc = .ok p.function := by
  rw [inFunction, h.current]

theorem handled?_eq (h : r.StandsAt p) : r.handled? = p.handled? := by
  calc r.opened.findSome? r.clauseSelector?
      = (r.opened.map r.part?).findSome? (·.bind Part.handles?) := by
        simp only [List.findSome?_map, Function.comp_def, part?_bind_handles?]
    _ = p.around.findSome? Part.handles? := by
        rw [h.opened]
        simp only [List.findSome?_map, Function.comp_def, Option.bind_some]

theorem of_keeps (h : r.StandsAt p) (hkeeps : r.index.Keeps r'.index)
    (hcurrent : r'.current = r.current) (hopened : r'.opened = r.opened) : r'.StandsAt p := by
  refine ⟨hcurrent.trans h.current, ?_⟩
  rw [hopened, ← h.opened]
  refine List.map_congr_left fun t ht => ?_
  have hmem : r.part? t ∈ p.around.map some := by
    rw [← h.opened]
    exact List.mem_map_of_mem ht
  obtain ⟨part, -, hpart⟩ := List.mem_map.1 hmem
  rw [part?_of_keeps hkeeps hpart.symm, hpart]

/-- One more region is open. -/
theorem push (h : r.StandsAt p) {t : WalkedRegion} {part : Part} (ht : r.part? t = some part) :
    { r with opened := t :: r.opened }.StandsAt (p.within part) :=
  ⟨h.current, List.cons_eq_cons.2 ⟨ht, h.opened⟩⟩

end StandsAt

/-- Add all that is in a layout. -/
def note (r : Recorder) (L : Layout) : Recorder :=
  { r with index := r.index.note L }

theorem note_empty : r.note {} = r := by
  rw [note, CallIndex.note_empty]

theorem note_append (L L' : Layout) : r.note (L ++ L') = (r.note L).note L' := by
  rw [note, CallIndex.note_append]
  rfl

theorem StandsAt.note (h : r.StandsAt p) (L : Layout) : (r.note L).StandsAt p :=
  h.of_keeps (CallIndex.keeps_note L) rfl rfl

/-! ## Operations -/

/-- The recorder in the body of a new region. -/
def enterBody (r : Recorder) (e : RegionEntry) : Recorder :=
  { r.note (.ofRegion e) with opened := { id := e.id } :: r.opened }

section

variable (h : r.StandsAt p) (loc : Location)
include h

theorem step_call (callee : String) :
    r.step (.call callee loc) = (r.note (.ofSite (.call p callee loc)), none) := by
  rw [step, call, h.inFunction_eq, h.guards_eq, note, CallIndex.note_ofSite,
    OutlineSite.throwEntry?, Option.toList_none, List.append_nil]
  rfl

theorem step_throw (kind : Kind) :
    r.step (.throw loc kind) = (r.note (.ofSite (.throw p loc kind)), none) := by
  rw [step, throw, h.inFunction_eq, h.guards_eq, note, CallIndex.note_ofSite]
  rfl

theorem step_rethrow :
    r.step (.rethrow loc) = (r', none) ↔
      (OutlineSite.rethrow p loc).WellFormed ∧ r' = r.note (.ofSite (.rethrow p loc)) := by
  have hnote : r.note (.ofSite (.rethrow p loc)) =
      r.addThrow ⟨p.function, loc, p.handled?.bind Selector.kind?, true, p.guards⟩ := by
    rw [note, CallIndex.note_ofSite]
    rfl
  have hstep : r.step (.rethrow loc) = match p.handled? with
      | none => (r, some (.rethrowOutsideClause loc))
      | some s => (r.addThrow ⟨p.function, loc, s.kind?, true, p.guards⟩, none) := by
    rw [step, rethrow, h.inFunction_eq, h.handled?_eq, h.guards_eq]
    rcases p.handled? with _ | ⟨k | _⟩ <;> rfl
  rw [hstep, hnote, OutlineSite.WellFormed, ← Place.handled?_isSome]
  cases p.handled? with
  | none => simp
  | some s => simp [eq_comm]

theorem step_openRegion :
    r.step (.openRegion loc) =
      (r.enterBody ⟨r.index.regions.length, loc, p.function, []⟩, none) := by
  rw [enterBody, note, CallIndex.note_ofRegion, step, openRegion, h.inFunction_eq]
  rfl

end

/-- Region `id`, which stands at a place, is being walked and has an entry so far. -/
structure WalksRegion (r : Recorder) (p : Place) (id : Nat) (rest : List WalkedRegion)
    (e : RegionEntry) : Prop where
  opened : ∃ clause, r.opened = ⟨id, clause⟩ :: rest
  outside : { r with opened := rest }.StandsAt p
  entry : r.index.region? id = some e

theorem StandsAt.enterBody (h : r.StandsAt p) (e : RegionEntry) :
    (r.enterBody e).StandsAt (p.within (.body e.id)) :=
  (h.note (.ofRegion e)).push rfl

theorem StandsAt.walksRegion (h : r.StandsAt p) {e : RegionEntry}
    (hid : e.id = r.index.regions.length) :
    (r.enterBody e).WalksRegion p e.id r.opened e := by
  refine ⟨⟨none, rfl⟩, h.note (.ofRegion e), ?_⟩
  rw [hid]
  exact List.getElem?_concat_length

/-- The recorder in the next clause of region `id`. -/
def enterClause (r : Recorder) (id : Nat) (rest : List WalkedRegion) (c : RegionClause) :
    Recorder :=
  { r with
    index := r.index.addClauses id [c]
    opened := ⟨id, some (r.selectorsOf id).length⟩ :: rest }

namespace WalksRegion

variable {id : Nat} {rest : List WalkedRegion} {e : RegionEntry}

theorem note (h : r.WalksRegion p id rest e) (L : Layout) : (r.note L).WalksRegion p id rest e :=
  ⟨h.opened, h.outside.note L, CallIndex.region?_note h.entry L⟩

theorem selectorsOf_eq (h : r.WalksRegion p id rest e) :
    r.selectorsOf id = e.clauses.map (·.selector) := by
  rw [selectorsOf, h.entry]

theorem step_startClause (h : r.WalksRegion p id rest e) (c : RegionClause) :
    r.step (.startClause c.loc c.selector) = (r.enterClause id rest c, none) := by
  obtain ⟨clause, hopened⟩ := h.opened
  rw [step, startClause, hopened]
  rfl

theorem outside_addClauses (h : r.WalksRegion p id rest e) (c : RegionClause) :
    { r with index := r.index.addClauses id [c], opened := rest }.StandsAt p :=
  h.outside.of_keeps (CallIndex.keeps_addClauses _ _) rfl rfl

theorem enterClause (h : r.WalksRegion p id rest e) (c : RegionClause) :
    (r.enterClause id rest c).WalksRegion p id rest { e with clauses := e.clauses ++ [c] } :=
  ⟨⟨_, rfl⟩, h.outside_addClauses c, CallIndex.region?_addClauses h.entry [c]⟩

theorem enterClause_standsAt (h : r.WalksRegion p id rest e) (c : RegionClause) :
    (r.enterClause id rest c).StandsAt (p.within (.clause id c.selector)) := by
  refine (h.outside_addClauses c).push
    (part?_of_entry (CallIndex.region?_addClauses h.entry [c]) rfl ?_)
  rw [h.selectorsOf_eq, List.length_map]
  exact List.getElem?_concat_length

theorem step_closeRegion (h : r.WalksRegion p id rest e) :
    r.step .closeRegion = (r', none) ↔ e.WellFormed ∧ r' = { r with opened := rest } := by
  obtain ⟨clause, hopened⟩ := h.opened
  rw [step, closeRegion, hopened, ← e.checkSelectors_eq_ok, ← h.selectorsOf_eq]
  simp only
  cases checkSelectors (r.selectorsOf id) with
  | error fault => simp
  | ok u => simp [eq_comm]

end WalksRegion

end Recorder

/-! ## Statements -/

namespace OutlineStmt

open Recorder

mutual

/-- A walk over a statement is accepted exactly if its layout is well-formed, and the layout is what
it adds. -/
theorem accepts_walk (s : OutlineStmt) {r : Recorder} {p : Place} {next : Nat}
    (h : r.StandsAt p) (hnext : r.index.regions.length = next) (r' : Recorder) :
    r.Accepts s.walk r' ↔ (s.layout p next).WellFormed ∧ r' = r.note (s.layout p next) := by
  cases s with
  | call callee loc =>
    have hwf : (Layout.ofSite (.call p callee loc)).WellFormed := Layout.wellFormed_ofSite.2 trivial
    simp [walk, layout, accepts_singleton, step_call h, hwf, eq_comm]
  | throw loc kind =>
    have hwf : (Layout.ofSite (.throw p loc kind)).WellFormed := Layout.wellFormed_ofSite.2 trivial
    simp [walk, layout, accepts_singleton, step_throw h, hwf, eq_comm]
  | rethrow loc =>
    rw [walk, accepts_singleton, step_rethrow h]
    exact and_congr_left' Layout.wellFormed_ofSite.symm
  | region loc body clauses =>
    subst hnext
    let e : RegionEntry := ⟨r.index.regions.length, loc, p.function, []⟩
    let inBody := layoutBody body (p.within (.body e.id)) (e.id + 1)
    have hlength : (r.enterBody e).index.regions.length = e.id + 1 :=
      CallIndex.note_length (.ofRegion e)
    have hwalks : ((r.enterBody e).note inBody).WalksRegion p e.id r.opened e :=
      (h.walksRegion rfl).note inBody
    have hclauses := accepts_walkClauses clauses hwalks
      ((CallIndex.note_length inBody).trans (congrArg (· + _) hlength)) r'
    rw [walk, accepts_cons_of_step (step_openRegion h loc),
      accepts_append_of (accepts_walkBody body (h.enterBody e) hlength) hclauses]
    have hindex : ((r.enterBody e).note inBody).index.addClauses e.id (clauses.map Prod.fst) =
        r.index.note (.ofRegion { e with clauses := clauses.map Prod.fst } ++ inBody) := by
      rw [CallIndex.note_append, ← CallIndex.addClauses_note_ofRegion,
        ← CallIndex.note_addClauses (hlength ▸ Nat.lt_succ_self e.id)]
      rfl
    rw [hindex, ← CallIndex.note_append, layout, Layout.wellFormed_append, Layout.wellFormed_append,
      Layout.wellFormed_ofRegion]
    refine and_congr_left' ?_
    constructor
    · rintro ⟨hbody, he, hclauses⟩
      exact ⟨⟨he, hbody⟩, hclauses⟩
    · rintro ⟨⟨he, hbody⟩, hclauses⟩
      exact ⟨hbody, he, hclauses⟩

theorem accepts_walkBody (body : List OutlineStmt) {r : Recorder} {p : Place} {next : Nat}
    (h : r.StandsAt p) (hnext : r.index.regions.length = next) (r' : Recorder) :
    r.Accepts (walkBody body) r' ↔
      (layoutBody body p next).WellFormed ∧ r' = r.note (layoutBody body p next) := by
  cases body with
  | nil =>
    rw [walkBody, accepts_nil, layoutBody, note_empty]
    simp [Layout.WellFormed]
  | cons s rest =>
    subst hnext
    have hrest := accepts_walkBody rest (h.note (s.layout p r.index.regions.length))
      (CallIndex.note_length _) r'
    rw [walkBody, accepts_append_of (accepts_walk s h rfl) hrest, layoutBody,
      Layout.wellFormed_append, note_append]

theorem accepts_walkClauses (clauses : List (RegionClause × List OutlineStmt)) {r : Recorder}
    {p : Place} {id : Nat} {rest : List WalkedRegion} {e : RegionEntry} {next : Nat}
    (h : r.WalksRegion p id rest e) (hnext : r.index.regions.length = next) (r' : Recorder) :
    r.Accepts (walkClauses clauses ++ [.closeRegion]) r' ↔
      ({ e with clauses := e.clauses ++ clauses.map Prod.fst }.WellFormed ∧
        (layoutClauses clauses p id next).WellFormed) ∧
      r' = { r with
        index := (r.index.addClauses id (clauses.map Prod.fst)).note
          (layoutClauses clauses p id next)
        opened := rest } := by
  match clauses with
  | [] =>
    rw [walkClauses, List.nil_append, accepts_singleton, h.step_closeRegion, layoutClauses,
      CallIndex.note_empty, List.map_nil, CallIndex.addClauses_nil, List.append_nil]
    simp [Layout.WellFormed]
  | (c, body) :: more =>
    subst hnext
    let inBody := layoutBody body (p.within (.clause id c.selector)) r.index.regions.length
    have hlength : (r.enterClause id rest c).index.regions.length = r.index.regions.length :=
      CallIndex.addClauses_length [c]
    have hmore := accepts_walkClauses more ((h.enterClause c).note inBody)
      ((CallIndex.note_length inBody).trans (congrArg (· + _) hlength)) r'
    rw [walkClauses, List.cons_append, List.append_assoc,
      accepts_cons_of_step (h.step_startClause c),
      accepts_append_of (accepts_walkBody body (h.enterClause_standsAt c) hlength) hmore]
    have hindex : ((r.enterClause id rest c).note inBody).index.addClauses id (more.map Prod.fst) =
        (r.index.addClauses id (c :: more.map Prod.fst)).note inBody := by
      obtain ⟨hlt, -⟩ := List.getElem?_eq_some_iff.1 (h.enterClause c).entry
      have hclauses : (r.enterClause id rest c).index.addClauses id (more.map Prod.fst) =
          r.index.addClauses id (c :: more.map Prod.fst) :=
        CallIndex.addClauses_addClauses [c] _
      rw [← hclauses]
      exact CallIndex.note_addClauses hlt inBody _
    rw [hindex, ← CallIndex.note_append, layoutClauses, Layout.wellFormed_append, List.map_cons,
      List.append_assoc]
    refine and_congr_left' ?_
    constructor
    · rintro ⟨hbody, he, hclauses⟩
      exact ⟨he, hbody, hclauses⟩
    · rintro ⟨he, hbody, hclauses⟩
      exact ⟨hbody, he, hclauses⟩

end

end OutlineStmt

end Unwind
