import Unwind.Proofs.Recognition

/-!
# The state of a recorder

Whatever operations a recorder is given, and whichever of them it refuses, its state stays coherent:
the regions that it takes to be open are there and belong to the function that it walks, and what it
has put into the index is consistent (`CallIndex.Coherent`). `Recorder.Coherent.step` is the step
lemma. It goes back to the places of an outline, since a coherent recorder that is inside a function
always stands at one (`Recorder.Coherent.exists_place`).
-/

namespace Unwind

/-- Where a site stands. -/
def OutlineSite.place : OutlineSite → Place
  | .call p _ _ | .throw p _ _ | .rethrow p _ => p

namespace CallIndex

/-- The regions can stand around a site of the function: they are regions of that function, and the
outer ones have the lower numbers. -/
structure GuardsIn (ix : CallIndex) (function : String) (guards : List Nat) : Prop where
  increasing : guards.Pairwise (· < ·)
  inside : ∀ id ∈ guards, ∃ e, ix.region? id = some e ∧ e.function = function

/-- Where calls between a function and the function `other` stand, and under which regions. -/
def sitesWith (other : String) (calls : List CallEntry) : List (Location × List Nat) :=
  (calls.filter (·.function = other)).map fun c => (c.loc, c.guards)

/-- What an index has on record fits together. -/
structure Coherent (ix : CallIndex) : Prop where
  numbered : ix.regions.map (·.id) = List.range ix.regions.length
  distinct : (ix.functions.map (·.name)).Nodup
  /-- A call is on record at both of its ends. -/
  mirrored : ∀ f g, sitesWith g (ix.entryOf f).calls = sitesWith f (ix.entryOf g).callers
  throws : ∀ t ∈ ix.throws, ix.GuardsIn t.function t.guards
  calls : ∀ f, ∀ c ∈ (ix.entryOf f).calls, ix.GuardsIn f c.guards
  callers : ∀ f, ∀ c ∈ (ix.entryOf f).callers, ix.GuardsIn c.function c.guards

variable {ix ix' : CallIndex}

theorem GuardsIn.mono {function : String} {guards : List Nat} (h : ix.GuardsIn function guards)
    (hkeep : ∀ id e, ix.region? id = some e →
      ∃ e', ix'.region? id = some e' ∧ e'.function = e.function) :
    ix'.GuardsIn function guards := by
  refine ⟨h.increasing, fun id hid => ?_⟩
  obtain ⟨e, he, hfunction⟩ := h.inside id hid
  obtain ⟨e', he', hsame⟩ := hkeep id e he
  exact ⟨e', he', hsame.trans hfunction⟩

theorem sitesWith_append (other : String) (calls calls' : List CallEntry) :
    sitesWith other (calls ++ calls') = sitesWith other calls ++ sitesWith other calls' := by
  simp [sitesWith]

/-- One site adds the same at both ends of a call. -/
theorem sitesWith_site (s : OutlineSite) (f g : String) :
    sitesWith g (s.callFrom? f).toList = sitesWith f (s.callTo? g).toList := by
  cases s with
  | throw | rethrow => rfl
  | call p callee loc =>
    by_cases hf : p.function = f <;> by_cases hg : callee = g <;>
      simp [sitesWith, OutlineSite.callFrom?, OutlineSite.callTo?, hf, hg]

theorem sitesWith_sites (sites : List OutlineSite) (f g : String) :
    sitesWith g (sites.filterMap (OutlineSite.callFrom? f)) =
      sitesWith f (sites.filterMap (OutlineSite.callTo? g)) := by
  induction sites with
  | nil => rfl
  | cons s sites ih =>
    have hcons : ∀ (pick : OutlineSite → Option CallEntry),
        (s :: sites).filterMap pick = (pick s).toList ++ sites.filterMap pick := by
      intro pick
      cases h : pick s <;> simp [h]
    rw [hcons, hcons, sitesWith_append, sitesWith_append, sitesWith_site, ih]

/-- The guards of what a site adds are those of its place. -/
theorem guards_of_callFrom? {s : OutlineSite} {f : String} {c : CallEntry}
    (h : s.callFrom? f = some c) : f = s.place.function ∧ c.guards = s.place.guards := by
  cases s with
  | throw | rethrow => cases h
  | call p callee loc =>
    obtain ⟨hf, hc⟩ := Option.ite_none_right_eq_some.1 h
    cases hc
    exact ⟨hf.symm, rfl⟩

theorem guards_of_callTo? {s : OutlineSite} {g : String} {c : CallEntry}
    (h : s.callTo? g = some c) : c.function = s.place.function ∧ c.guards = s.place.guards := by
  cases s with
  | throw | rethrow => cases h
  | call p callee loc =>
    obtain ⟨hg, hc⟩ := Option.ite_none_right_eq_some.1 h
    cases hc
    exact ⟨rfl, rfl⟩

theorem guards_of_throwEntry? {s : OutlineSite} {t : ThrowEntry} (h : s.throwEntry? = some t) :
    t.function = s.place.function ∧ t.guards = s.place.guards := by
  cases s with
  | call => cases h
  | throw | rethrow =>
    cases h
    exact ⟨rfl, rfl⟩

/-- What sites add stands under regions of its own function if the sites do. -/
theorem GuardsIn.append {γ : Type} {function : γ → String} {guards : γ → List Nat} {old : List γ}
    {sites : List OutlineSite} {pick : OutlineSite → Option γ}
    (hpick : ∀ {s c}, pick s = some c → function c = s.place.function ∧ guards c = s.place.guards)
    (hold : ∀ c ∈ old, ix.GuardsIn (function c) (guards c))
    (hsites : ∀ s ∈ sites, ix.GuardsIn s.place.function s.place.guards) :
    ∀ c ∈ old ++ sites.filterMap pick, ix.GuardsIn (function c) (guards c) := by
  intro c hc
  rcases List.mem_append.1 hc with hc | hc
  · exact hold c hc
  · obtain ⟨s, hs, hsc⟩ := List.mem_filterMap.1 hc
    obtain ⟨hfunction, hguards⟩ := hpick hsc
    rw [hfunction, hguards]
    exact hsites s hs

namespace Coherent

/-- A coherent index stays so if the regions that are added are numbered on, and the sites that are
added stand under regions of their own functions. -/
theorem adds (h : ix.Coherent) {fns : Outline} {L : Layout} (ha : ix.Adds ix' fns L)
    (hnumbered : L.NumberedFrom ix.regions.length)
    (hsites : ∀ s ∈ L.sites, ix'.GuardsIn s.place.function s.place.guards) : ix'.Coherent := by
  have hkeep : ∀ id e, ix.region? id = some e →
      ∃ e', ix'.region? id = some e' ∧ e'.function = e.function := by
    intro id e he
    obtain ⟨hlt, -⟩ := List.getElem?_eq_some_iff.1 he
    refine ⟨e, ?_, rfl⟩
    rw [region?, ha.regions, List.getElem?_append_left hlt]
    exact he
  constructor
  · rw [ha.regions, List.map_append, List.length_append, h.numbered, hnumbered,
      List.range_eq_range', List.range_eq_range', ← List.range'_append_1, Nat.zero_add]
  · exact ha.distinct h.distinct
  · intro f g
    rw [ha.entry, ha.entry, sitesWith_append, sitesWith_append, h.mirrored, sitesWith_sites]
  · rw [ha.throws]
    exact .append guards_of_throwEntry? (fun t ht => (h.throws t ht).mono hkeep) hsites
  · intro f
    rw [ha.entry]
    exact .append guards_of_callFrom? (fun c hc => (h.calls f c hc).mono hkeep) hsites
  · intro g
    rw [ha.entry]
    exact .append guards_of_callTo? (fun c hc => (h.callers g c hc).mono hkeep) hsites

theorem addClauses (h : ix.Coherent) (id : Nat) (clauses : List RegionClause) :
    (ix.addClauses id clauses).Coherent := by
  have hkeep : ∀ id' e, ix.region? id' = some e →
      ∃ e', (ix.addClauses id clauses).region? id' = some e' ∧ e'.function = e.function := by
    intro id' e he
    unfold region? at he
    simp only [region?, CallIndex.addClauses, List.getElem?_modify, he]
    split
    · exact ⟨_, rfl, rfl⟩
    · exact ⟨_, rfl, rfl⟩
  have hids : (ix.addClauses id clauses).regions.map (·.id) = ix.regions.map (·.id) := by
    refine List.ext_getElem? fun i => ?_
    simp only [CallIndex.addClauses, List.getElem?_map, List.getElem?_modify]
    cases ix.regions[i]? with
    | none => rfl
    | some e =>
      by_cases hid : id = i
      · simp [hid]
      · simp [hid]
  constructor
  · rw [hids, addClauses_length, h.numbered]
  · exact h.distinct
  · exact h.mirrored
  · exact fun t ht => (h.throws t ht).mono hkeep
  · exact fun f c hc => (h.calls f c hc).mono hkeep
  · exact fun g c hc => (h.callers g c hc).mono hkeep

theorem function?_of_mem (h : ix.Coherent) {e : FunctionEntry} (he : e ∈ ix.functions) :
    ix.function? e.name = some e := by
  unfold function?
  have hdistinct := h.distinct
  generalize ix.functions = fns at he hdistinct
  induction fns with
  | nil => cases he
  | cons e' fns ih =>
    rw [List.map_cons, List.nodup_cons] at hdistinct
    rcases List.mem_cons.1 he with rfl | he
    · simp
    · have hne : e'.name ≠ e.name := fun heq => hdistinct.1 (heq ▸ List.mem_map_of_mem he)
      rw [List.find?_cons_of_neg (by simpa using hne)]
      exact ih he hdistinct.2

/-- An entry is found under its own name only. -/
theorem function?_eq_some_iff (h : ix.Coherent) (name : String) (e : FunctionEntry) :
    ix.function? name = some e ↔ e ∈ ix.functions ∧ e.name = name := by
  constructor
  · intro hfind
    exact ⟨List.mem_of_find?_eq_some hfind, by simpa using List.find?_some hfind⟩
  · rintro ⟨he, rfl⟩
    exact h.function?_of_mem he

end Coherent

end CallIndex

namespace Recorder

variable {r r' : Recorder}

/-- The index fits together, and the open regions are regions of the function that is being walked,
the inner ones having the higher numbers. A region of which a clause is being walked is in its
newest clause. -/
structure Coherent (r : Recorder) : Prop where
  index : r.index.Coherent
  nested : (r.opened.map (·.id)).Pairwise (· > ·)
  walked : ∀ t ∈ r.opened, ∃ e, r.index.region? t.id = some e ∧ r.current = some e.function ∧
    ∀ i, t.clause = some i → i + 1 = e.clauses.length

namespace Coherent

theorem new : Coherent {} where
  index := ⟨rfl, List.nodup_nil, fun _ _ => rfl, List.forall_mem_nil _,
    fun _ => List.forall_mem_nil _, fun _ => List.forall_mem_nil _⟩
  nested := .nil
  walked := List.forall_mem_nil _

theorem opened_of_current (h : r.Coherent) (hc : r.current = none) : r.opened = [] := by
  cases ho : r.opened with
  | nil => rfl
  | cons t rest =>
    obtain ⟨e, -, hcurrent, -⟩ := h.walked t (ho ▸ List.mem_cons_self)
    rw [hc] at hcurrent
    cases hcurrent

/-- The part of an open region that is being walked is always known. -/
theorem exists_part (h : r.Coherent) {t : WalkedRegion} (ht : t ∈ r.opened) :
    ∃ part, r.part? t = some part := by
  obtain ⟨e, he, -, hclause⟩ := h.walked t ht
  cases hc : t.clause with
  | none => exact ⟨.body t.id, by rw [part?, hc]⟩
  | some i =>
    have hlt : i < e.clauses.length := by
      have := hclause i hc
      omega
    exact ⟨_, part?_of_entry he hc (List.getElem?_eq_getElem hlt)⟩

/-- Inside a function a coherent recorder stands at a place of it. -/
theorem exists_place (h : r.Coherent) {function : String} (hc : r.current = some function) :
    ∃ p, r.StandsAt p ∧ p.function = function := by
  have hparts : ∀ ts : List WalkedRegion, (∀ t ∈ ts, ∃ part, r.part? t = some part) →
      ∃ parts : List Part, ts.map r.part? = parts.map some := by
    intro ts hts
    induction ts with
    | nil => exact ⟨[], rfl⟩
    | cons t ts ih =>
      rw [List.forall_mem_cons] at hts
      obtain ⟨part, hpart⟩ := hts.1
      obtain ⟨parts, hparts⟩ := ih hts.2
      exact ⟨part :: parts, by rw [List.map_cons, List.map_cons, hpart, hparts]⟩
  obtain ⟨parts, hopened⟩ := hparts r.opened fun t ht => h.exists_part ht
  exact ⟨⟨function, parts⟩, ⟨hc, hopened⟩, rfl⟩

/-- The regions around the current point are regions of the current function. -/
theorem guardsIn (h : r.Coherent) {function : String} (hc : r.current = some function) :
    r.index.GuardsIn function r.guards := by
  constructor
  · have hsub : ((r.opened.filter (·.clause.isNone)).map (·.id)).Pairwise (· > ·) :=
      h.nested.sublist (List.filter_sublist.map _)
    rw [guards, List.map_reverse, List.pairwise_reverse]
    exact hsub
  · intro id hid
    rw [guards, List.mem_map] at hid
    obtain ⟨t, ht, rfl⟩ := hid
    obtain ⟨e, he, hcurrent, -⟩ := h.walked t (List.mem_filter.1 (List.mem_reverse.1 ht)).1
    rw [hc] at hcurrent
    cases hcurrent
    exact ⟨e, he, rfl⟩

theorem id_lt (h : r.Coherent) {t : WalkedRegion} (ht : t ∈ r.opened) :
    t.id < r.index.regions.length := by
  obtain ⟨e, he, -⟩ := h.walked t ht
  exact (List.getElem?_eq_some_iff.1 he).1

/-! ## Operations that change something -/

/-- Only the index changes, and the regions in it stay. -/
theorem of_index (h : r.Coherent) {ix : CallIndex} (hix : ix.Coherent)
    (hregions : ∀ id e, r.index.region? id = some e → ix.region? id = some e) :
    { r with index := ix }.Coherent := by
  refine ⟨hix, h.nested, fun t ht => ?_⟩
  obtain ⟨e, he, hrest⟩ := h.walked t ht
  exact ⟨e, hregions t.id e he, hrest⟩

/-- A call, throw or rethrow at the current place is noted. -/
theorem note_ofSite (h : r.Coherent) {p : Place} (hp : r.StandsAt p) {s : OutlineSite}
    (hs : s.place = p) : (r.note (.ofSite s)).Coherent := by
  have hguards : r.index.GuardsIn p.function p.guards := hp.guards_eq ▸ h.guardsIn hp.current
  refine h.of_index (h.index.adds (.note _ _) (.ofSite s) (List.forall_mem_singleton.2 ?_))
    fun id e he => CallIndex.region?_note he _
  rw [hs]
  exact hguards.mono fun id e he => ⟨e, CallIndex.region?_note he _, rfl⟩

theorem declare (h : r.Coherent) (hc : r.current = none) {f : OutlineFunction}
    (hdecl : (r.index.entryOf f.name).decl = none) :
    { r with index := r.index.declare f, current := some f.name }.Coherent := by
  have ho := h.opened_of_current hc
  refine ⟨h.index.adds (.declare _ f hdecl) .empty (List.forall_mem_nil _), h.nested, ?_⟩
  rw [ho]
  exact List.forall_mem_nil _

theorem enterBody (h : r.Coherent) {p : Place} (hp : r.StandsAt p) (loc : Location) :
    (r.enterBody ⟨r.index.regions.length, loc, p.function, []⟩).Coherent := by
  let e : RegionEntry := ⟨r.index.regions.length, loc, p.function, []⟩
  constructor
  · exact h.index.adds (.note _ (.ofRegion e)) rfl (List.forall_mem_nil _)
  · refine List.pairwise_cons.2 ⟨fun id hid => ?_, h.nested⟩
    obtain ⟨t, ht, rfl⟩ := List.mem_map.1 hid
    exact h.id_lt ht
  · intro t ht
    rcases List.mem_cons.1 ht with rfl | ht
    · refine ⟨e, List.getElem?_concat_length, hp.current, fun i hi => ?_⟩
      cases hi
    · obtain ⟨e', he', hrest⟩ := h.walked t ht
      exact ⟨e', CallIndex.region?_note he' _, hrest⟩

theorem enterClause (h : r.Coherent) {t : WalkedRegion} {rest : List WalkedRegion}
    (ho : r.opened = t :: rest) (c : RegionClause) : (r.enterClause t.id rest c).Coherent := by
  have hnested := h.nested
  rw [ho, List.map_cons, List.pairwise_cons] at hnested
  obtain ⟨e, he, hcurrent, -⟩ := h.walked t (ho ▸ List.mem_cons_self)
  refine ⟨h.index.addClauses t.id [c], ?_, fun t' ht' => ?_⟩
  · exact List.pairwise_cons.2 hnested
  · rcases List.mem_cons.1 ht' with rfl | ht'
    · refine ⟨_, CallIndex.region?_addClauses he [c], hcurrent, fun i hi => ?_⟩
      -- The clause is the next one: its position is the number of clauses before it.
      cases hi
      simp [selectorsOf, he]
    · obtain ⟨e', he', hrest⟩ := h.walked t' (ho ▸ List.mem_cons_of_mem _ ht')
      have hne : t.id ≠ t'.id := by
        have := hnested.1 t'.id (List.mem_map_of_mem ht')
        omega
      refine ⟨e', ?_, hrest⟩
      exact (List.getElem?_modify_ne _ _ hne).trans he'

theorem close (h : r.Coherent) {t : WalkedRegion} {rest : List WalkedRegion}
    (ho : r.opened = t :: rest) : { r with opened := rest }.Coherent := by
  have hnested := h.nested
  rw [ho, List.map_cons, List.pairwise_cons] at hnested
  exact ⟨h.index, hnested.2, fun t' ht' => h.walked t' (ho ▸ List.mem_cons_of_mem _ ht')⟩

/-! ## All operations -/

theorem enterFunction (h : r.Coherent) (name : String) (loc : Location) :
    (r.step (.enterFunction name loc)).1.Coherent := by
  rw [Recorder.step, Recorder.enterFunction]
  cases hc : r.current with
  | some outer => exact h
  | none =>
    simp only [CallIndex.function?_bind_decl]
    cases hd : (r.index.entryOf name).decl with
    | some first => exact h
    | none => exact h.declare hc (f := ⟨name, loc, []⟩) hd

theorem leaveFunction (h : r.Coherent) : (r.step .leaveFunction).1.Coherent := by
  rw [Recorder.step, Recorder.leaveFunction]
  cases ho : r.opened with
  | cons t rest => exact h
  | nil =>
    rw [Recorder.inFunction]
    cases hc : r.current with
    | none => exact h
    | some function => exact ⟨h.index, .nil, List.forall_mem_nil _⟩

theorem closeRegion (h : r.Coherent) : (r.step .closeRegion).1.Coherent := by
  rw [Recorder.step, Recorder.closeRegion]
  cases ho : r.opened with
  | nil => exact h
  | cons t rest =>
    cases hcheck : checkSelectors (r.selectorsOf t.id) with
    | ok _ =>
      simp only [hcheck]
      exact h.close ho
    | error fault =>
      simp only [hcheck]
      exact h.close ho

/-- An operation that needs a function around it: either there is none and the operation is refused,
or the recorder stands at a place. -/
theorem inFunction (h : r.Coherent) {what : Construct} {loc : Location}
    {next : String → Except WalkError Recorder}
    (hnext : ∀ p, r.StandsAt p → (r.orRefuse (r.inFunction what loc >>= next)).1.Coherent) :
    (r.orRefuse (r.inFunction what loc >>= next)).1.Coherent := by
  cases hc : r.current with
  | none =>
    rw [Recorder.inFunction, hc]
    exact h
  | some function =>
    obtain ⟨p, hp, -⟩ := h.exists_place hc
    exact hnext p hp

theorem rethrow (h : r.Coherent) (loc : Location) : (r.step (.rethrow loc)).1.Coherent := by
  refine h.inFunction fun p hp => ?_
  change (r.step (.rethrow loc)).1.Coherent
  cases hr : r.rethrow loc with
  | error e =>
    rw [Recorder.step, hr]
    exact h
  | ok r' =>
    have hstep : r.step (.rethrow loc) = (r', none) := orRefuse_eq_none.2 hr
    obtain ⟨-, hnote⟩ := (step_rethrow hp loc).1 hstep
    rw [hstep, hnote]
    exact h.note_ofSite hp rfl

/-- Every operation, refused or not, leaves a coherent recorder coherent. -/
theorem step (h : r.Coherent) (op : WalkOp) : (r.step op).1.Coherent := by
  cases op with
  | enterFunction name loc => exact h.enterFunction name loc
  | leaveFunction => exact h.leaveFunction
  | call callee loc =>
    refine h.inFunction fun p hp => ?_
    change (r.step (.call callee loc)).1.Coherent
    rw [step_call hp]
    exact h.note_ofSite hp rfl
  | throw loc kind =>
    refine h.inFunction fun p hp => ?_
    change (r.step (.throw loc kind)).1.Coherent
    rw [step_throw hp]
    exact h.note_ofSite hp rfl
  | rethrow loc => exact h.rethrow loc
  | openRegion loc =>
    refine h.inFunction fun p hp => ?_
    change (r.step (.openRegion loc)).1.Coherent
    rw [step_openRegion hp]
    exact h.enterBody hp loc
  | startClause loc selector =>
    rw [Recorder.step, startClause]
    cases ho : r.opened with
    | nil => exact h
    | cons t rest => exact h.enterClause ho ⟨loc, selector⟩
  | closeRegion => exact h.closeRegion

theorem run (h : r.Coherent) (ops : List WalkOp) : (r.run ops).1.Coherent := by
  induction ops generalizing r with
  | nil => exact h
  | cons op ops ih => exact ih (h.step op)

end Coherent

end Recorder

/-- After any operations on a new recorder, whichever of them were refused, the recorder is
coherent: regions are numbered through, the open ones are regions of the function that is being
walked, with rising numbers inward, and one that is in a clause is in its newest; of the calls from
one function to another both have the same on record, in the same order; and the regions around a
call or a throw are regions of the function in which it stands, with rising numbers inward. So
whatever an operation looks up for an open region is there, and the entry of a function is found
under its name and under no other: entries have no key beside their names, and no two have the same
name. -/
theorem recorder_stays_coherent (ops : List WalkOp) :
    let r := (Recorder.run {} ops).1
    r.Coherent ∧
    (∀ t ∈ r.opened, ∃ e, r.index.region? t.id = some e ∧ r.locationOf t.id = e.loc ∧
      r.selectorsOf t.id = e.clauses.map (·.selector) ∧
      ∀ i, t.clause = some i → ∃ c, e.clauses[i]? = some c ∧
        r.clauseSelector? t = some c.selector) ∧
    ∀ name e, r.index.function? name = some e ↔ e ∈ r.index.functions ∧ e.name = name := by
  intro r
  have h : r.Coherent := Recorder.Coherent.new.run ops
  refine ⟨h, fun t ht => ?_, h.index.function?_eq_some_iff⟩
  obtain ⟨e, he, -, hclause⟩ := h.walked t ht
  have hselectors : r.selectorsOf t.id = e.clauses.map (·.selector) := by
    rw [Recorder.selectorsOf, he]
  refine ⟨e, he, by rw [Recorder.locationOf, he], hselectors, fun i hi => ?_⟩
  have hlt : i < e.clauses.length := by
    have := hclause i hi
    omega
  refine ⟨e.clauses[i], List.getElem?_eq_getElem hlt, ?_⟩
  simp [Recorder.clauseSelector?, hi, hselectors, hlt]

/-- A function calls itself in a clause and in a region in that clause. A call before it, its end
while the regions are open, and a function inside it are refused. -/
theorem recorder_stays_coherent_recursive :
    let r := (Recorder.run {}
      [.call "f" {}, .enterFunction "f" {}, .openRegion {}, .call "g" {}, .startClause {} .any,
        .startClause {} (.kind .int), .call "f" {}, .openRegion {}, .call "f" {}, .leaveFunction,
        .enterFunction "g" {}]).1
    r.opened = [⟨1, none⟩, ⟨0, some 1⟩] ∧ r.current = some "f" ∧
      CallIndex.sitesWith "f" (r.index.entryOf "f").calls = [({}, []), ({}, [1])] ∧
      r.Coherent ∧
      ∃ e c, r.index.region? 0 = some e ∧ e.clauses[1]? = some c ∧
        r.clauseSelector? ⟨0, some 1⟩ = some c.selector := by
  intro r
  obtain ⟨hcoherent, hopen, -⟩ := recorder_stays_coherent
    [.call "f" {}, .enterFunction "f" {}, .openRegion {}, .call "g" {}, .startClause {} .any,
      .startClause {} (.kind .int), .call "f" {}, .openRegion {}, .call "f" {}, .leaveFunction,
      .enterFunction "g" {}]
  have hopened : r.opened = [⟨1, none⟩, ⟨0, some 1⟩] := by decide
  have hmem : ⟨0, some 1⟩ ∈ r.opened := by
    rw [hopened]
    exact List.mem_cons_of_mem _ List.mem_cons_self
  obtain ⟨e, he, -, -, hclause⟩ := hopen ⟨0, some 1⟩ hmem
  obtain ⟨c, hc, hselector⟩ := hclause 1 rfl
  exact ⟨hopened, by decide, by decide, hcoherent, e, c, he, hc, hselector⟩

end Unwind
