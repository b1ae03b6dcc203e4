import Unwind.Proofs.CallChains

/-!
# The clauses on a fate tree

A payload that passes every call of a chain is taken around the next call out, if a clause there
takes it. The clause is on the fate tree unless the payload has come through the function of that
call before: the tree does not go back to a function that is already on its path, also where the
call in question stands in a region. Loops further in do no harm, since they can be cut out.
-/

namespace Unwind

namespace CallIndex

variable {ix : CallIndex} {kind : Option Kind}

/-- The calls lead outward from `f`, nothing around them takes the payload, and around the call `c`,
which leads on from the last of them, `fate` takes it. -/
structure TakenAfter (ix : CallIndex) (kind : Option Kind) (f : String) (inner : List CallEntry)
    (c : CallEntry) (fate : Fate) : Prop where
  chain : ∃ g, ix.Chain f inner g ∧ c ∈ ix.callsTo g
  passes : ∀ d ∈ inner, ix.takenUnder d.guards kind = none
  takes : ix.takenUnder c.guards kind = some fate

theorem mem_freshCallers {path : List String} {f : String} {c : CallEntry} :
    c ∈ ix.freshCallers path f ↔ c ∈ ix.callsTo f ∧ c.function ∉ path := by
  rw [freshCallers, List.mem_filter, decide_eq_true_eq]

theorem mem_fatesFrom_of_taken {path : List String} {f : String} {c : CallEntry} {fate : Fate}
    (hc : c ∈ ix.freshCallers path f) (htakes : ix.takenUnder c.guards kind = some fate) :
    fate ∈ ix.fatesFrom kind path f := by
  have hne : ¬ (ix.freshCallers path f).isEmpty := by
    intro hempty
    rw [List.isEmpty_iff.1 hempty] at hc
    contradiction
  rw [fatesFrom, if_neg hne, List.mem_flatMap]
  refine ⟨⟨c, hc⟩, List.mem_attach _ _, ?_⟩
  simp only [htakes]
  exact List.mem_singleton_self _

/-- A chain without loops that does not cross the path is followed to the clause. -/
theorem Chain.taken_mem {f g : String} {inner : List CallEntry} (h : ix.Chain f inner g)
    {c : CallEntry} (hc : c ∈ ix.callsTo g) {fate : Fate}
    (htakes : ix.takenUnder c.guards kind = some fate) {path : List String}
    (hnodup : (inner.map (·.function)).Nodup) (hnew : c.function ∉ inner.map (·.function))
    (hpath : ∀ d ∈ c :: inner, d.function ∉ path)
    (hnone : ∀ d ∈ inner, ix.takenUnder d.guards kind = none) :
    fate ∈ ix.fatesFrom kind path f := by
  induction h generalizing path with
  | nil f =>
    have hfresh : c ∈ ix.freshCallers path f :=
      mem_freshCallers.2 ⟨hc, hpath c List.mem_cons_self⟩
    exact mem_fatesFrom_of_taken hfresh htakes
  | @cons f g d outer hd _ ih =>
    rw [List.forall_mem_cons, List.forall_mem_cons] at hpath
    obtain ⟨hcpath, hdpath, houter⟩ := hpath
    rw [List.map_cons, List.nodup_cons] at hnodup
    rw [List.map_cons, List.mem_cons, not_or] at hnew
    rw [List.forall_mem_cons] at hnone
    have hfresh : d ∈ ix.freshCallers path f := mem_freshCallers.2 ⟨hd, hdpath⟩
    refine mem_fatesFrom_of_caller hfresh hnone.1 (ih hc hnodup.2 hnew.2 ?_ hnone.2)
    intro e he hmem
    rcases List.mem_cons.1 hmem with heq | hmem
    · rcases List.mem_cons.1 he with rfl | he
      · exact hnew.1 heq
      · exact hnodup.1 (heq ▸ List.mem_map_of_mem he)
    · rcases List.mem_cons.1 he with rfl | he
      · exact hcpath hmem
      · exact houter e he hmem

/-- A clause is on the tree if the payload comes to it without having been in the function of the
last call before. It may have been in other functions any number of times. -/
theorem TakenAfter.mem_fatesFrom {f : String} {inner : List CallEntry} {c : CallEntry} {fate : Fate}
    (h : ix.TakenAfter kind f inner c fate) (hnew : c.function ∉ inner.map (·.function)) :
    fate ∈ ix.fatesFrom kind [] f := by
  obtain ⟨g, hchain, hc⟩ := h.chain
  obtain ⟨short, hshort, hnodup, hsub⟩ := hchain.exists_nodup
  refine hshort.taken_mem hc h.takes hnodup ?_ (fun _ _ => List.not_mem_nil) ?_
  · intro hmem
    exact hnew (List.map_subset _ hsub hmem)
  · intro d hd
    exact h.passes d (hsub hd)

/-- Every clause on the tree is reached in this way. -/
theorem exists_takenAfter {path : List String} {f : String} {region clause : Nat}
    {function : String} {loc : Location}
    (h : .taken region clause function loc ∈ ix.fatesFrom kind path f) :
    ∃ inner c, ix.TakenAfter kind f inner c (.taken region clause function loc) ∧
      c.function ∉ inner.map (·.function) ∧ c.function ∉ path := by
  -- Along the recursion of the tree: what is left to visit gets less with every call.
  rw [fatesFrom] at h
  split at h
  · cases List.mem_singleton.1 h
  · obtain ⟨⟨d, hd⟩, -, h⟩ := List.mem_flatMap.1 h
    obtain ⟨hcall, hfresh⟩ := mem_freshCallers.1 hd
    simp only at h
    split at h
    next fate htakes =>
      cases List.mem_singleton.1 h
      exact ⟨[], d, ⟨⟨f, .nil f, hcall⟩, List.forall_mem_nil _, htakes⟩, List.not_mem_nil, hfresh⟩
    next hnone =>
      obtain ⟨inner, c, ⟨⟨g, hchain, hc⟩, hpasses, htakes⟩, hnew, hpath⟩ := exists_takenAfter h
      rw [List.mem_cons, not_or] at hpath
      refine ⟨d :: inner, c, ⟨⟨g, .cons hcall hchain, hc⟩, ?_, htakes⟩, ?_, hpath.2⟩
      · exact List.forall_mem_cons.2 ⟨hnone, hpasses⟩
      · rw [List.map_cons, List.mem_cons, not_or]
        exact ⟨hpath.1, hnew⟩
termination_by ix.untouched path
decreasing_by exact untouched_lt hd

end CallIndex

/-- A clause around the place of a throw is on the fate tree of the throw. If there is none, the
clauses on the tree are exactly those to which the payload comes along a call chain, past calls of
which none is in the function of the last one. -/
theorem clauses_on_fate_tree (ix : CallIndex) (t : ThrowEntry) :
    (∀ fate, ix.takenUnder t.guards t.kind = some fate → fate ∈ (ix.fateTree t).fates) ∧
    (ix.takenUnder t.guards t.kind = none → ∀ region clause function loc,
      let fate := .taken region clause function loc
      (fate ∈ (ix.fateTree t).fates ↔
        ∃ inner c, ix.TakenAfter t.kind t.function inner c fate ∧
          c.function ∉ inner.map (·.function))) := by
  constructor
  · intro fate htakes
    simp only [CallIndex.fateTree, htakes]
    exact List.mem_singleton_self _
  · intro hnone region clause function loc fate
    have hfates : (ix.fateTree t).fates = ix.fatesFrom t.kind [] t.function := by
      simp only [CallIndex.fateTree, hnone]
    rw [hfates]
    constructor
    · intro h
      obtain ⟨inner, c, htaken, hnew, -⟩ := CallIndex.exists_takenAfter h
      exact ⟨inner, c, htaken, hnew⟩
    · rintro ⟨inner, c, htaken, hnew⟩
      exact htaken.mem_fatesFrom hnew

/-- A payload that goes round a function that calls itself and is taken in the one around it. -/
theorem clauses_on_fate_tree_round :
    let site line : Location := { file := "loop.c", line, column := 1 }
    let ix := (Recorder.run {}
      [.enterFunction "f" (site 1), .throw (site 2) .int, .call "f" (site 3), .leaveFunction,
        .enterFunction "main" (site 4), .openRegion (site 5), .call "f" (site 6),
        .startClause (site 7) (.kind .record), .startClause (site 8) (.kind .int), .closeRegion,
        .leaveFunction]).1.index
    let t : ThrowEntry := ⟨"f", site 2, some .int, false, []⟩
    let loop : CallEntry := ⟨"f", site 3, []⟩
    let out : CallEntry := ⟨"main", site 6, [0]⟩
    let fate : Fate := .taken 0 1 "main" (site 8)
    t ∈ ix.throws ∧ ix.takenUnder t.guards t.kind = none ∧
      ix.TakenAfter t.kind t.function [loop, loop] out fate ∧
      out.function ∉ [loop, loop].map (·.function) ∧ fate ∈ (ix.fateTree t).fates := by
  intro site ix t loop out fate
  have hnone : ix.takenUnder t.guards t.kind = none := by decide
  have htaken : ix.TakenAfter t.kind t.function [loop, loop] out fate :=
    ⟨⟨"f", .cons (by decide) (.cons (by decide) (.nil _)), by decide⟩, by decide, by decide⟩
  have hnew : out.function ∉ [loop, loop].map (·.function) := by decide
  exact ⟨by decide, hnone, htaken, hnew,
    ((clauses_on_fate_tree ix t).2 hnone 0 1 "main" (site 8)).2 ⟨_, _, htaken, hnew⟩⟩

/-- A clause that is missing from a fate tree: a function lets a payload out to a call of itself
under a region. The clause there takes the payload, but the tree has been in the function before. -/
theorem clause_off_fate_tree :
    let site line : Location := { file := "loop.c", line, column := 1 }
    let walked := (Recorder.run {}
      [.enterFunction "f" (site 1), .throw (site 2) .int, .leaveFunction,
        .enterFunction "g" (site 3), .call "f" (site 4), .openRegion (site 5), .call "g" (site 6),
        .startClause (site 7) (.kind .int), .closeRegion, .leaveFunction,
        .enterFunction "main" (site 8), .call "g" (site 9), .leaveFunction]).1
    let ix := walked.index
    let t : ThrowEntry := ⟨"f", site 2, some .int, false, []⟩
    let inner : CallEntry := ⟨"g", site 4, []⟩
    let again : CallEntry := ⟨"g", site 6, [0]⟩
    let fate : Fate := .taken 0 0 "g" (site 7)
    walked.finish = .ok ix ∧ t ∈ ix.throws ∧ ix.takenUnder t.guards t.kind = none ∧
      ix.TakenAfter t.kind t.function [inner] again fate ∧ fate ∉ (ix.fateTree t).fates := by
  intro site walked ix t inner again fate
  have hopened : walked.opened = [] := by decide
  have hcurrent : walked.current = none := by decide
  refine ⟨by rw [Recorder.finish, hopened, hcurrent], by decide, by decide, ?_, by decide +kernel⟩
  exact ⟨⟨"g", .cons (by decide) (.nil _), by decide⟩, by decide, by decide⟩

end Unwind
