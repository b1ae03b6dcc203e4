import Unwind.Index.FateTree
import Unwind.Index.Recorder
import Unwind.Proofs.ChainDispatch

/-!
# Call chains and fate trees

A call chain follows calls outward and may pass through a function any number of times. A fate tree
follows only callers that are not yet on its path. Loops can be cut out of a chain
(`Chain.exists_nodup`), and a chain without loops along which no clause takes the payload is a path
of the tree (`Chain.escapes_mem`). So a tree on which every path ends at a clause speaks of all
chains.
-/

namespace Unwind

/-- The calls lead outward from the function `f` to the function `g`. -/
inductive CallIndex.Chain (ix : CallIndex) : String → List CallEntry → String → Prop where
  | nil (f : String) : Chain ix f [] f
  | cons {f g : String} {c : CallEntry} {outer : List CallEntry} :
    c ∈ ix.callsTo f → Chain ix c.function outer g → Chain ix f (c :: outer) g

theorem Selector.accepts_of_takesAll {s : Selector} (h : s.takesAll) (k : Kind) : s.accepts k := by
  cases s with
  | kind _ => contradiction
  | any => rfl

/-- A thrown payload can be of kind `k`. -/
def ThrowEntry.CanCarry (t : ThrowEntry) (k : Kind) : Prop :=
  t.kind = none ∨ t.kind = some k

namespace CallIndex

variable {ix : CallIndex} {f g : String} {kind : Option Kind}

/-! ## Chains without loops -/

theorem Chain.of_append {inner outer : List CallEntry} {c : CallEntry}
    (h : ix.Chain f (inner ++ c :: outer) g) : ix.Chain c.function outer g := by
  induction inner generalizing f with
  | nil =>
    cases h with
    | cons _ h => exact h
  | cons d inner ih =>
    cases h with
    | cons _ h => exact ih h

/-- Whatever lies between two visits of a function can be cut out of a chain. -/
theorem Chain.exists_nodup {chain : List CallEntry} (h : ix.Chain f chain g) :
    ∃ short, ix.Chain f short g ∧ (short.map (·.function)).Nodup ∧ short ⊆ chain := by
  induction h with
  | nil f => exact ⟨[], .nil f, List.nodup_nil, List.Subset.refl _⟩
  | @cons f g c outer hc _ ih =>
    obtain ⟨short, hshort, hnodup, hsub⟩ := ih
    by_cases hmem : c.function ∈ short.map (·.function)
    · -- The function of `c` is visited again, at `d`. What follows `d` can follow `c` as well.
      obtain ⟨d, hd, heq⟩ := List.mem_map.1 hmem
      obtain ⟨inner, rest, rfl⟩ := List.append_of_mem hd
      have hrest : ix.Chain c.function rest g := heq ▸ hshort.of_append
      rw [List.map_append, List.map_cons, heq] at hnodup
      refine ⟨c :: rest, .cons hc hrest, (List.nodup_append.1 hnodup).2.1, ?_⟩
      apply List.cons_subset_cons
      intro x hx
      exact hsub (List.mem_append_right _ (List.mem_cons_of_mem _ hx))
    · exact ⟨c :: short, .cons hc hshort, List.nodup_cons.2 ⟨hmem, hnodup⟩,
        List.cons_subset_cons _ hsub⟩

/-! ## Chains on a fate tree -/

theorem fatesFrom_of_none {path : List String} (h : ix.freshCallers path f = []) :
    ix.fatesFrom kind path f = [.escapes f] := by
  rw [fatesFrom, if_pos (by rw [h]; rfl)]

/-- The fates behind one caller are fates of the function that it calls. -/
theorem mem_fatesFrom_of_caller {path : List String} {c : CallEntry} {fate : Fate}
    (hc : c ∈ ix.freshCallers path f) (hnone : ix.takenUnder c.guards kind = none)
    (h : fate ∈ ix.fatesFrom kind (c.function :: path) c.function) :
    fate ∈ ix.fatesFrom kind path f := by
  have hne : ¬ (ix.freshCallers path f).isEmpty := by
    intro hempty
    rw [List.isEmpty_iff.1 hempty] at hc
    contradiction
  rw [fatesFrom, if_neg hne, List.mem_flatMap]
  exact ⟨⟨c, hc⟩, List.mem_attach _ _, by simp only [hnone]; exact h⟩

/-- A payload that no call of a chain stops escapes where the chain ends, if the chain has no loop
and does not cross the path. -/
theorem Chain.escapes_mem {chain : List CallEntry} (h : ix.Chain f chain g)
    (hout : ix.callsTo g = []) {path : List String} (hnodup : (chain.map (·.function)).Nodup)
    (hpath : ∀ c ∈ chain, c.function ∉ path)
    (hnone : ∀ c ∈ chain, ix.takenUnder c.guards kind = none) :
    .escapes g ∈ ix.fatesFrom kind path f := by
  induction h generalizing path with
  | nil f =>
    have hfresh : ix.freshCallers path f = [] := by rw [freshCallers, hout]; rfl
    rw [fatesFrom_of_none hfresh]
    exact List.mem_singleton_self _
  | @cons f g c outer hc _ ih =>
    rw [List.forall_mem_cons] at hpath hnone
    rw [List.map_cons, List.nodup_cons] at hnodup
    have hfresh : c ∈ ix.freshCallers path f :=
      List.mem_filter.2 ⟨hc, decide_eq_true hpath.1⟩
    refine mem_fatesFrom_of_caller hfresh hnone.1 (ih hout hnodup.2 ?_ hnone.2)
    intro d hd hmem
    rcases List.mem_cons.1 hmem with heq | hmem
    · exact hnodup.1 (heq ▸ List.mem_map_of_mem hd)
    · exact hpath.2 d hd hmem

/-! ## Unknown kinds -/

/-- Where no clause takes payloads of kind `k`, there is no catch-all. -/
theorem takenBy_none_of_kind {id : Nat} {k : Kind} (h : ix.takenBy (some k) id = none) :
    ix.takenBy none id = none := by
  obtain ⟨-, hfirst⟩ | ⟨i, function, loc, htaken, -⟩ := ix.takenBy_cases (some k) id
  · obtain ⟨hnone, -⟩ | ⟨i, function, loc, -, hi⟩ := ix.takenBy_cases none id
    · exact hnone
    · cases hr : ix.region? id with
      | none => simp [hr] at hi
      | some region =>
        simp only [hr, Option.bind_some] at hi hfirst
        obtain ⟨hlt, htakes, -⟩ := List.findIdx?_eq_some_iff_getElem.1 hi
        have hrefuses : region.clauses[i].selector.accepts k = false :=
          List.findIdx?_eq_none_iff.1 hfirst _ (List.getElem_mem hlt)
        rw [Selector.accepts_of_takesAll htakes] at hrefuses
        contradiction
  · rw [h] at htaken
    contradiction

theorem takenUnder_none_of_kind {guards : List Nat} {k : Kind}
    (h : ix.takenUnder guards (some k) = none) : ix.takenUnder guards none = none := by
  rw [takenUnder, List.findSome?_eq_none_iff] at h ⊢
  exact fun id hid => takenBy_none_of_kind (h id hid)

/-- Where nothing takes a payload that a throw can carry, nothing is sure to take what is thrown. -/
theorem takenUnder_none_of_canCarry {t : ThrowEntry} {k : Kind} (hk : t.CanCarry k)
    {guards : List Nat} (h : ix.takenUnder guards (some k) = none) :
    ix.takenUnder guards t.kind = none := by
  rcases hk with hk | hk
  · rw [hk]
    exact takenUnder_none_of_kind h
  · rw [hk]
    exact h

/-- A tree whose paths all end at clauses has no path along a chain that lets the payload out. -/
theorem not_isAlwaysTaken_of_chain {t : ThrowEntry} {chain : List CallEntry}
    (h : ix.Chain t.function chain g) (hout : ix.callsTo g = [])
    (hplace : ix.takenUnder t.guards t.kind = none)
    (hchain : ∀ c ∈ chain, ix.takenUnder c.guards t.kind = none) :
    ¬ (ix.fateTree t).isAlwaysTaken := by
  obtain ⟨short, hshort, hnodup, hsub⟩ := h.exists_nodup
  have hescapes : .escapes g ∈ ix.fatesFrom t.kind [] t.function :=
    hshort.escapes_mem hout hnodup (fun _ _ => List.not_mem_nil) fun c hc => hchain c (hsub hc)
  intro htaken
  simp only [FateTree.isAlwaysTaken, fateTree, hplace, Bool.and_eq_true, List.all_eq_true] at htaken
  exact absurd (htaken.2 _ hescapes) Bool.false_ne_true

end CallIndex

/-- If every path of the fate tree of a throw ends at a clause, then along every call chain that
leads out to a function without callers, however often it passes through a function, a clause around
the throw or around one of the calls takes the payload, whichever kind the throw can carry. -/
theorem taken_on_every_chain (ix : CallIndex) {t : ThrowEntry} (h : (ix.fateTree t).isAlwaysTaken)
    {k : Kind} (hk : t.CanCarry k) {chain : List CallEntry} {g : String}
    (hchain : ix.Chain t.function chain g) (hout : ix.callsTo g = []) :
    (ix.takenUnder t.guards (some k)).isSome ∨
      ∃ c ∈ chain, (ix.takenUnder c.guards (some k)).isSome := by
  apply Classical.byContradiction
  intro hno
  rw [not_or] at hno
  obtain ⟨hplace, hcalls⟩ := hno
  rw [Option.not_isSome_iff_eq_none] at hplace
  have hnone : ∀ c ∈ chain, ix.takenUnder c.guards (some k) = none := by
    intro c hc
    rw [← Option.not_isSome_iff_eq_none]
    exact fun hsome => hcalls ⟨c, hc, hsome⟩
  exact CallIndex.not_isAlwaysTaken_of_chain hchain hout
    (CallIndex.takenUnder_none_of_canCarry hk hplace)
    (fun c hc => CallIndex.takenUnder_none_of_canCarry hk (hnone c hc)) h

/-- A payload of unknown kind is sent on from a function that calls itself and is called under a
catch-all. The chain goes round twice. -/
theorem taken_on_every_chain_recursive :
    let site line : Location := { file := "loop.c", line, column := 1 }
    let ix := (Recorder.run {}
      [.enterFunction "f" (site 1), .openRegion (site 2), .call "f" (site 3),
        .startClause (site 4) .any, .rethrow (site 5), .closeRegion, .call "f" (site 6),
        .leaveFunction,
        .enterFunction "main" (site 7), .openRegion (site 8), .call "f" (site 9),
        .startClause (site 10) .any, .closeRegion, .leaveFunction]).1.index
    let t : ThrowEntry := ⟨"f", site 5, none, true, []⟩
    let loop : CallEntry := ⟨"f", site 6, []⟩
    let out : CallEntry := ⟨"main", site 9, [1]⟩
    t ∈ ix.throws ∧ (ix.fateTree t).isAlwaysTaken ∧ t.CanCarry .record ∧
      ix.Chain "f" [loop, loop, out] "main" ∧ ix.callsTo "main" = [] ∧
      ((ix.takenUnder t.guards (some .record)).isSome ∨
        ∃ c ∈ [loop, loop, out], (ix.takenUnder c.guards (some .record)).isSome) := by
  intro site ix t loop out
  have htree : (ix.fateTree t).isAlwaysTaken := by decide +kernel
  have hchain : ix.Chain "f" [loop, loop, out] "main" :=
    .cons (by decide) (.cons (by decide) (.cons (by decide) (.nil _)))
  have hout : ix.callsTo "main" = [] := by decide
  exact ⟨by decide, htree, .inl rfl, hchain, hout,
    taken_on_every_chain ix htree (.inl rfl) hchain hout⟩

end Unwind
