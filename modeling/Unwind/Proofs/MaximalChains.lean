import Unwind.Proofs.ClauseReach

/-!
# Fates and maximal chains

A chain of calls is told by its route: the position of each call among the calls of the function
before it. From a throw that no clause around it takes, the fates are those of the chains that
cannot be followed any further, one for each route, in the order of the routes. The walk of the tree
is kept with its routes in `routesFrom`: `mem_routesFrom` says that it finds the maximal chains,
`pairwise_routesFrom` that it finds them in order and each once, and `map_routesFrom` that without
the routes it gives the fates.
-/

namespace Unwind

namespace CallIndex

variable {ix : CallIndex} {kind : Option Kind} {path : List String} {f g : String}

/-! ## Maximal chains -/

/-- The calls at the positions of a route, which lead outward from the function `f` to the function
`g`. A function can call another one in several places, so a chain is more than its functions. -/
inductive Along (ix : CallIndex) : String → List Nat → List CallEntry → String → Prop where
  | nil (f : String) : Along ix f [] [] f
  | cons {f g : String} {i : Nat} {c : CallEntry} {route : List Nat} {outer : List CallEntry} :
    (ix.callsTo f)[i]? = some c → Along ix c.function route outer g →
    Along ix f (i :: route) (c :: outer) g

/-- The calls are in different functions, and none of these is on the path. -/
def Apart (path : List String) (calls : List CallEntry) : Prop :=
  (calls.map (·.function)).Nodup ∧ ∀ c ∈ calls, c.function ∉ path

/-- What becomes of a payload that has followed calls to the function `g` and gets no further. A
clause around the last call takes it, and nothing around the calls before does. Or nothing takes it
at all, and `g` is called only from functions that it has been in or that are on the path. -/
inductive Ending (ix : CallIndex) (kind : Option Kind) (path : List String) :
    List CallEntry → String → Fate → Prop where
  | taken {inner : List CallEntry} {c : CallEntry} {g : String} {fate : Fate} :
    (∀ d ∈ inner, ix.takenUnder d.guards kind = none) → ix.takenUnder c.guards kind = some fate →
    Ending ix kind path (inner ++ [c]) g fate
  | escapes {calls : List CallEntry} {g : String} :
    (∀ d ∈ calls, ix.takenUnder d.guards kind = none) →
    (∀ d ∈ ix.callsTo g, d.function ∈ calls.map (·.function) ∨ d.function ∈ path) →
    Ending ix kind path calls g (.escapes g)

/-- The route of a chain outward from `f`, without loops and off the path, that cannot be followed
any further, and what becomes of the payload there. -/
def MaximalChain (ix : CallIndex) (kind : Option Kind) (path : List String) (f : String)
    (route : List Nat) (fate : Fate) : Prop :=
  ∃ calls g, ix.Along f route calls g ∧ Apart path calls ∧ ix.Ending kind path calls g fate

theorem apart_nil (path : List String) : Apart path [] :=
  ⟨List.nodup_nil, List.forall_mem_nil _⟩

theorem apart_cons {c : CallEntry} {calls : List CallEntry} :
    Apart path (c :: calls) ↔ c.function ∉ path ∧ Apart (c.function :: path) calls := by
  simp only [Apart, List.map_cons, List.nodup_cons, List.forall_mem_cons]
  constructor
  · rintro ⟨⟨hnew, hnodup⟩, hc, hcalls⟩
    refine ⟨hc, hnodup, fun d hd hmem => ?_⟩
    rcases List.mem_cons.1 hmem with heq | hmem
    · exact hnew (heq ▸ List.mem_map_of_mem hd)
    · exact hcalls d hd hmem
  · rintro ⟨hc, hnodup, hcalls⟩
    refine ⟨⟨fun hmem => ?_, hnodup⟩, hc, fun d hd => ?_⟩
    · obtain ⟨d, hd, heq⟩ := List.mem_map.1 hmem
      exact hcalls d hd (heq ▸ List.mem_cons_self)
    · exact fun hmem => hcalls d hd (List.mem_cons_of_mem _ hmem)

theorem ending_nil {fate : Fate} :
    ix.Ending kind path [] g fate ↔
      (∀ d ∈ ix.callsTo g, d.function ∈ path) ∧ fate = .escapes g := by
  constructor
  · intro h
    generalize hcalls : [] = calls at h
    cases h with
    | taken =>
      exact absurd hcalls.symm (List.append_ne_nil_of_right_ne_nil _ (List.cons_ne_nil _ _))
    | escapes _ hused =>
      subst hcalls
      exact ⟨fun d hd => (hused d hd).resolve_left List.not_mem_nil, rfl⟩
  · rintro ⟨hused, rfl⟩
    exact .escapes (List.forall_mem_nil _) fun d hd => .inr (hused d hd)

theorem ending_cons_of_taken {c : CallEntry} {calls : List CallEntry} {fate fate' : Fate}
    (htakes : ix.takenUnder c.guards kind = some fate') :
    ix.Ending kind path (c :: calls) g fate ↔ calls = [] ∧ fate = fate' := by
  constructor
  · intro h
    generalize hcalls : c :: calls = calls' at h
    cases h with
    | @taken inner d _ _ hnone htaken =>
      cases inner with
      | nil =>
        cases hcalls
        exact ⟨rfl, Option.some.inj (htaken.symm.trans htakes)⟩
      | cons e inner =>
        cases hcalls
        cases htakes.symm.trans (hnone c List.mem_cons_self)
    | escapes hnone =>
      subst hcalls
      cases htakes.symm.trans (hnone c List.mem_cons_self)
  · rintro ⟨rfl, rfl⟩
    exact .taken (List.forall_mem_nil _) htakes

/-- A call that lets the payload pass only adds its function to the path. -/
theorem ending_cons_of_none {c : CallEntry} {calls : List CallEntry} {fate : Fate}
    (hnone : ix.takenUnder c.guards kind = none) :
    ix.Ending kind path (c :: calls) g fate ↔
      ix.Ending kind (c.function :: path) calls g fate := by
  have hseen (name : String) :
      name ∈ (c :: calls).map (·.function) ∨ name ∈ path ↔
        name ∈ calls.map (·.function) ∨ name ∈ c.function :: path := by
    rw [List.map_cons, List.mem_cons, List.mem_cons, or_right_comm, or_comm, or_left_comm]
  constructor
  · intro h
    generalize hcalls : c :: calls = calls' at h
    cases h with
    | @taken inner d _ _ hinner htaken =>
      cases inner with
      | nil =>
        cases hcalls
        cases hnone.symm.trans htaken
      | cons e inner =>
        cases hcalls
        exact .taken (List.forall_mem_cons.1 hinner).2 htaken
    | escapes hcalls' hused =>
      subst hcalls
      exact .escapes (List.forall_mem_cons.1 hcalls').2 fun d hd => (hseen _).1 (hused d hd)
  · intro h
    cases h with
    | taken hinner htaken => exact .taken (List.forall_mem_cons.2 ⟨hnone, hinner⟩) htaken
    | escapes hcalls hused =>
      exact .escapes (List.forall_mem_cons.2 ⟨hnone, hcalls⟩) fun d hd => (hseen _).2 (hused d hd)

theorem maximalChain_nil {fate : Fate} :
    ix.MaximalChain kind path f [] fate ↔
      (∀ d ∈ ix.callsTo f, d.function ∈ path) ∧ fate = .escapes f := by
  constructor
  · rintro ⟨calls, g, halong, -, hend⟩
    cases halong
    exact ending_nil.1 hend
  · intro h
    exact ⟨[], f, .nil f, apart_nil path, ending_nil.2 h⟩

/-- The first step of a maximal chain: a call off the path, around which a clause takes the payload
or which lets it pass. -/
theorem maximalChain_cons {i : Nat} {route : List Nat} {fate : Fate} :
    ix.MaximalChain kind path f (i :: route) fate ↔
      ∃ c, (ix.callsTo f)[i]? = some c ∧ c.function ∉ path ∧
        match ix.takenUnder c.guards kind with
        | some fate' => route = [] ∧ fate = fate'
        | none => ix.MaximalChain kind (c.function :: path) c.function route fate := by
  constructor
  · rintro ⟨calls, g, halong, hapart, hend⟩
    cases halong with
    | @cons _ _ _ c _ outer hc houter =>
      obtain ⟨hfresh, hapart⟩ := apart_cons.1 hapart
      refine ⟨c, hc, hfresh, ?_⟩
      split
      next fate' htakes =>
        obtain ⟨rfl, rfl⟩ := (ending_cons_of_taken htakes).1 hend
        cases houter
        exact ⟨rfl, rfl⟩
      next hnone => exact ⟨outer, g, houter, hapart, (ending_cons_of_none hnone).1 hend⟩
  · rintro ⟨c, hc, hfresh, h⟩
    split at h
    next fate' htakes =>
      obtain ⟨rfl, rfl⟩ := h
      exact ⟨[c], c.function, .cons hc (.nil _), apart_cons.2 ⟨hfresh, apart_nil _⟩,
        (ending_cons_of_taken htakes).2 ⟨rfl, rfl⟩⟩
    next hnone =>
      obtain ⟨outer, g, houter, hapart, hend⟩ := h
      exact ⟨c :: outer, g, .cons hc houter, apart_cons.2 ⟨hfresh, hapart⟩,
        (ending_cons_of_none hnone).2 hend⟩

/-! ## The walk with its routes -/

/-- The calls of a function from functions that are not on the path, with their positions. -/
def freshSites (ix : CallIndex) (path : List String) (f : String) : List (CallEntry × Nat) :=
  (ix.callsTo f).zipIdx.filter (·.1.function ∉ path)

theorem map_freshSites (path : List String) (f : String) :
    (ix.freshSites path f).map (·.1) = ix.freshCallers path f := by
  have hcalls := List.filter_map (f := Prod.fst) (p := fun c : CallEntry => c.function ∉ path)
    (l := (ix.callsTo f).zipIdx)
  rw [List.zipIdx_map_fst] at hcalls
  exact hcalls.symm

theorem mem_freshSites {c : CallEntry} {i : Nat} :
    (c, i) ∈ ix.freshSites path f ↔ (ix.callsTo f)[i]? = some c ∧ c.function ∉ path := by
  rw [freshSites, List.mem_filter, List.mem_zipIdx_iff_getElem?, decide_eq_true_eq]

theorem pairwise_freshSites (path : List String) (f : String) :
    (ix.freshSites path f).Pairwise (·.2 < ·.2) := by
  have hsorted : ((ix.callsTo f).zipIdx.map (·.2)).Pairwise (· < ·) := by
    rw [List.zipIdx_map_snd]
    exact List.pairwise_lt_range'
  exact (List.pairwise_map.1 hsorted).filter _

/-- The ends of the paths outward from a function, each with its route. -/
def routesFrom (ix : CallIndex) (kind : Option Kind) (path : List String) (f : String) :
    List (List Nat × Fate) :=
  if (ix.freshCallers path f).isEmpty then
    [([], .escapes f)]
  else
    (ix.freshSites path f).attach.flatMap fun ⟨(c, i), _⟩ =>
      match ix.takenUnder c.guards kind with
      | some fate => [([i], fate)]
      | none => (ix.routesFrom kind (c.function :: path) c.function).map fun r => (i :: r.1, r.2)
termination_by ix.untouched path
decreasing_by
  have hsite := mem_freshSites.1 ‹_›
  exact untouched_lt (mem_freshCallers.2 ⟨List.mem_of_getElem? hsite.1, hsite.2⟩)

/-- The ends of the paths through one call. -/
def routesVia (ix : CallIndex) (kind : Option Kind) (path : List String)
    (site : CallEntry × Nat) : List (List Nat × Fate) :=
  match ix.takenUnder site.1.guards kind with
  | some fate => [([site.2], fate)]
  | none =>
    (ix.routesFrom kind (site.1.function :: path) site.1.function).map fun r => (site.2 :: r.1, r.2)

theorem exists_cons_of_mem_routesVia {site : CallEntry × Nat} {r : List Nat × Fate}
    (h : r ∈ ix.routesVia kind path site) : ∃ route, r.1 = site.2 :: route := by
  rw [routesVia] at h
  split at h
  next => exact ⟨[], by rw [List.mem_singleton.1 h]⟩
  next =>
    obtain ⟨r', -, rfl⟩ := List.mem_map.1 h
    exact ⟨r'.1, rfl⟩

theorem routesFrom_of_none (h : ix.freshCallers path f = []) :
    ix.routesFrom kind path f = [([], .escapes f)] := by
  rw [routesFrom, if_pos (by rw [h]; rfl)]

theorem routesFrom_of_fresh (h : ix.freshCallers path f ≠ []) :
    ix.routesFrom kind path f = (ix.freshSites path f).flatMap (ix.routesVia kind path) := by
  rw [routesFrom, if_neg (by rwa [List.isEmpty_iff]),
    List.flatMap_subtype (g := ix.routesVia kind path), List.unattach_attach]
  intro site _
  rfl

/-- The fates behind a call. -/
def fatesVia (ix : CallIndex) (kind : Option Kind) (path : List String) (c : CallEntry) :
    List Fate :=
  match ix.takenUnder c.guards kind with
  | some fate => [fate]
  | none => ix.fatesFrom kind (c.function :: path) c.function

theorem fatesFrom_of_fresh (h : ix.freshCallers path f ≠ []) :
    ix.fatesFrom kind path f = (ix.freshCallers path f).flatMap (ix.fatesVia kind path) := by
  rw [fatesFrom, if_neg (by rwa [List.isEmpty_iff]),
    List.flatMap_subtype (g := ix.fatesVia kind path), List.unattach_attach]
  intro c _
  rfl

theorem fresh_of_site {site : CallEntry × Nat} (h : site ∈ ix.freshSites path f) :
    site.1 ∈ ix.freshCallers path f :=
  map_freshSites path f ▸ List.mem_map_of_mem h

/-- Without the routes, what the walk finds are the fates. -/
theorem map_routesFrom (path : List String) (f : String) :
    (ix.routesFrom kind path f).map (·.2) = ix.fatesFrom kind path f := by
  by_cases hfresh : ix.freshCallers path f = []
  · rw [routesFrom_of_none hfresh, fatesFrom_of_none hfresh]
    rfl
  · rw [routesFrom_of_fresh hfresh, fatesFrom_of_fresh hfresh, ← map_freshSites, List.map_flatMap,
      List.flatMap_map, List.flatMap_def, List.flatMap_def]
    congr 1
    refine List.map_congr_left fun site hsite => ?_
    rw [routesVia, fatesVia]
    split
    next => rfl
    next =>
      rw [List.map_map]
      exact map_routesFrom (site.1.function :: path) site.1.function
termination_by ix.untouched path
decreasing_by exact untouched_lt (fresh_of_site hsite)

/-- The walk comes to the routes from left to right, so to none of them twice. -/
theorem pairwise_routesFrom (path : List String) (f : String) :
    (ix.routesFrom kind path f).Pairwise (List.Lex (· < ·) ·.1 ·.1) := by
  by_cases hfresh : ix.freshCallers path f = []
  · rw [routesFrom_of_none hfresh]
    exact List.pairwise_singleton _ _
  · rw [routesFrom_of_fresh hfresh, List.pairwise_flatMap]
    constructor
    · intro site hsite
      rw [routesVia]
      split
      next => exact List.pairwise_singleton _ _
      next =>
        rw [List.pairwise_map]
        exact (pairwise_routesFrom (site.1.function :: path) site.1.function).imp .cons
    · refine (pairwise_freshSites path f).imp fun hlt r hr r' hr' => ?_
      obtain ⟨_, hr⟩ := exists_cons_of_mem_routesVia hr
      obtain ⟨_, hr'⟩ := exists_cons_of_mem_routesVia hr'
      rw [hr, hr']
      exact .rel hlt
termination_by ix.untouched path
decreasing_by exact untouched_lt (fresh_of_site hsite)

theorem freshCallers_eq_nil :
    ix.freshCallers path f = [] ↔ ∀ d ∈ ix.callsTo f, d.function ∈ path := by
  simp only [freshCallers, List.filter_eq_nil_iff, decide_eq_true_eq, Classical.not_not]

theorem nil_mem_routesFrom {fate : Fate} :
    ([], fate) ∈ ix.routesFrom kind path f ↔
      (∀ d ∈ ix.callsTo f, d.function ∈ path) ∧ fate = .escapes f := by
  rw [← freshCallers_eq_nil]
  by_cases hfresh : ix.freshCallers path f = []
  · rw [routesFrom_of_none hfresh, List.mem_singleton, Prod.mk.injEq, and_iff_right rfl,
      and_iff_right hfresh]
  · rw [routesFrom_of_fresh hfresh, List.mem_flatMap]
    refine iff_of_false ?_ fun h => hfresh h.1
    rintro ⟨site, -, hmem⟩
    obtain ⟨_, hroute⟩ := exists_cons_of_mem_routesVia hmem
    cases hroute

theorem cons_mem_routesVia {site : CallEntry × Nat} {i : Nat} {route : List Nat} {fate : Fate} :
    (i :: route, fate) ∈ ix.routesVia kind path site ↔
      site.2 = i ∧ match ix.takenUnder site.1.guards kind with
        | some fate' => route = [] ∧ fate = fate'
        | none =>
          (route, fate) ∈ ix.routesFrom kind (site.1.function :: path) site.1.function := by
  rw [routesVia]
  split
  next fate' _ =>
    rw [List.mem_singleton, Prod.mk.injEq, List.cons.injEq, and_assoc, eq_comm]
  next =>
    rw [List.mem_map]
    constructor
    · rintro ⟨r, hr, heq⟩
      cases heq
      exact ⟨rfl, hr⟩
    · rintro ⟨rfl, hr⟩
      exact ⟨_, hr, rfl⟩

theorem cons_mem_routesFrom {i : Nat} {route : List Nat} {fate : Fate} :
    (i :: route, fate) ∈ ix.routesFrom kind path f ↔
      ∃ c, (ix.callsTo f)[i]? = some c ∧ c.function ∉ path ∧
        match ix.takenUnder c.guards kind with
        | some fate' => route = [] ∧ fate = fate'
        | none => (route, fate) ∈ ix.routesFrom kind (c.function :: path) c.function := by
  by_cases hfresh : ix.freshCallers path f = []
  · rw [routesFrom_of_none hfresh, List.mem_singleton]
    refine iff_of_false ?_ ?_
    · intro heq
      cases heq
    · rintro ⟨c, hc, hnew, -⟩
      exact hnew (freshCallers_eq_nil.1 hfresh c (List.mem_of_getElem? hc))
  · rw [routesFrom_of_fresh hfresh, List.mem_flatMap]
    constructor
    · rintro ⟨⟨c, _⟩, hsite, hmem⟩
      obtain ⟨rfl, hrest⟩ := cons_mem_routesVia.1 hmem
      obtain ⟨hc, hnew⟩ := mem_freshSites.1 hsite
      exact ⟨c, hc, hnew, hrest⟩
    · rintro ⟨c, hc, hnew, hmem⟩
      exact ⟨(c, i), mem_freshSites.2 ⟨hc, hnew⟩, cons_mem_routesVia.2 ⟨rfl, hmem⟩⟩

/-- The walk finds exactly the maximal chains. -/
theorem mem_routesFrom {path : List String} {f : String} {route : List Nat} {fate : Fate} :
    (route, fate) ∈ ix.routesFrom kind path f ↔ ix.MaximalChain kind path f route fate := by
  induction route generalizing path f with
  | nil => rw [nil_mem_routesFrom, maximalChain_nil]
  | cons i route ih =>
    rw [cons_mem_routesFrom, maximalChain_cons]
    simp only [ih]

end CallIndex

/-- If a clause around the place of a throw takes the payload, that is its only fate. Otherwise the
fates are those of the maximal chains from there, one for each, in the order of their routes. -/
theorem fates_of_maximal_chains (ix : CallIndex) (t : ThrowEntry) :
    (∀ fate, ix.takenUnder t.guards t.kind = some fate → (ix.fateTree t).fates = [fate]) ∧
    (ix.takenUnder t.guards t.kind = none → ∃ routes : List (List Nat × Fate),
      (∀ route fate, (route, fate) ∈ routes ↔
        ix.MaximalChain t.kind [] t.function route fate) ∧
      routes.Pairwise (List.Lex (· < ·) ·.1 ·.1) ∧
      (ix.fateTree t).fates = routes.map (·.2)) := by
  constructor
  · intro fate htakes
    simp only [CallIndex.fateTree, htakes]
  · intro hnone
    refine ⟨ix.routesFrom t.kind [] t.function, fun _ _ => CallIndex.mem_routesFrom,
      CallIndex.pairwise_routesFrom [] t.function, ?_⟩
    simp only [CallIndex.fateTree, hnone, CallIndex.map_routesFrom]

/-- A function that calls itself, and from two places the one that throws, one of them under a
clause. It is called from two places as well, so one fate comes up twice. -/
theorem fates_of_maximal_chains_twice :
    let site line : Location := { file := "loop.c", line, column := 1 }
    let ix := (Recorder.run {}
      [.enterFunction "f" (site 1), .throw (site 2) .int, .leaveFunction,
        .enterFunction "g" (site 3), .call "f" (site 4), .openRegion (site 5), .call "f" (site 6),
        .startClause (site 7) (.kind .int), .closeRegion, .call "g" (site 8), .leaveFunction,
        .enterFunction "main" (site 9), .call "g" (site 10), .call "g" (site 11),
        .leaveFunction]).1.index
    let t : ThrowEntry := ⟨"f", site 2, some .int, false, []⟩
    let fates : List Fate := [.escapes "main", .escapes "main", .taken 0 0 "g" (site 7)]
    t ∈ ix.throws ∧ ix.takenUnder t.guards t.kind = none ∧ (ix.fateTree t).fates = fates ∧
      ∃ routes : List (List Nat × Fate),
        (∀ route fate, (route, fate) ∈ routes ↔
          ix.MaximalChain t.kind [] t.function route fate) ∧
        routes.Pairwise (List.Lex (· < ·) ·.1 ·.1) ∧ fates = routes.map (·.2) := by
  intro site ix t fates
  have hnone : ix.takenUnder t.guards t.kind = none := by decide
  have hfates : (ix.fateTree t).fates = fates := by decide +kernel
  obtain ⟨routes, hmem, hsorted, hmap⟩ := (fates_of_maximal_chains ix t).2 hnone
  exact ⟨by decide, hnone, hfates, routes, hmem, hsorted, hfates.symm.trans hmap⟩

end Unwind
