import Mathlib.Data.List.Perm.Subperm
import Unwind.Proofs.MaximalChains
import Unwind.Proofs.RecorderState

/-!
# The shape of a fate tree

A fate tree and its fates come from two walks over the calls of an index. Both go the same way, so
the fates stand for the nodes without children, from left to right (`map_tips`). Since a function is
not entered twice on the way to a node (`Regular.distinct`), no way is longer than there are
functions, and a walk that does not know when to stop stops by itself (`walk?_eq`). Proofs about the
walk go by `walk_induction`. That a clause takes the payload in the function of the call it guards
is known of a recorded index only.
-/

namespace Unwind

/-- The function in which a payload ends up. -/
def Fate.function : Fate → String
  | .taken _ _ function _ => function
  | .escapes function => function

namespace PathNode

/-- The function and the place of a call. -/
def site (n : PathNode) : String × Location :=
  (n.function, n.loc)

/-- A way down a tree to the node `last`, with the nodes on it that are below the start. -/
inductive Descends : PathNode → List PathNode → PathNode → Prop where
  | here (n : PathNode) : Descends n [] n
  | down {n c last : PathNode} {way : List PathNode} :
    c ∈ n.children → Descends c way last → Descends n (c :: way) last

mutual

/-- The nodes without children, from left to right. -/
def tips : PathNode → List PathNode
  | .node function loc [] => [.node function loc []]
  | .node _ _ (c :: cs) => tipsOf (c :: cs)

def tipsOf : List PathNode → List PathNode
  | [] => []
  | n :: ns => n.tips ++ tipsOf ns

end

theorem tips_ne_nil : (n : PathNode) → n.tips ≠ []
  | .node _ _ [] => List.cons_ne_nil _ _
  | .node _ _ (c :: _) => List.append_ne_nil_of_left_ne_nil (tips_ne_nil c) _

theorem tipsOf_eq_flatMap (ns : List PathNode) : tipsOf ns = ns.flatMap tips := by
  induction ns with
  | nil => rfl
  | cons n ns ih => rw [tipsOf, ih, List.flatMap_cons]

theorem tips_of_children {function : String} {loc : Location} {ns : List PathNode} (h : ns ≠ []) :
    tips (.node function loc ns) = ns.flatMap tips := by
  cases ns with
  | nil => exact absurd rfl h
  | cons n ns => rw [tips, tipsOf_eq_flatMap]

end PathNode

namespace CallIndex

variable {ix : CallIndex} {kind : Option Kind} {path : List String} {f : String}

/-! ## The walk -/

/-- The node of a call, with all that comes behind it. -/
def nodeVia (ix : CallIndex) (kind : Option Kind) (path : List String) (c : CallEntry) : PathNode :=
  .node c.function c.loc <|
    match ix.takenUnder c.guards kind with
    | some _ => []
    | none => ix.pathsFrom kind (c.function :: path) c.function

theorem pathsFrom_eq (path : List String) (f : String) :
    ix.pathsFrom kind path f = (ix.freshCallers path f).map (ix.nodeVia kind path) := by
  rw [pathsFrom, List.map_subtype (g := ix.nodeVia kind path), List.unattach_attach]
  intro c _
  rfl

theorem nodeVia_of_taken {c : CallEntry} {fate : Fate}
    (h : ix.takenUnder c.guards kind = some fate) :
    ix.nodeVia kind path c = .node c.function c.loc [] := by
  simp only [nodeVia, h]

theorem nodeVia_of_none {c : CallEntry} (h : ix.takenUnder c.guards kind = none) :
    ix.nodeVia kind path c =
      .node c.function c.loc (ix.pathsFrom kind (c.function :: path) c.function) := by
  simp only [nodeVia, h]

/-- Induction along the walk, from the callers that are followed to the function that they call. -/
theorem walk_induction {motive : List String → String → Prop}
    (step : ∀ path f, (∀ c ∈ ix.freshCallers path f, motive (c.function :: path) c.function) →
      motive path f)
    (path : List String) (f : String) : motive path f :=
  step path f fun c _ => walk_induction step (c.function :: path) c.function
termination_by ix.untouched path
decreasing_by exact untouched_lt ‹_›

/-! ## Ways down -/

/-- What holds of a way down a tree that does not go through the functions of `path`. -/
structure Regular (ix : CallIndex) (path : List String) (way : List PathNode) (last : PathNode) :
    Prop where
  distinct : (way.map (·.function)).Nodup
  apart : ∀ n ∈ way, n.function ∉ path
  calling : ∀ n ∈ way, n.function ∈ ix.callerNames
  /-- The children of the last node are its callers that are not yet on the way, in order. -/
  children : last.children ≠ [] → last.children.map (·.site) =
    (ix.freshCallers (way.map (·.function) ++ path) last.function).map fun c => (c.function, c.loc)

theorem map_site_pathsFrom (path : List String) (f : String) :
    (ix.pathsFrom kind path f).map (·.site) =
      (ix.freshCallers path f).map fun c => (c.function, c.loc) := by
  rw [pathsFrom_eq, List.map_map]
  rfl

theorem freshCallers_congr {path' : List String} (h : ∀ g, g ∈ path ↔ g ∈ path') :
    ix.freshCallers path f = ix.freshCallers path' f := by
  refine List.filter_congr fun c _ => ?_
  simp only [h]

/-- A way that starts with a call. -/
theorem Regular.cons {way : List PathNode} {last : PathNode} {c : CallEntry}
    (hc : c ∈ ix.freshCallers path f) (h : ix.Regular (c.function :: path) way last) :
    ix.Regular path (ix.nodeVia kind path c :: way) last := by
  obtain ⟨hcall, hfresh⟩ := mem_freshCallers.1 hc
  have hfunction : (ix.nodeVia kind path c).function = c.function := rfl
  constructor
  · rw [List.map_cons, List.nodup_cons, hfunction]
    refine ⟨fun hmem => ?_, h.distinct⟩
    obtain ⟨n, hn, heq⟩ := List.mem_map.1 hmem
    exact h.apart n hn (heq ▸ List.mem_cons_self)
  · exact List.forall_mem_cons.2
      ⟨hfresh, fun n hn hmem => h.apart n hn (List.mem_cons_of_mem _ hmem)⟩
  · exact List.forall_mem_cons.2 ⟨mem_callerNames hcall, h.calling⟩
  · intro hchildren
    rw [h.children hchildren, List.map_cons, hfunction]
    congr 1
    refine freshCallers_congr fun g => ?_
    rw [List.mem_append, List.cons_append, List.mem_cons, List.mem_cons, List.mem_append]
    exact or_left_comm

theorem regular_of_descends {loc : Location} {way : List PathNode} {last : PathNode}
    (h : (PathNode.node f loc (ix.pathsFrom kind path f)).Descends way last) :
    ix.Regular path way last := by
  induction path, f using ix.walk_induction generalizing loc way with
  | step path f ih =>
    cases h with
    | here =>
      exact ⟨List.nodup_nil, List.forall_mem_nil _, List.forall_mem_nil _,
        fun _ => map_site_pathsFrom path f⟩
    | down hmem hrest =>
      change _ ∈ ix.pathsFrom kind path f at hmem
      rw [pathsFrom_eq] at hmem
      obtain ⟨c, hc, rfl⟩ := List.mem_map.1 hmem
      refine .cons hc ?_
      cases htakes : ix.takenUnder c.guards kind with
      | none =>
        rw [nodeVia_of_none htakes] at hrest
        exact ih c hc hrest
      | some fate =>
        rw [nodeVia_of_taken htakes] at hrest
        cases hrest with
        | here =>
          exact ⟨List.nodup_nil, List.forall_mem_nil _, List.forall_mem_nil _,
            fun hchildren => absurd rfl hchildren⟩
        | down hmem => cases hmem

/-! ## Recorded indexes -/

/-- A clause takes a payload in the function of the regions around the place. -/
theorem function_of_takenUnder {guards : List Nat} {fate : Fate} (hguards : ix.GuardsIn f guards)
    (h : ix.takenUnder guards kind = some fate) : fate.function = f := by
  obtain ⟨id, hid, htaken⟩ := List.exists_of_findSome?_eq_some h
  obtain ⟨e, he, hfunction⟩ := hguards.inside id (List.mem_reverse.1 hid)
  simp only [takenBy, he, Option.bind_eq_bind, Option.bind_some, Option.bind_eq_some_iff,
    Option.some.injEq] at htaken
  obtain ⟨i, -, clause, -, rfl⟩ := htaken
  exact hfunction

theorem callsTo_eq (ix : CallIndex) (f : String) : ix.callsTo f = (ix.entryOf f).callers := by
  rw [callsTo, entryOf, entryIn, function?]
  cases ix.functions.find? (·.name = f) <;> rfl

theorem mem_names_of_calls {c : CallEntry} (h : c ∈ (ix.entryOf f).calls) :
    f ∈ ix.functions.map (·.name) := by
  rw [entryOf, entryIn] at h
  cases hfind : ix.functions.find? (·.name = f) with
  | none =>
    rw [hfind] at h
    cases h
  | some e =>
    have hname : e.name = f := by simpa using List.find?_some hfind
    exact List.mem_map.2 ⟨e, List.mem_of_find?_eq_some hfind, hname⟩

/-- What calls a function is on record itself. -/
theorem Coherent.callerNames_subset (h : ix.Coherent) :
    ix.callerNames ⊆ ix.functions.map (·.name) := by
  intro name hname
  obtain ⟨e, he, hmem⟩ := List.mem_flatMap.1 hname
  obtain ⟨c, hc, rfl⟩ := List.mem_map.1 hmem
  have hcaller : c ∈ (ix.entryOf e.name).callers := by
    rw [← callsTo_eq, callsTo, h.function?_of_mem he]
    exact hc
  -- The call is on record at its other end as well.
  have hsites : (c.loc, c.guards) ∈ sitesWith e.name (ix.entryOf c.function).calls := by
    rw [h.mirrored]
    exact List.mem_map.2 ⟨c, List.mem_filter.2 ⟨hcaller, decide_eq_true rfl⟩, rfl⟩
  obtain ⟨c', hc', -⟩ := List.mem_map.1 hsites
  exact mem_names_of_calls (List.mem_filter.1 hc').1

theorem length_le_of_nodup (h : ix.Coherent) {names : List String} (hnodup : names.Nodup)
    (hsub : names ⊆ ix.callerNames) : names.length ≤ ix.functions.length := by
  have hle := (hnodup.subperm (List.Subset.trans hsub h.callerNames_subset)).length_le
  rwa [List.length_map] at hle

/-- The fates name the functions of the nodes without children. -/
theorem map_tips (ix : CallIndex) (h : ix.Coherent) (kind : Option Kind) (path : List String)
    (f : String) (loc : Location) :
    (PathNode.tips (.node f loc (ix.pathsFrom kind path f))).map (·.function) =
      (ix.fatesFrom kind path f).map (·.function) := by
  induction path, f using ix.walk_induction generalizing loc with
  | step path f ih =>
    rw [pathsFrom_eq]
    by_cases hfresh : ix.freshCallers path f = []
    · rw [fatesFrom_of_none hfresh, hfresh]
      rfl
    · rw [fatesFrom_of_fresh hfresh, PathNode.tips_of_children (by simpa using hfresh),
        List.flatMap_map, List.map_flatMap, List.map_flatMap]
      refine List.flatMap_congr fun c hc => ?_
      cases htakes : ix.takenUnder c.guards kind with
      | none =>
        rw [nodeVia_of_none htakes, fatesVia, htakes]
        exact ih c hc c.loc
      | some fate =>
        have hguards := h.callers f c (callsTo_eq ix f ▸ (mem_freshCallers.1 hc).1)
        rw [nodeVia_of_taken htakes, fatesVia, htakes, List.map_singleton,
          function_of_takenUnder hguards htakes]
        rfl

/-! ## The walk comes to an end -/

/-- The walk as it would go if nothing were known of its end. It is given up, without a result, when
it would follow more than a number of calls in a row. -/
def walk? (ix : CallIndex) (kind : Option Kind) :
    Nat → List String → String → Option (List PathNode × List Fate)
  | 0, _, _ => none
  | n + 1, path, f =>
    if (ix.freshCallers path f).isEmpty then
      some ([], [.escapes f])
    else do
      let parts ← (ix.freshCallers path f).mapM fun c =>
        match ix.takenUnder c.guards kind with
        | some fate => some (.node c.function c.loc [], [fate])
        | none => (ix.walk? kind n (c.function :: path) c.function).map fun (inner, fates) =>
            (.node c.function c.loc inner, fates)
      return (parts.map (·.1), parts.flatMap (·.2))

/-- The fate tree by that walk. -/
def fateTree? (ix : CallIndex) (limit : Nat) (t : ThrowEntry) : Option FateTree :=
  match ix.takenUnder t.guards t.kind with
  | some fate => some { root := .node t.function t.loc [], kind := t.kind, fates := [fate] }
  | none => (ix.walk? t.kind limit [] t.function).map fun (inner, fates) =>
      { root := .node t.function t.loc inner, kind := t.kind, fates }

theorem mapM_eq_some {α β : Type} {e : α → Option β} {g : α → β} {xs : List α}
    (h : ∀ x ∈ xs, e x = some (g x)) : xs.mapM e = some (xs.map g) := by
  induction xs with
  | nil => rfl
  | cons x xs ih =>
    rw [List.forall_mem_cons] at h
    rw [List.mapM_cons, h.1, ih h.2]
    rfl

/-- The walk ends by itself: a way has no function twice, so it has no more calls than there are
functions. -/
theorem walk?_eq (h : ix.Coherent) {limit : Nat} {path : List String} (hnodup : path.Nodup)
    (hsub : path ⊆ ix.callerNames) (hlimit : ix.functions.length < limit + path.length)
    (f : String) :
    ix.walk? kind limit path f = some (ix.pathsFrom kind path f, ix.fatesFrom kind path f) := by
  induction limit generalizing path f with
  | zero =>
    have := length_le_of_nodup h hnodup hsub
    omega
  | succ n ih =>
    rw [walk?]
    by_cases hfresh : ix.freshCallers path f = []
    · rw [if_pos (by rw [hfresh]; rfl), fatesFrom_of_none hfresh, pathsFrom_eq, hfresh]
      rfl
    · rw [if_neg (by rwa [List.isEmpty_iff]), fatesFrom_of_fresh hfresh, pathsFrom_eq,
        mapM_eq_some (g := fun c => (ix.nodeVia kind path c, ix.fatesVia kind path c))]
      · simp only [Option.bind_eq_bind, Option.bind_some, Option.pure_def, List.map_map,
          List.flatMap_map]
        rfl
      · intro c hc
        obtain ⟨hcall, hnew⟩ := mem_freshCallers.1 hc
        cases htakes : ix.takenUnder c.guards kind with
        | some fate => simp only [nodeVia_of_taken htakes, fatesVia, htakes]
        | none =>
          have hbehind := ih (List.nodup_cons.2 ⟨hnew, hnodup⟩)
            (List.cons_subset.2 ⟨mem_callerNames hcall, hsub⟩)
            (by rw [List.length_cons]; omega) c.function
          simp only [nodeVia_of_none htakes, fatesVia, htakes, hbehind, Option.map_some]

end CallIndex

/-- The shape of the fate tree of a throw in a recorded program. The walk that makes it comes to an
end, and on no way follows more calls than there are functions. On the way to a node no function
comes twice, the root apart, and the children of a node are its callers that are not on the way, in
the order in which they are on record. There is a fate, and the fates are those of the nodes without
children, from left to right: each is in the function of its node. -/
theorem fate_tree_shape (ops : List WalkOp) :
    let ix := (Recorder.run {} ops).1.index
    ∀ t ∈ ix.throws,
      ix.fateTree? (ix.functions.length + 1) t = some (ix.fateTree t) ∧
      (∀ way last, (ix.fateTree t).root.Descends way last →
        (way.map (·.function)).Nodup ∧
        way.length ≤ ix.functions.length ∧
        (last.children ≠ [] → last.children.map (·.site) =
          ((ix.callsTo last.function).filter (·.function ∉ way.map (·.function))).map
            fun c => (c.function, c.loc))) ∧
      (ix.fateTree t).fates ≠ [] ∧
      (ix.fateTree t).fates.map (·.function) =
        (ix.fateTree t).root.tips.map (·.function) := by
  intro ix t ht
  have h : ix.Coherent := (Recorder.Coherent.new.run ops).index
  cases htakes : ix.takenUnder t.guards t.kind with
  | some fate =>
    have htree : ix.fateTree t = ⟨.node t.function t.loc [], t.kind, [fate]⟩ := by
      simp only [CallIndex.fateTree, htakes]
    rw [CallIndex.fateTree?, htakes, htree, List.map_singleton,
      CallIndex.function_of_takenUnder (h.throws t ht) htakes]
    refine ⟨rfl, fun way last hway => ?_, List.cons_ne_nil _ _, rfl⟩
    cases hway with
    | here => exact ⟨List.nodup_nil, Nat.zero_le _, fun hchildren => absurd rfl hchildren⟩
    | down hmem => cases hmem
  | none =>
    have htree : ix.fateTree t = ⟨.node t.function t.loc (ix.pathsFrom t.kind [] t.function),
        t.kind, ix.fatesFrom t.kind [] t.function⟩ := by
      simp only [CallIndex.fateTree, htakes]
    have htips := ix.map_tips h t.kind [] t.function t.loc
    rw [CallIndex.fateTree?, htakes, htree]
    refine ⟨?_, fun way last hway => ?_, fun hnil => ?_, htips.symm⟩
    · simp only [CallIndex.walk?_eq h List.nodup_nil (List.nil_subset _)
        (Nat.lt_succ_self ix.functions.length) t.function, Option.map_some]
    · have hregular := CallIndex.regular_of_descends hway
      have hchildren := hregular.children
      have hcalling : way.map (·.function) ⊆ ix.callerNames :=
        List.forall_mem_map.2 hregular.calling
      have hle := CallIndex.length_le_of_nodup h hregular.distinct hcalling
      rw [List.length_map] at hle
      rw [List.append_nil] at hchildren
      exact ⟨hregular.distinct, hle, hchildren⟩
    · change ix.fatesFrom t.kind [] t.function = [] at hnil
      rw [hnil] at htips
      exact PathNode.tips_ne_nil _ (List.map_eq_nil_iff.1 htips)

/-- A function that throws and calls itself, called from two places, one of them under a clause. -/
theorem fate_tree_shape_recursive :
    let site line : Location := { file := "loop.c", line, column := 1 }
    let ops : List WalkOp :=
      [.enterFunction "f" (site 1), .throw (site 2) .int, .call "f" (site 3), .leaveFunction,
        .enterFunction "g" (site 4), .openRegion (site 5), .call "f" (site 6),
        .startClause (site 7) (.kind .int), .closeRegion, .call "f" (site 8), .leaveFunction,
        .enterFunction "main" (site 9), .call "g" (site 10), .leaveFunction]
    let ix := (Recorder.run {} ops).1.index
    let t : ThrowEntry := ⟨"f", site 2, some .int, false, []⟩
    let fates : List Fate :=
      [.taken 0 0 "g" (site 7), .escapes "main", .taken 0 0 "g" (site 7), .escapes "main"]
    t ∈ ix.throws ∧ (ix.fateTree t).fates = fates ∧
      ix.fateTree? 4 t = some (ix.fateTree t) ∧
      (∀ way last, (ix.fateTree t).root.Descends way last →
        (way.map (·.function)).Nodup ∧ way.length ≤ 3) ∧
      (ix.fateTree t).root.tips.map (·.function) = ["g", "main", "g", "main"] := by
  intro site ops ix t fates
  have ht : t ∈ ix.throws := by decide
  have hfates : (ix.fateTree t).fates = fates := by decide +kernel
  have hcount : ix.functions.length = 3 := by decide
  obtain ⟨hends, hways, -, htips⟩ := fate_tree_shape ops t ht
  rw [hcount] at hends
  refine ⟨ht, hfates, hends, fun way last hway => ?_, ?_⟩
  · obtain ⟨hnodup, hlength, -⟩ := hways way last hway
    exact ⟨hnodup, hcount ▸ hlength⟩
  · exact htips.symm.trans (congrArg (List.map (·.function)) hfates)

end Unwind
