import Unwind.Index.Recorder

/-!
# Outlines

The outline of a program is what an index shows of it: functions whose bodies are made of calls,
throws, rethrows and regions. `Outline.walk` lists the operations of a walk over an outline.

`Outline.layout` says, without a recorder, where everything in an outline stands: which regions
there are, in the order in which they open, and for every call, throw and rethrow the parts of
regions around it. An outline is well-formed if no function is declared twice, every region has a
clause and a catch-all only as its last, and no rethrow stands outside of all clauses.
-/

namespace Unwind

/-- A statement, as far as an index shows it. -/
inductive OutlineStmt where
  | call (callee : String) (loc : Location)
  | throw (loc : Location) (kind : Kind)
  | rethrow (loc : Location)
  | region (loc : Location) (body : List OutlineStmt)
    (clauses : List (RegionClause × List OutlineStmt))

structure OutlineFunction where
  name : String
  loc : Location
  body : List OutlineStmt

/-- A part of a region. -/
inductive Part where
  | body (region : Nat)
  | clause (region : Nat) (selector : Selector)

namespace Part

/-- The region that guards what stands in the part. -/
def guard? : Part → Option Nat
  | .body region => some region
  | .clause .. => none

/-- The selector of what is handled in the part. -/
def handles? : Part → Option Selector
  | .body _ => none
  | .clause _ selector => some selector

end Part

/-- A place in an outline. -/
structure Place where
  function : String
  /-- The parts of regions around the place, innermost first. -/
  around : List Part := []

namespace Place

def within (p : Place) (part : Part) : Place :=
  { p with around := part :: p.around }

/-- The regions whose bodies are around the place, outermost first. -/
def guards (p : Place) : List Nat :=
  (p.around.filterMap Part.guard?).reverse

/-- The selector of the innermost clause around the place. -/
def handled? (p : Place) : Option Selector :=
  p.around.findSome? Part.handles?

theorem handled?_isSome (p : Place) :
    p.handled?.isSome ↔ ∃ id selector, .clause id selector ∈ p.around := by
  rw [handled?, List.findSome?_isSome_iff]
  constructor
  · rintro ⟨part, hmem, hsome⟩
    cases part with
    | body => cases hsome
    | clause id selector => exact ⟨id, selector, hmem⟩
  · rintro ⟨id, selector, hmem⟩
    exact ⟨_, hmem, rfl⟩

end Place

/-- A statement that is not a region, with its place. -/
inductive OutlineSite where
  | call (p : Place) (callee : String) (loc : Location)
  | throw (p : Place) (loc : Location) (kind : Kind)
  | rethrow (p : Place) (loc : Location)

/-- The one kind of payload that a selector takes; none for a catch-all. -/
def Selector.kind? : Selector → Option Kind
  | .kind k => some k
  | .any => none

namespace OutlineSite

/-- What is known of a site at which something is thrown. -/
def throwEntry? : OutlineSite → Option ThrowEntry
  | .call .. => none
  | .throw p loc kind => some ⟨p.function, loc, some kind, false, p.guards⟩
  | .rethrow p loc => some ⟨p.function, loc, p.handled?.bind Selector.kind?, true, p.guards⟩

/-- A call that stands in the function `caller`. -/
def callFrom? (caller : String) : OutlineSite → Option CallEntry
  | .call p callee loc => if p.function = caller then some ⟨callee, loc, p.guards⟩ else none
  | _ => none

/-- A call of the function `callee`. -/
def callTo? (callee : String) : OutlineSite → Option CallEntry
  | .call p callee' loc => if callee' = callee then some ⟨p.function, loc, p.guards⟩ else none
  | _ => none

/-- The function `name` is at an end of a call. -/
def Mentions (name : String) : OutlineSite → Prop
  | .call p callee _ => name = callee ∨ name = p.function
  | _ => False

def WellFormed : OutlineSite → Prop
  | .rethrow p _ => ∃ id selector, .clause id selector ∈ p.around
  | _ => True

instance : DecidablePred WellFormed
  | .call .. | .throw .. => .isTrue trivial
  | .rethrow p _ => decidable_of_iff _ p.handled?_isSome

end OutlineSite

def RegionEntry.WellFormed (r : RegionEntry) : Prop :=
  r.clauses ≠ [] ∧ ∀ c ∈ r.clauses.dropLast, c.selector ≠ .any

instance : DecidablePred RegionEntry.WellFormed :=
  fun _ => inferInstanceAs (Decidable (_ ∧ _))

/-- The regions of some text in the order in which they open, and its sites in order. -/
structure Layout where
  regions : List RegionEntry := []
  sites : List OutlineSite := []

namespace Layout

instance : Append Layout :=
  ⟨fun L L' => ⟨L.regions ++ L'.regions, L.sites ++ L'.sites⟩⟩

def ofRegion (r : RegionEntry) : Layout :=
  { regions := [r] }

def ofSite (s : OutlineSite) : Layout :=
  { sites := [s] }

def WellFormed (L : Layout) : Prop :=
  (∀ r ∈ L.regions, r.WellFormed) ∧ ∀ s ∈ L.sites, s.WellFormed

instance : DecidablePred WellFormed :=
  fun _ => inferInstanceAs (Decidable (_ ∧ _))

variable (L L' : Layout)

@[simp] theorem append_regions : (L ++ L').regions = L.regions ++ L'.regions := rfl

@[simp] theorem append_sites : (L ++ L').sites = L.sites ++ L'.sites := rfl

theorem wellFormed_append : (L ++ L').WellFormed ↔ L.WellFormed ∧ L'.WellFormed := by
  simp only [WellFormed, append_regions, append_sites, List.forall_mem_append]
  exact and_and_and_comm

theorem wellFormed_ofRegion {r : RegionEntry} : (ofRegion r).WellFormed ↔ r.WellFormed := by
  simp [WellFormed, ofRegion]

theorem wellFormed_ofSite {s : OutlineSite} : (ofSite s).WellFormed ↔ s.WellFormed := by
  simp [WellFormed, ofSite]

end Layout

namespace OutlineStmt

mutual

/-- The operations of a walk over a statement. -/
def walk : OutlineStmt → List WalkOp
  | .call callee loc => [.call callee loc]
  | .throw loc kind => [.throw loc kind]
  | .rethrow loc => [.rethrow loc]
  | .region loc body clauses =>
    .openRegion loc :: (walkBody body ++ (walkClauses clauses ++ [.closeRegion]))

def walkBody : List OutlineStmt → List WalkOp
  | [] => []
  | s :: rest => s.walk ++ walkBody rest

def walkClauses : List (RegionClause × List OutlineStmt) → List WalkOp
  | [] => []
  | (c, body) :: rest => .startClause c.loc c.selector :: (walkBody body ++ walkClauses rest)

end

mutual

/-- The layout of a statement at a place, where `next` is the number of the next region. -/
def layout : OutlineStmt → Place → (next : Nat) → Layout
  | .call callee loc, p, _ => .ofSite (.call p callee loc)
  | .throw loc kind, p, _ => .ofSite (.throw p loc kind)
  | .rethrow loc, p, _ => .ofSite (.rethrow p loc)
  | .region loc body clauses, p, next =>
    let inBody := layoutBody body (p.within (.body next)) (next + 1)
    .ofRegion ⟨next, loc, p.function, clauses.map Prod.fst⟩ ++ inBody ++
      layoutClauses clauses p next (next + 1 + inBody.regions.length)

def layoutBody : List OutlineStmt → Place → (next : Nat) → Layout
  | [], _, _ => {}
  | s :: rest, p, next =>
    let first := s.layout p next
    first ++ layoutBody rest p (next + first.regions.length)

/-- The layout of the clauses of region `id`, which stands at a place. -/
def layoutClauses : List (RegionClause × List OutlineStmt) → Place → (id next : Nat) → Layout
  | [], _, _, _ => {}
  | (c, body) :: rest, p, id, next =>
    let first := layoutBody body (p.within (.clause id c.selector)) next
    first ++ layoutClauses rest p id (next + first.regions.length)

end

end OutlineStmt

def OutlineFunction.walk (f : OutlineFunction) : List WalkOp :=
  .enterFunction f.name f.loc :: (OutlineStmt.walkBody f.body ++ [.leaveFunction])

def OutlineFunction.layout (f : OutlineFunction) (next : Nat) : Layout :=
  OutlineStmt.layoutBody f.body { function := f.name } next

abbrev Outline := List OutlineFunction

namespace Outline

def walk : Outline → List WalkOp
  | [] => []
  | f :: rest => f.walk ++ walk rest

def layout : Outline → (next : Nat) → Layout
  | [], _ => {}
  | f :: rest, next =>
    let first := f.layout next
    first ++ layout rest (next + first.regions.length)

structure WellFormed (fns : Outline) : Prop where
  distinct : (fns.map (·.name)).Nodup
  layout : (fns.layout 0).WellFormed

instance : DecidablePred WellFormed :=
  fun _ => decidable_of_iff _ ⟨fun ⟨h, h'⟩ => ⟨h, h'⟩, fun ⟨h, h'⟩ => And.intro h h'⟩

end Outline

/-! ## Numbers of regions -/

/-- The regions are numbered through, from `next` on. -/
def Layout.NumberedFrom (L : Layout) (next : Nat) : Prop :=
  L.regions.map (·.id) = List.range' next L.regions.length

namespace Layout.NumberedFrom

variable {L L' : Layout} {next : Nat}

theorem empty : NumberedFrom {} next := rfl

theorem ofSite (s : OutlineSite) : NumberedFrom (.ofSite s) next := rfl

theorem append (h : L.NumberedFrom next) (h' : L'.NumberedFrom (next + L.regions.length)) :
    (L ++ L').NumberedFrom next := by
  unfold NumberedFrom at *
  rw [append_regions, List.map_append, h, h', List.length_append, ← List.range'_append_1]

end Layout.NumberedFrom

namespace OutlineStmt

mutual

theorem layout_numberedFrom (s : OutlineStmt) (p : Place) (next : Nat) :
    (s.layout p next).NumberedFrom next := by
  cases s with
  | call | throw | rethrow => exact .ofSite _
  | region loc body clauses =>
    have hregion :
        (Layout.ofRegion ⟨next, loc, p.function, clauses.map Prod.fst⟩).NumberedFrom next := rfl
    have hbody := hregion.append (layoutBody_numberedFrom body (p.within (.body next)) (next + 1))
    refine hbody.append ?_
    rw [Layout.append_regions, List.length_append, ← Nat.add_assoc]
    exact layoutClauses_numberedFrom clauses p next _

theorem layoutBody_numberedFrom (body : List OutlineStmt) (p : Place) (next : Nat) :
    (layoutBody body p next).NumberedFrom next := by
  cases body with
  | nil => exact .empty
  | cons s rest =>
    exact (layout_numberedFrom s p next).append (layoutBody_numberedFrom rest p _)

theorem layoutClauses_numberedFrom (clauses : List (RegionClause × List OutlineStmt)) (p : Place)
    (id next : Nat) : (layoutClauses clauses p id next).NumberedFrom next := by
  match clauses with
  | [] => exact .empty
  | (_, body) :: rest =>
    exact (layoutBody_numberedFrom body _ next).append (layoutClauses_numberedFrom rest p id _)

end

end OutlineStmt

theorem Outline.layout_numberedFrom (fns : Outline) (next : Nat) :
    (fns.layout next).NumberedFrom next := by
  induction fns generalizing next with
  | nil => exact .empty
  | cons f rest ih => exact (OutlineStmt.layoutBody_numberedFrom f.body _ next).append (ih _)

end Unwind
