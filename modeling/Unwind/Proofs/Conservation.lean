import Unwind.Proofs.StackLemmas

/-!
# Stacks in free use

A call stack need not be used by scopes. Frames may be pushed and popped in any order, and a mark
may be returned to at any time after it was taken, when its frame is gone or another one stands in
its place. Still all that is held is one pile over the frames: a resource is put on top of it, and
only the resource on top is ever released (`Piles`). `StackHistory.step?_piles` says so of one
operation and `StackHistory.run?_piles` of any number of them.
-/

namespace Unwind

variable {ρ : Type}

/-! ## Piles -/

/-- Something done with a resource, and the function in whose frame it is held. -/
inductive StackDeed (ρ : Type) where
  | defer (held : Release ρ)
  /-- The release callback runs. -/
  | release (held : Release ρ)

namespace StackDeed

def deferred? : StackDeed ρ → Option (Release ρ)
  | .defer held => some held
  | .release _ => none

def released? : StackDeed ρ → Option (Release ρ)
  | .defer _ => none
  | .release held => some held

@[simp] theorem filterMap_released?_release (released : List (Release ρ)) :
    (released.map StackDeed.release).filterMap released? = released := by
  rw [List.filterMap_map]
  exact List.filterMap_some

end StackDeed

/-- What is done with resources, from one pile of them to another, the newest on top. A resource
that is deferred comes on top, and a release is of the resource on top. -/
inductive Piles : List (Release ρ) → List (StackDeed ρ) → List (Release ρ) → Prop where
  | nil {pile : List (Release ρ)} : Piles pile [] pile
  | defer {r : Release ρ} {pile pile' : List (Release ρ)} {rest : List (StackDeed ρ)} :
    Piles (r :: pile) rest pile' → Piles pile (.defer r :: rest) pile'
  | release {r : Release ρ} {pile pile' : List (Release ρ)} {rest : List (StackDeed ρ)} :
    Piles pile rest pile' → Piles (r :: pile) (.release r :: rest) pile'

namespace Piles

variable {pile pile' pile'' : List (Release ρ)} {deeds deeds' : List (StackDeed ρ)}

theorem append (h : Piles pile deeds pile') (h' : Piles pile' deeds' pile'') :
    Piles pile (deeds ++ deeds') pile'' := by
  induction h with
  | nil => exact h'
  | defer _ ih => exact .defer (ih h')
  | release _ ih => exact .release (ih h')

/-- The newest resources are released, one after the other. -/
theorem releasing (newest pile : List (Release ρ)) :
    Piles (newest ++ pile) (newest.map .release) pile := by
  induction newest with
  | nil => exact .nil
  | cons r _ ih => exact .release ih

/-- What was on the pile or is put on it is released or still there. -/
theorem perm (h : Piles pile deeds pile') :
    (pile ++ deeds.filterMap StackDeed.deferred?).Perm
      (deeds.filterMap StackDeed.released? ++ pile') := by
  induction h with
  | @nil pile =>
    rw [List.filterMap_nil, List.filterMap_nil, List.append_nil]
    exact .refl pile
  | @defer r _ _ rest _ ih =>
    have hdeferred : (StackDeed.defer r :: rest).filterMap StackDeed.deferred? =
        r :: rest.filterMap StackDeed.deferred? := rfl
    rw [hdeferred]
    exact List.perm_middle.trans ih
  | release _ ih => exact ih.cons _

end Piles

/-! ## One operation -/

namespace CallStack

variable (s : CallStack ρ)

theorem pop_drain : s.pop.released ++ s.pop.stack.drain = s.drain := by
  obtain ⟨top, below⟩ := s
  cases below <;> rfl

/-- The resources of the frames, the outermost frame and its oldest resource first, are given up
from the last to the first. -/
theorem drain_eq_reverse :
    s.drain.map (·.resource) = (s.frames.flatMap Frame.resources).reverse := by
  rw [drain_resources, frames, List.reverse_flatMap, List.reverse_reverse, resources]
  congr 1
  funext f
  exact f.held.reverse_reverse.symm

/-- The name of the outermost frame. -/
def bottomName : String :=
  (s.below.getLast?.getD s.top).name

theorem frames_head? : s.frames.head?.map (·.name) = some s.bottomName := by
  rw [frames, List.head?_reverse, List.getLast?_cons]
  rfl

theorem bottomName_push (name : String) : (s.push name).bottomName = s.bottomName := by
  simp only [bottomName, push, List.getLast?_cons, Option.getD_some]

/-- What the top frame holds does not matter. -/
theorem bottomName_setHeld (held : List ρ) :
    bottomName { s with top := { s.top with held } } = s.bottomName := by
  obtain ⟨top, below⟩ := s
  cases below with
  | nil => rfl
  | cons next rest => simp only [bottomName, List.getLast?_cons, Option.getD_some]

theorem bottomName_pop : s.pop.stack.bottomName = s.bottomName := by
  obtain ⟨top, below⟩ := s
  cases below with
  | nil => rfl
  | cons next rest => simp only [pop, bottomName, List.getLast?_cons, Option.getD_some]

theorem bottomName_popFrames (depth : Nat) (top : Frame ρ) (below : List (Frame ρ)) :
    (popFrames depth top below).stack.bottomName = bottomName { top, below } := by
  induction below generalizing top with
  | nil => rfl
  | cons next rest ih =>
    rw [popFrames]
    split
    · rfl
    · refine (ih next).trans ?_
      simp only [bottomName, List.getLast?_cons, Option.getD_some]

theorem bottomName_returnTo (mark : Mark) : (s.returnTo mark).stack.bottomName = s.bottomName := by
  have hpopped : (s.popTo mark.depth).stack.bottomName = s.bottomName :=
    bottomName_popFrames mark.depth s.top s.below
  simp only [returnTo]
  split
  · exact (bottomName_setHeld _ _).trans hpopped
  · exact hpopped

theorem depth_pop : s.pop.stack.depth = max 1 (s.depth - 1) := by
  obtain ⟨top, below⟩ := s
  cases below with
  | nil => rfl
  | cons next rest =>
    simp only [pop, depth, List.length_cons]
    omega

theorem depth_popFrames (d : Nat) (top : Frame ρ) (below : List (Frame ρ)) :
    (popFrames d top below).stack.depth = min (depth { top, below }) (max 1 d) := by
  induction below generalizing top with
  | nil =>
    simp only [popFrames, depth, List.length_nil]
    omega
  | cons next rest ih =>
    rw [popFrames]
    split
    next hlt =>
      simp only [depth, List.length_cons] at hlt ⊢
      omega
    next hle =>
      rw [ih next]
      simp only [depth, List.length_cons] at hle ⊢
      omega

theorem depth_returnTo (mark : Mark) :
    (s.returnTo mark).stack.depth = min s.depth (max 1 mark.depth) := by
  rw [← show (s.popTo mark.depth).stack.depth = _ from depth_popFrames mark.depth s.top s.below]
  simp only [returnTo]
  split <;> rfl

/-- Where the marked depth is reached, no more is held in the top frame than at the mark. -/
theorem held_returnTo {mark : Mark} (hdepth : (s.returnTo mark).stack.depth = mark.depth) :
    (s.returnTo mark).stack.top.held.length ≤ mark.held := by
  revert hdepth
  simp only [returnTo]
  split
  · intro _
    simp only [trimTo, Frame.keepOldest, List.length_drop]
    omega
  next hne => exact fun hdepth => absurd hdepth hne

end CallStack

/-- What an operation does with resources, given what it releases. -/
def StackOp.deeds (op : StackOp ρ) (before : CallStack ρ) (released : List (Release ρ)) :
    List (StackDeed ρ) :=
  match op with
  | .defer resource => [.defer ⟨before.topName, resource⟩]
  | _ => released.map .release

/-- Whether an operation is one that releases, and so returns a count. -/
def StackOp.tearsDown : StackOp ρ → Bool
  | .pop | .returnTo _ => true
  | .push _ | .defer _ | .mark _ => false

/-- How far an operation builds the stack up or tears it down. -/
def StackOp.Reaches (h h' : StackHistory ρ) : StackOp ρ → Prop
  | .push _ => h'.stack.depth = h.stack.depth + 1
  | .pop => h'.stack.depth = max 1 (h.stack.depth - 1)
  | .defer _ | .mark _ => h'.stack.depth = h.stack.depth
  | .returnTo slot => ∀ mark, h.marks.lookup slot = some mark →
    h'.stack.depth = min h.stack.depth (max 1 mark.depth) ∧
    (h'.stack.depth = mark.depth → h'.stack.top.held.length ≤ mark.held)

namespace StackHistory

variable {h h' : StackHistory ρ} {op : StackOp ρ} {released : List (Release ρ)}

/-- There must be a mark to return to. -/
theorem step?_returnTo {slot : String} :
    h.step? (.returnTo slot) = some (released, h') ↔
      ∃ mark, h.marks.lookup slot = some mark ∧ released = (h.stack.returnTo mark).released ∧
        h' = { h with stack := (h.stack.returnTo mark).stack } := by
  rw [step?, Option.map_eq_some_iff]
  constructor
  · rintro ⟨mark, hmark, heq⟩
    cases heq
    exact ⟨mark, hmark, rfl, rfl⟩
  · rintro ⟨mark, hmark, rfl, rfl⟩
    exact ⟨mark, hmark, rfl⟩

/-- What the frames hold is one pile for each operation. -/
theorem step?_piles (hstep : h.step? op = some (released, h')) :
    Piles h.stack.drain (op.deeds h.stack released) h'.stack.drain := by
  cases op with
  | push | mark =>
    cases hstep
    exact .nil
  | defer resource =>
    cases hstep
    exact .defer .nil
  | pop =>
    cases hstep
    rw [← h.stack.pop_drain]
    exact .releasing _ _
  | returnTo slot =>
    obtain ⟨mark, -, rfl, rfl⟩ := step?_returnTo.1 hstep
    rw [← h.stack.returnTo_drain mark]
    exact .releasing _ _

theorem step?_bottomName (hstep : h.step? op = some (released, h')) :
    h'.stack.bottomName = h.stack.bottomName := by
  cases op with
  | push name =>
    cases hstep
    exact h.stack.bottomName_push name
  | mark =>
    cases hstep
    rfl
  | defer resource =>
    cases hstep
    exact h.stack.bottomName_setHeld _
  | pop =>
    cases hstep
    exact h.stack.bottomName_pop
  | returnTo slot =>
    obtain ⟨mark, -, rfl, rfl⟩ := step?_returnTo.1 hstep
    exact h.stack.bottomName_returnTo mark

theorem step?_reaches (hstep : h.step? op = some (released, h')) : op.Reaches h h' := by
  cases op with
  | push | defer | mark =>
    cases hstep
    rfl
  | pop =>
    cases hstep
    exact h.stack.depth_pop
  | returnTo slot =>
    obtain ⟨mark, hmark, rfl, rfl⟩ := step?_returnTo.1 hstep
    intro mark' hmark'
    rw [hmark] at hmark'
    cases hmark'
    exact ⟨h.stack.depth_returnTo mark, h.stack.held_returnTo⟩

/-- An operation counts the callbacks that it runs. -/
theorem step?_count (hstep : h.step? op = some (released, h')) (hop : op.tearsDown = true) :
    h.count? op =
      some ((op.deeds h.stack released).filterMap StackDeed.released?).length := by
  cases op with
  | push | defer | mark => cases hop
  | pop =>
    cases hstep
    refine congrArg some (h.stack.pop_count.trans ?_)
    exact congrArg List.length (StackDeed.filterMap_released?_release _).symm
  | returnTo slot =>
    obtain ⟨mark, hmark, rfl, rfl⟩ := step?_returnTo.1 hstep
    rw [count?, hmark]
    refine congrArg some ((h.stack.returnTo_count mark).trans ?_)
    exact congrArg List.length (StackDeed.filterMap_released?_release _).symm

end StackHistory

/-! ## Any number of operations -/

namespace StackHistory

/-- A new stack, with no marks taken. -/
def new (root : String) : StackHistory ρ :=
  { stack := .ofRoot root }

/-- Do operations one after the other. -/
def run? (h : StackHistory ρ) : List (StackOp ρ) → Option (List (StackDeed ρ) × StackHistory ρ)
  | [] => some ([], h)
  | op :: ops =>
    (h.step? op).bind fun (released, next) =>
      (next.run? ops).map fun (deeds, last) => (op.deeds h.stack released ++ deeds, last)

/-- Only marks that were taken before are returned to, `slots` being the names under which marks are
saved. -/
def ReturnsToTaken : (slots : List String) → List (StackOp ρ) → Prop
  | _, [] => True
  | slots, .mark slot :: ops => ReturnsToTaken (slot :: slots) ops
  | slots, .returnTo slot :: ops => slot ∈ slots ∧ ReturnsToTaken slots ops
  | slots, _ :: ops => ReturnsToTaken slots ops

variable {h h' : StackHistory ρ} {deeds : List (StackDeed ρ)}

theorem run?_cons {op : StackOp ρ} {ops : List (StackOp ρ)}
    (hrun : h.run? (op :: ops) = some (deeds, h')) :
    ∃ released next later, h.step? op = some (released, next) ∧
      next.run? ops = some (later, h') ∧ deeds = op.deeds h.stack released ++ later := by
  obtain ⟨⟨released, next⟩, hstep, hrest⟩ := Option.bind_eq_some_iff.1 hrun
  obtain ⟨⟨later, last⟩, hlater, heq⟩ := Option.map_eq_some_iff.1 hrest
  cases heq
  exact ⟨released, next, later, hstep, hlater, rfl⟩

theorem run?_piles {ops : List (StackOp ρ)} (hrun : h.run? ops = some (deeds, h')) :
    Piles h.stack.drain deeds h'.stack.drain ∧ h'.stack.bottomName = h.stack.bottomName := by
  induction ops generalizing h deeds with
  | nil =>
    cases hrun
    exact ⟨.nil, rfl⟩
  | cons op ops ih =>
    obtain ⟨released, next, later, hstep, hlater, rfl⟩ := run?_cons hrun
    obtain ⟨hpiles, hbottom⟩ := ih hlater
    exact ⟨(step?_piles hstep).append hpiles, hbottom.trans (step?_bottomName hstep)⟩

theorem exists_mark {slot : String} (hslot : slot ∈ h.marks.map (·.1)) :
    ∃ mark, h.marks.lookup slot = some mark := by
  obtain ⟨entry, hentry, rfl⟩ := List.mem_map.1 hslot
  apply Option.isSome_iff_exists.1
  exact List.lookup_isSome_iff.2 ⟨entry, hentry, beq_self_eq_true _⟩

/-- Every sequence of operations can be done that returns only to marks taken before. -/
theorem exists_run? {ops : List (StackOp ρ)} (hops : ReturnsToTaken (h.marks.map (·.1)) ops) :
    ∃ deeds h', h.run? ops = some (deeds, h') := by
  induction ops generalizing h with
  | nil => exact ⟨_, _, rfl⟩
  | cons op ops ih =>
    have hnext : ∃ released next, h.step? op = some (released, next) ∧
        ReturnsToTaken (next.marks.map (·.1)) ops := by
      cases op with
      | push | pop | defer | mark => exact ⟨_, _, rfl, hops⟩
      | returnTo slot =>
        obtain ⟨hslot, hops⟩ := hops
        obtain ⟨mark, hmark⟩ := exists_mark hslot
        exact ⟨_, _, step?_returnTo.2 ⟨mark, hmark, rfl, rfl⟩, hops⟩
    obtain ⟨released, next, hstep, hops⟩ := hnext
    obtain ⟨later, last, hlater⟩ := ih hops
    refine ⟨op.deeds h.stack released ++ later, last, ?_⟩
    simp only [run?, hstep, Option.bind_some, hlater, Option.map_some]

end StackHistory

open StackHistory

/-- However a stack is used, what its frames hold is one pile.

Take any operations that return only to marks taken before, however stale these are by then. After
them there is a frame and the outermost one is the root. What was deferred is either released or
still held, and nothing is released twice. Every release is of the newest resource that is held
anywhere on the stack at that moment, and when the stack is given up, all that is still held is
released in this way, from the innermost frame to the outermost and the newest first. The count that
a pop or a return gives back is the number of callbacks that it runs, and as many resources are then
missing from the stack. A pop takes one frame away unless it is the only one, and a return takes
away all that is beyond the mark. -/
theorem stack_is_one_pile (root : String) {ops : List (StackOp ρ)}
    (hops : ReturnsToTaken [] ops) :
    ∃ deeds h, (new root).run? ops = some (deeds, h) ∧
      1 ≤ h.stack.depth ∧
      h.stack.frames.head?.map (·.name) = some root ∧
      (deeds.filterMap StackDeed.deferred?).Perm
        (deeds.filterMap StackDeed.released? ++ h.stack.drain) ∧
      ((deeds.filterMap StackDeed.deferred?).Nodup →
        (deeds.filterMap StackDeed.released? ++ h.stack.drain).Nodup) ∧
      Piles [] deeds h.stack.drain ∧
      Piles [] (deeds ++ h.stack.drain.map .release) [] ∧
      h.stack.drain.map (·.resource) = (h.stack.frames.flatMap Frame.resources).reverse ∧
      ∀ op released h', h.step? op = some (released, h') →
        Piles h.stack.drain (op.deeds h.stack released) h'.stack.drain ∧
        (op.tearsDown = true → h.count? op =
          some ((op.deeds h.stack released).filterMap StackDeed.released?).length) ∧
        h.stack.drain.length + ((op.deeds h.stack released).filterMap StackDeed.deferred?).length =
          ((op.deeds h.stack released).filterMap StackDeed.released?).length +
            h'.stack.drain.length ∧
        op.Reaches h h' := by
  obtain ⟨deeds, h, hrun⟩ := exists_run? (h := new root) hops
  obtain ⟨hpiles, hbottom⟩ : Piles [] deeds h.stack.drain ∧ h.stack.bottomName = root :=
    run?_piles hrun
  have hperm := hpiles.perm
  have hgiven : Piles h.stack.drain (h.stack.drain.map .release) [] := by
    have hall := Piles.releasing h.stack.drain []
    rwa [List.append_nil] at hall
  refine ⟨deeds, h, hrun, Nat.le_add_left 1 _, ?_, hperm, hperm.nodup, hpiles,
    hpiles.append hgiven, h.stack.drain_eq_reverse, fun op released h' hstep => ?_⟩
  · rw [h.stack.frames_head?, hbottom]
  · have hpile := step?_piles hstep
    have hlength := hpile.perm.length_eq
    rw [List.length_append, List.length_append] at hlength
    exact ⟨hpile, step?_count hstep, hlength, step?_reaches hstep⟩

/-- A mark is returned to when another frame stands at its depth, and again when none does. -/
theorem stack_is_one_pile_stale :
    let ops : List (StackOp String) :=
      [.defer "a", .push "f", .defer "b", .defer "c", .mark "m", .pop, .push "g", .defer "d",
        .defer "e", .defer "x", .returnTo "m", .pop, .returnTo "m"]
    ReturnsToTaken [] ops ∧
    ∃ deeds h, (new "r").run? ops = some (deeds, h) ∧
      deeds.filterMap StackDeed.released? =
        [⟨"f", "c"⟩, ⟨"f", "b"⟩, ⟨"g", "x"⟩, ⟨"g", "e"⟩, ⟨"g", "d"⟩] ∧
      h.stack.drain = [⟨"r", "a"⟩] ∧
      Piles [] (deeds ++ h.stack.drain.map .release) [] := by
  intro ops
  have hops : ReturnsToTaken [] ops := ⟨List.mem_cons_self, List.mem_cons_self, trivial⟩
  obtain ⟨deeds, h, hrun, -, -, -, -, -, hall, -⟩ := stack_is_one_pile "r" hops
  refine ⟨hops, deeds, h, hrun, ?_⟩
  cases hrun
  exact ⟨rfl, rfl, hall⟩

end Unwind
