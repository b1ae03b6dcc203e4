import Unwind.Stack

/-!
# Scopes on a call stack

While a scope runs, the stack below it stays as it was and its own frame only takes on resources
(`CallStack.acquire`). Leaving the scope gives back exactly these: a call pops its one frame
(`popTo_push_acquire`), a region returns to its mark (`returnTo_mark_acquire`).
-/

namespace Unwind.CallStack

variable {ρ : Type} (s : CallStack ρ)

/-- Give the top frame resources, the newest first. -/
def acquire (resources : List ρ) : CallStack ρ :=
  { s with top := { s.top with held := resources ++ s.top.held } }

@[simp] theorem acquire_nil : s.acquire [] = s := rfl

@[simp] theorem acquire_acquire (older newer : List ρ) :
    (s.acquire older).acquire newer = s.acquire (newer ++ older) := by
  simp [acquire]

@[simp] theorem acquire_top_held (resources : List ρ) :
    (s.acquire resources).top.held = resources ++ s.top.held := rfl

@[simp] theorem topName_acquire (resources : List ρ) :
    (s.acquire resources).topName = s.topName := rfl

theorem popFrames_of_lt {depth : Nat} {top : Frame ρ} {below : List (Frame ρ)}
    (h : below.length < depth) : popFrames depth top below = ⟨[], 0, { top, below }⟩ := by
  cases below with
  | nil => rfl
  | cons next rest => rw [popFrames, if_pos h]

theorem popTo_depth : s.popTo s.depth = ⟨[], 0, s⟩ :=
  popFrames_of_lt (Nat.lt_succ_self _)

/-- A frame that was pushed and has taken on resources is the only one popped. -/
theorem popTo_push_acquire (name : String) (resources : List ρ) :
    ((s.push name).acquire resources).popTo s.depth =
      ⟨resources.map (⟨name, ·⟩), resources.length, s⟩ := by
  have hlen : ¬ (s.top :: s.below).length < s.depth := Nat.lt_irrefl _
  have hrest : popFrames s.depth s.top s.below = ⟨[], 0, s⟩ := s.popTo_depth
  change popFrames s.depth { name, held := resources ++ [] } (s.top :: s.below) = _
  rw [popFrames, if_neg hlen, hrest]
  simp [Frame.releases]

/-- The loop that ends a call pops one frame. -/
theorem popTo_eq_pop (name : String) (resources : List ρ) :
    ((s.push name).acquire resources).popTo s.depth = ((s.push name).acquire resources).pop := by
  rw [popTo_push_acquire]
  simp [pop, push, acquire, Frame.releases]

/-- Only what was acquired after a mark is released on the return to it. -/
theorem returnTo_mark_acquire (resources : List ρ) :
    (s.acquire resources).returnTo s.mark =
      ⟨resources.map (⟨s.topName, ·⟩), resources.length, s⟩ := by
  have hpop : (s.acquire resources).popTo s.mark.depth = ⟨[], 0, s.acquire resources⟩ :=
    (s.acquire resources).popTo_depth
  have hheld : (s.acquire resources).top.held.length - s.mark.held = resources.length := by
    simp [mark]
  have hdepth : (s.acquire resources).depth = s.mark.depth := rfl
  rw [returnTo, hpop, if_pos hdepth, trimTo, Frame.releasesTo, Frame.keepOldest, hheld]
  simp [acquire, topName]

/-! ## Counts

What an operation counts as it goes is the number of its releases. -/

theorem pop_count : s.pop.count = s.pop.released.length := by
  obtain ⟨top, below⟩ := s
  cases below with
  | nil => rfl
  | cons next rest => exact (List.length_map _).symm

theorem popFrames_count (depth : Nat) (top : Frame ρ) (below : List (Frame ρ)) :
    (popFrames depth top below).count = (popFrames depth top below).released.length := by
  induction below generalizing top with
  | nil => rfl
  | cons next rest ih =>
    rw [popFrames]
    split
    · rfl
    · rw [List.length_append, ← ih next, Frame.releases, List.length_map]

theorem popTo_count (depth : Nat) : (s.popTo depth).count = (s.popTo depth).released.length :=
  popFrames_count depth s.top s.below

theorem trimTo_count (n : Nat) : (s.trimTo n).count = (s.trimTo n).released.length := by
  rw [trimTo, Frame.releasesTo, List.length_map, List.length_take_of_le (Nat.sub_le _ _)]

theorem returnTo_count (mark : Mark) :
    (s.returnTo mark).count = (s.returnTo mark).released.length := by
  simp only [returnTo]
  split
  · rw [List.length_append, popTo_count, trimTo_count]
  · exact s.popTo_count mark.depth

/-! ## Conservation

Whatever an operation takes off the stack it releases, so the releases that are still to come when
the stack is given up are those of the operation and then those of the stack that it leaves. -/

theorem popFrames_drain (depth : Nat) (top : Frame ρ) (below : List (Frame ρ)) :
    (popFrames depth top below).released ++ (popFrames depth top below).stack.drain =
      drain { top, below } := by
  induction below generalizing top with
  | nil => rfl
  | cons next rest ih =>
    rw [popFrames]
    split
    · rfl
    · rw [List.append_assoc, ih next]
      rfl

theorem popTo_drain (depth : Nat) :
    (s.popTo depth).released ++ (s.popTo depth).stack.drain = s.drain :=
  popFrames_drain depth s.top s.below

theorem trimTo_drain (n : Nat) :
    (s.trimTo n).released ++ (s.trimTo n).stack.drain = s.drain := by
  simp only [trimTo, Frame.releasesTo, drain, Frame.releases, Frame.keepOldest,
    List.flatMap_cons, ← List.append_assoc, ← List.map_append, List.take_append_drop]

theorem returnTo_drain (mark : Mark) :
    (s.returnTo mark).released ++ (s.returnTo mark).stack.drain = s.drain := by
  simp only [returnTo]
  split
  · rw [List.append_assoc, trimTo_drain, popTo_drain]
  · exact s.popTo_drain mark.depth

/-- All held resources, the newest first. -/
def resources : List ρ :=
  (s.top :: s.below).flatMap (·.held)

theorem drain_resources : s.drain.map (·.resource) = s.resources := by
  have hframe : ∀ f : Frame ρ, f.releases.map (·.resource) = f.held := by
    intro f
    rw [Frame.releases, List.map_map]
    exact List.map_id f.held
  simp only [drain, resources, List.map_flatMap, hframe]

theorem popTo_resources (depth : Nat) :
    (s.popTo depth).released.map (·.resource) ++ (s.popTo depth).stack.resources =
      s.resources := by
  rw [← drain_resources, ← drain_resources, ← List.map_append, popTo_drain]

theorem returnTo_resources (mark : Mark) :
    (s.returnTo mark).released.map (·.resource) ++ (s.returnTo mark).stack.resources =
      s.resources := by
  rw [← drain_resources, ← drain_resources, ← List.map_append, returnTo_drain]

end Unwind.CallStack
