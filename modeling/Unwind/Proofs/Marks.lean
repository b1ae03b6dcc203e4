import Unwind.Proofs.Conservation

/-!
# Marks and what is older

A mark is only a pair of counts, and it may be returned to when the frame that it was taken in is
gone. Still it protects all that is older than itself. What is on a stack, frames and resources
alike, is one sequence that grows and shrinks at its end (`CallStack.items`,
`StackHistory.step?_items`), and the counts of a mark say how far the sequence went
(`markOf_items`): they rise with every item (`Mark.before_of_isPrefix`). A return cuts the sequence
at the first item beyond the counts (`CallStack.returnTo_items`), so what has been there since
before the mark is never cut off.
-/

namespace Unwind

variable {ρ : Type}

/-! ## The items on a stack -/

/-- What a stack is made of. -/
inductive StackItem (ρ : Type) where
  | frame (name : String)
  | resource (resource : ρ)

def StackItem.resource? : StackItem ρ → Option ρ
  | .frame _ => none
  | .resource r => some r

/-- A frame and the resources in it, the oldest first. -/
def Frame.items (f : Frame ρ) : List (StackItem ρ) :=
  .frame f.name :: f.resources.map .resource

/-- The frames of a stack and all that is held in them, the oldest first. -/
def CallStack.items (s : CallStack ρ) : List (StackItem ρ) :=
  s.frames.flatMap Frame.items

/-- What an operation puts on the stack. -/
def StackOp.item? : StackOp ρ → Option (StackItem ρ)
  | .push name => some (.frame name)
  | .defer resource => some (.resource resource)
  | .pop | .mark _ | .returnTo _ => none

namespace CallStack

theorem items_eq (s : CallStack ρ) :
    s.items = s.below.reverse.flatMap Frame.items ++ s.top.items := by
  rw [items, frames, List.reverse_cons, List.flatMap_append, List.flatMap_singleton]

theorem items_push (s : CallStack ρ) (name : String) :
    (s.push name).items = s.items ++ [.frame name] := by
  rw [items_eq, items]
  exact congrArg (· ++ _) rfl

theorem items_defer (s : CallStack ρ) (r : ρ) : (s.defer r).items = s.items ++ [.resource r] := by
  have htop : (s.defer r).top.items = s.top.items ++ [.resource r] := by
    simp only [defer, Frame.items, Frame.resources, List.reverse_cons, List.map_append,
      List.map_singleton, List.cons_append]
  rw [items_eq, items_eq, htop, List.append_assoc]
  rfl

/-- Frames on top of a stack are the last of its items. -/
theorem items_append {s t : CallStack ρ} {newer : List (Frame ρ)}
    (h : s.top :: s.below = newer ++ t.top :: t.below) :
    s.items = t.items ++ newer.reverse.flatMap Frame.items := by
  rw [items, frames, h, List.reverse_append, List.flatMap_append]
  rfl

/-- Put an item on frames, innermost first. -/
def addItem : List (Frame ρ) → StackItem ρ → List (Frame ρ)
  | fs, .frame name => { name } :: fs
  | f :: fs, .resource r => { f with held := r :: f.held } :: fs
  | [], .resource _ => []

/-- The frames that items make up, innermost first. -/
def framesOf (items : List (StackItem ρ)) : List (Frame ρ) :=
  items.foldl addItem []

theorem framesOf_append_items (items : List (StackItem ρ)) (f : Frame ρ) :
    framesOf (items ++ f.items) = f :: framesOf items := by
  obtain ⟨name, held⟩ := f
  induction held with
  | nil =>
    rw [framesOf, List.foldl_append]
    rfl
  | cons r held ih =>
    have hitems : Frame.items ⟨name, r :: held⟩ = Frame.items ⟨name, held⟩ ++ [.resource r] := by
      simp only [Frame.items, Frame.resources, List.reverse_cons, List.map_append,
        List.map_singleton, List.cons_append]
    rw [hitems, ← List.append_assoc, framesOf, List.foldl_append]
    unfold framesOf at ih
    rw [ih]
    rfl

theorem framesOf_items (s : CallStack ρ) : framesOf s.items = s.top :: s.below := by
  have hframes (fs : List (Frame ρ)) : framesOf (fs.reverse.flatMap Frame.items) = fs := by
    induction fs with
    | nil => rfl
    | cons f fs ih =>
      rw [List.reverse_cons, List.flatMap_append, List.flatMap_singleton, framesOf_append_items, ih]
  exact hframes (s.top :: s.below)

theorem items_injective {s t : CallStack ρ} (h : s.items = t.items) : s = t := by
  have hframes : s.top :: s.below = t.top :: t.below := by
    rw [← framesOf_items, ← framesOf_items, h]
  obtain ⟨htop, hbelow⟩ := List.cons.inj hframes
  cases s
  cases t
  cases htop
  cases hbelow
  rfl

end CallStack

/-! ## How far a sequence goes -/

/-- The first mark does not go as far as the second one. -/
def Mark.Before (m m' : Mark) : Prop :=
  m.depth < m'.depth ∨ m.depth = m'.depth ∧ m.held < m'.held

def StackItem.advance (m : Mark) : StackItem ρ → Mark
  | .frame _ => ⟨m.depth + 1, 0⟩
  | .resource _ => ⟨m.depth, m.held + 1⟩

/-- The counts after a sequence of items: its frames, and the resources since the last of them. -/
def markOf (items : List (StackItem ρ)) : Mark :=
  items.foldl StackItem.advance ⟨0, 0⟩

namespace Mark

variable {m m' m'' : Mark}

theorem Before.trans (h : m.Before m') (h' : m'.Before m'') : m.Before m'' := by
  unfold Before at *
  omega

theorem not_before_self (m : Mark) : ¬m.Before m := by
  unfold Before
  omega

theorem before_advance (m : Mark) (x : StackItem ρ) : m.Before (x.advance m) := by
  cases x with
  | frame => exact .inl (Nat.lt_succ_self _)
  | resource => exact .inr ⟨rfl, Nat.lt_succ_self _⟩

theorem before_foldl (m : Mark) (x : StackItem ρ) (items : List (StackItem ρ)) :
    m.Before ((x :: items).foldl StackItem.advance m) := by
  induction items generalizing m x with
  | nil => exact before_advance m x
  | cons y items ih => exact (before_advance m x).trans (ih _ y)

/-- The counts rise with every item. -/
theorem before_of_isPrefix {xs ys : List (StackItem ρ)} (h : xs <+: ys) (hne : xs ≠ ys) :
    (markOf xs).Before (markOf ys) := by
  obtain ⟨rest, rfl⟩ := h
  cases rest with
  | nil => exact absurd (List.append_nil xs).symm hne
  | cons x rest =>
    rw [markOf, markOf, List.foldl_append]
    exact before_foldl _ x rest

theorem not_before_of_isPrefix {xs ys : List (StackItem ρ)} (h : xs <+: ys) :
    ¬(markOf ys).Before (markOf xs) := by
  intro hbefore
  by_cases heq : xs = ys
  · exact not_before_self _ (heq ▸ hbefore)
  · exact not_before_self _ (hbefore.trans (before_of_isPrefix h heq))

end Mark

theorem foldl_advance_frame (f : Frame ρ) (m : Mark) :
    f.items.foldl StackItem.advance m = ⟨m.depth + 1, f.held.length⟩ := by
  have hheld (rs : List ρ) (m : Mark) :
      (rs.map StackItem.resource).foldl StackItem.advance m = ⟨m.depth, m.held + rs.length⟩ := by
    induction rs generalizing m with
    | nil => rfl
    | cons r rs ih =>
      rw [List.map_cons, List.foldl_cons, ih, List.length_cons, StackItem.advance,
        Nat.add_right_comm]
      rfl
  rw [Frame.items, List.foldl_cons, hheld, Frame.resources, List.length_reverse]
  exact congrArg (Mark.mk _) (Nat.zero_add _)

theorem depth_foldl_advance (fs : List (Frame ρ)) (m : Mark) :
    ((fs.flatMap Frame.items).foldl StackItem.advance m).depth = m.depth + fs.length := by
  induction fs generalizing m with
  | nil => rfl
  | cons f fs ih =>
    rw [List.flatMap_cons, List.foldl_append, ih, foldl_advance_frame, List.length_cons]
    exact Nat.add_right_comm _ _ _

/-- A mark is how far the items go when it is taken. -/
theorem markOf_items (s : CallStack ρ) : markOf s.items = s.mark := by
  rw [s.items_eq, markOf, List.foldl_append, foldl_advance_frame, depth_foldl_advance,
    List.length_reverse, Nat.zero_add]
  rfl

/-! ## Returning to a mark -/

namespace CallStack

variable (s : CallStack ρ)

theorem popFrames_split (d : Nat) (top : Frame ρ) (below : List (Frame ρ)) :
    ∃ popped, top :: below =
        popped ++ (popFrames d top below).stack.top :: (popFrames d top below).stack.below ∧
      (popFrames d top below).released = popped.flatMap Frame.releases := by
  induction below generalizing top with
  | nil => exact ⟨[], rfl, rfl⟩
  | cons next rest ih =>
    rw [popFrames]
    split
    · exact ⟨[], rfl, rfl⟩
    · obtain ⟨popped, hframes, hreleased⟩ := ih next
      refine ⟨top :: popped, ?_, ?_⟩
      · rw [List.cons_append, ← hframes]
      · rw [List.flatMap_cons, ← hreleased]

theorem releases_resources (fs : List (Frame ρ)) :
    (fs.flatMap Frame.releases).map (·.resource) =
      ((fs.reverse.flatMap Frame.items).filterMap StackItem.resource?).reverse := by
  induction fs with
  | nil => rfl
  | cons f fs ih =>
    have hframe : f.items.filterMap StackItem.resource? = f.resources := by
      rw [Frame.items, List.filterMap_cons_none rfl, List.filterMap_map]
      exact List.filterMap_some
    have hreleases : f.releases.map (·.resource) = f.held := by
      rw [Frame.releases, List.map_map]
      exact List.map_id _
    rw [List.flatMap_cons, List.map_append, hreleases, ih, List.reverse_cons, List.flatMap_append,
      List.flatMap_singleton, List.filterMap_append, List.reverse_append, hframe, Frame.resources,
      List.reverse_reverse]

/-- Frames above a depth are popped. -/
theorem popTo_items (d : Nat) :
    ∃ popped : List (Frame ρ),
      s.items = (s.popTo d).stack.items ++ popped.reverse.flatMap Frame.items ∧
      (s.popTo d).released.map (·.resource) =
        ((popped.reverse.flatMap Frame.items).filterMap StackItem.resource?).reverse ∧
      (popped ≠ [] → d ≤ (s.popTo d).stack.depth) := by
  obtain ⟨popped, hframes, hreleased⟩ := popFrames_split d s.top s.below
  refine ⟨popped, items_append hframes, ?_, fun hne => ?_⟩
  · rw [popTo, hreleased, releases_resources]
  · have hlength := congrArg List.length hframes
    have hdepth := depth_popFrames d s.top s.below
    have hpos := List.length_pos_iff.2 hne
    rw [List.length_append, List.length_cons, List.length_cons] at hlength
    simp only [popTo, depth] at hdepth ⊢
    omega

/-- The resources of the top frame beyond a count are released. -/
theorem trimTo_items (n : Nat) :
    ∃ trimmed : List ρ,
      s.items = (s.trimTo n).stack.items ++ trimmed.map .resource ∧
      (s.trimTo n).released.map (·.resource) = trimmed.reverse ∧
      (trimmed ≠ [] → (s.trimTo n).stack.top.held.length = n) := by
  obtain ⟨⟨name, held⟩, below⟩ := s
  refine ⟨(held.take (held.length - n)).reverse, ?_, ?_, fun hne => ?_⟩
  · have hheld : held.reverse =
        (held.drop (held.length - n)).reverse ++ (held.take (held.length - n)).reverse := by
      rw [← List.reverse_append, List.take_append_drop]
    simp only [items_eq, trimTo, Frame.items, Frame.keepOldest, Frame.resources, List.append_assoc,
      List.cons_append, ← List.map_append, ← hheld]
  · simp only [trimTo, Frame.releasesTo, List.map_map, List.reverse_reverse]
    exact List.map_id _
  · have hlt : held.length - n ≠ 0 := by
      intro hzero
      rw [hzero] at hne
      exact hne rfl
    simp only [trimTo, Frame.keepOldest, List.length_drop]
    omega

theorem markOf_items_concat (x : StackItem ρ) : markOf (s.items ++ [x]) = x.advance s.mark := by
  rw [← markOf_items, markOf, markOf, List.foldl_append]
  rfl

/-- A frame that follows the items of a stack goes beyond a mark that is not deeper. -/
theorem before_of_frames {m : Mark} {fs : List (Frame ρ)} {x : StackItem ρ}
    {rest : List (StackItem ρ)} (h : fs.flatMap Frame.items = x :: rest)
    (hdepth : m.depth ≤ s.depth) : m.Before (markOf (s.items ++ [x])) := by
  cases fs with
  | nil => cases h
  | cons f fs =>
    cases h
    rw [markOf_items_concat]
    exact .inl (Nat.lt_succ_of_le hdepth)

/-- A return to a mark cuts the items of a stack. What is cut off is released, if it is a resource,
and its first item goes beyond the mark. -/
theorem returnTo_items (m : Mark) :
    ∃ removed, s.items = (s.returnTo m).stack.items ++ removed ∧
      (s.returnTo m).released.map (·.resource) =
        (removed.filterMap StackItem.resource?).reverse ∧
      ∀ x rest, removed = x :: rest → m.Before (markOf ((s.returnTo m).stack.items ++ [x])) := by
  obtain ⟨popped, hpopped, hreleased, hdeep⟩ := s.popTo_items m.depth
  have hframe {x : StackItem ρ} {rest : List (StackItem ρ)}
      (h : popped.reverse.flatMap Frame.items = x :: rest) : popped ≠ [] := by
    rintro rfl
    cases h
  simp only [returnTo]
  split
  next hdepth =>
    obtain ⟨trimmed, htrimmed, htrim, hheld⟩ := (s.popTo m.depth).stack.trimTo_items m.held
    have hresources : (trimmed.map StackItem.resource).filterMap StackItem.resource? = trimmed := by
      rw [List.filterMap_map]
      exact List.filterMap_some
    refine ⟨trimmed.map .resource ++ popped.reverse.flatMap Frame.items, ?_, ?_, ?_⟩
    · rw [hpopped, htrimmed, List.append_assoc]
    · rw [List.map_append, hreleased, htrim, List.filterMap_append, List.reverse_append, hresources]
    · intro x rest hremoved
      cases trimmed with
      | nil => exact before_of_frames _ hremoved (Nat.le_of_eq hdepth.symm)
      | cons r trimmed =>
        cases hremoved
        rw [markOf_items_concat]
        refine .inr ⟨hdepth.symm, ?_⟩
        exact Nat.lt_succ_of_le (Nat.le_of_eq (hheld (List.cons_ne_nil _ _)).symm)
  next =>
    exact ⟨_, hpopped, hreleased, fun x rest h => before_of_frames _ h (hdeep (hframe h))⟩

/-- If a stack goes at least as far as a mark, a return to the mark leaves nothing beyond it. -/
theorem not_before_returnTo {s t : CallStack ρ} (h : ¬s.mark.Before t.mark) :
    ¬t.mark.Before (s.returnTo t.mark).stack.mark := by
  have hdepth := s.depth_returnTo t.mark
  have hpos : 1 ≤ t.depth := Nat.le_add_left 1 _
  simp only [Mark.Before, mark] at h hdepth ⊢
  have hreached : (s.returnTo t.mark).stack.depth = t.depth := by
    simp only [mark]
    omega
  have hheld := s.held_returnTo hreached
  simp only [mark] at hreached hheld
  omega

theorem pop_items : s.pop.stack.items <+: s.items := by
  obtain ⟨top, below⟩ := s
  cases below with
  | nil => exact List.prefix_refl _
  | cons next rest =>
    have hitems : items ⟨top, next :: rest⟩ =
        items ⟨next, rest⟩ ++ [top].reverse.flatMap Frame.items := items_append rfl
    exact ⟨_, hitems.symm⟩

end CallStack

/-! ## Histories -/

namespace StackHistory

variable {h h' : StackHistory ρ} {op : StackOp ρ} {ops : List (StackOp ρ)}
  {released : List (Release ρ)} {deeds : List (StackDeed ρ)}

/-- An operation puts one item on the stack or cuts the sequence of items. -/
theorem step?_items (hstep : h.step? op = some (released, h')) :
    (∃ item, op.item? = some item ∧ h'.stack.items = h.stack.items ++ [item]) ∨
      h'.stack.items <+: h.stack.items := by
  cases op with
  | push name =>
    cases hstep
    exact .inl ⟨_, rfl, h.stack.items_push name⟩
  | defer resource =>
    cases hstep
    exact .inl ⟨_, rfl, h.stack.items_defer resource⟩
  | pop =>
    cases hstep
    exact .inr h.stack.pop_items
  | mark =>
    cases hstep
    exact .inr (List.prefix_refl _)
  | returnTo slot =>
    obtain ⟨mark, -, -, rfl⟩ := step?_returnTo.1 hstep
    obtain ⟨removed, hitems, -⟩ := h.stack.returnTo_items mark
    exact .inr ⟨removed, hitems.symm⟩

/-- The stack has a property at every time, from before the operations to after them. -/
def Throughout (P : CallStack ρ → Prop) (h : StackHistory ρ) : List (StackOp ρ) → Prop
  | [] => P h.stack
  | op :: ops =>
    P h.stack ∧ ∀ released next, h.step? op = some (released, next) → next.Throughout P ops

/-- One of the operations puts an item on the stack, on top of `k` others, and it is there ever
since. -/
inductive PutDuring (k : Nat) (item : StackItem ρ) : StackHistory ρ → List (StackOp ρ) → Prop where
  | now {h next : StackHistory ρ} {op : StackOp ρ} {ops : List (StackOp ρ)}
    {released : List (Release ρ)} :
    h.step? op = some (released, next) → op.item? = some item → h.stack.items.length = k →
    next.Throughout (k < ·.items.length) ops → PutDuring k item h (op :: ops)
  | later {h next : StackHistory ρ} {op : StackOp ρ} {ops : List (StackOp ρ)}
    {released : List (Release ρ)} :
    h.step? op = some (released, next) → PutDuring k item next ops → PutDuring k item h (op :: ops)

theorem Throughout.here {P : CallStack ρ → Prop} (hall : h.Throughout P ops) : P h.stack := by
  cases ops with
  | nil => exact hall
  | cons op ops => exact hall.1

theorem Throughout.cons {P : CallStack ρ → Prop} {next : StackHistory ρ} (hhere : P h.stack)
    (hstep : h.step? op = some (released, next)) (hall : next.Throughout P ops) :
    h.Throughout P (op :: ops) := by
  refine ⟨hhere, fun released' next' hstep' => ?_⟩
  cases hstep.symm.trans hstep'
  exact hall

/-- While the sequence does not get shorter than `k + 1`, its first items stay. -/
theorem Throughout.take_items {k : Nat} (hall : h.Throughout (k < ·.items.length) ops)
    (hrun : h.run? ops = some (deeds, h')) :
    h'.stack.items.take (k + 1) = h.stack.items.take (k + 1) := by
  induction ops generalizing h deeds with
  | nil =>
    cases hrun
    rfl
  | cons op ops ih =>
    obtain ⟨released, next, later, hstep, hlater, rfl⟩ := run?_cons hrun
    obtain ⟨hk, hall⟩ := hall
    have hnext := hall released next hstep
    rw [ih hnext hlater]
    rcases step?_items hstep with ⟨item, -, hitems⟩ | hprefix
    · rw [hitems, List.take_append_of_le_length hk]
    · exact (List.prefix_iff_eq_take.1 ((List.take_prefix _ _).trans hprefix)).trans
        (by rw [List.length_take_of_le hnext.here])

/-- What is on the stack was there all the time, or one of the operations put it there. -/
theorem throughout_or_putDuring (hrun : h.run? ops = some (deeds, h')) {k : Nat}
    {item : StackItem ρ} (hitem : h'.stack.items[k]? = some item) :
    h.Throughout (k < ·.items.length) ops ∨ h.PutDuring k item ops := by
  induction ops generalizing h deeds with
  | nil =>
    cases hrun
    exact .inl (List.getElem?_eq_some_iff.1 hitem).1
  | cons op ops ih =>
    obtain ⟨released, next, later, hstep, hlater, rfl⟩ := run?_cons hrun
    rcases ih hlater with hall | hput
    · by_cases hk : k < h.stack.items.length
      · exact .inl (.cons hk hstep hall)
      · have hnext := hall.here
        rcases step?_items hstep with ⟨item', hop, hitems⟩ | hprefix
        · rw [hitems, List.length_append, List.length_singleton] at hnext
          have hlength : h.stack.items.length = k := by omega
          -- The item is still the one that was put there.
          have hsame : next.stack.items[k]? = some item := by
            rw [← hitem, ← List.getElem?_take_of_lt (Nat.lt_succ_self k),
              ← hall.take_items hlater, List.getElem?_take_of_lt (Nat.lt_succ_self k)]
          rw [hitems, ← hlength, List.getElem?_concat_length, Option.some.injEq] at hsame
          subst hsame
          exact .inr (.now hstep hop hlength hall)
        · have := hprefix.length_le
          omega
    · exact .inr (.later hstep hput)

end StackHistory

/-- The stack is at least as deep as the mark, and in the frame at that depth is at least as much as
at the mark. -/
def CallStack.Retains (m : Mark) (s : CallStack ρ) : Prop :=
  m.depth ≤ s.depth ∧ ∃ f, s.frames[m.depth - 1]? = some f ∧ m.held ≤ f.held.length

theorem CallStack.frames_top (s : CallStack ρ) : s.frames[s.depth - 1]? = some s.top := by
  have hlength : s.depth - 1 = s.below.reverse.length := by
    rw [List.length_reverse]
    rfl
  rw [frames, List.reverse_cons, hlength, List.getElem?_concat_length]

theorem CallStack.Retains.not_before {m : Mark} {s : CallStack ρ} (h : s.Retains m) :
    ¬s.mark.Before m := by
  obtain ⟨hdepth, f, hf, hheld⟩ := h
  rintro (hlt | ⟨heq, hlt⟩)
  · exact Nat.not_lt_of_le hdepth hlt
  · rw [← heq] at hf
    cases (s.frames_top).symm.trans hf
    exact Nat.not_lt_of_le hheld hlt

namespace StackHistory

variable {h h' : StackHistory ρ} {ops : List (StackOp ρ)} {deeds : List (StackDeed ρ)}

/-- While the stack retains what a mark counts, it retains the items that were there. -/
theorem Throughout.prefix_items {s : CallStack ρ} (hs : s.items <+: h.stack.items)
    (hall : h.Throughout (CallStack.Retains s.mark) ops) (hrun : h.run? ops = some (deeds, h')) :
    s.items <+: h'.stack.items := by
  induction ops generalizing h deeds with
  | nil =>
    cases hrun
    exact hs
  | cons op ops ih =>
    obtain ⟨released, next, later, hstep, hlater, rfl⟩ := run?_cons hrun
    have hnext := hall.2 released next hstep
    refine ih ?_ hnext hlater
    rcases step?_items hstep with ⟨item, -, hitems⟩ | hprefix
    · rw [hitems]
      exact hs.trans (List.prefix_append _ _)
    · rcases List.prefix_or_prefix_of_prefix hs hprefix with hkept | hcut
      · exact hkept
      · -- Had the cut gone into what was there, the counts would be lower than at the mark.
        by_cases heq : next.stack.items = s.items
        · exact heq ▸ List.prefix_refl _
        · have hbefore := Mark.before_of_isPrefix hcut heq
          rw [markOf_items, markOf_items] at hbefore
          exact absurd hbefore hnext.here.not_before

end StackHistory

/-- A mark protects all that is older than itself, however stale it is when it is returned to.

Take the mark of a stack, and then any operations, among them returns to other marks. A return to
the mark cuts off items that are on the stack, and what it releases are the resources among these.
Each of them, frame or resource, was put on the stack by one of the operations after the mark. And
if at no time since the mark the stack was less deep, or less was held in the marked frame, the
stack is again what it was. -/
theorem mark_protects_older {h h' : StackHistory ρ} {ops : List (StackOp ρ)}
    {deeds : List (StackDeed ρ)} (hrun : h.run? ops = some (deeds, h')) :
    let back := h'.stack.returnTo h.stack.mark
    (∃ removed, h'.stack.items = back.stack.items ++ removed ∧
      back.released.map (·.resource) = (removed.filterMap StackItem.resource?).reverse ∧
      ∀ i item, removed[i]? = some item → h.PutDuring (back.stack.items.length + i) item ops) ∧
    (h.Throughout (CallStack.Retains h.stack.mark) ops → back.stack = h.stack) := by
  intro back
  obtain ⟨removed, hitems, hreleased, hbeyond⟩ := h'.stack.returnTo_items h.stack.mark
  -- No item that is cut off was there at the mark.
  have hnew (x : StackItem ρ) (rest : List (StackItem ρ)) (hremoved : removed = x :: rest) :
      ¬back.stack.items ++ [x] <+: h.stack.items := by
    intro hprefix
    refine Mark.not_before_of_isPrefix hprefix ?_
    rw [markOf_items]
    exact hbeyond x rest hremoved
  refine ⟨⟨removed, hitems, hreleased, fun i item hitem => ?_⟩, fun hall => ?_⟩
  · have hplace : h'.stack.items[back.stack.items.length + i]? = some item := by
      rw [hitems, List.getElem?_append_right (Nat.le_add_right _ _), Nat.add_sub_cancel_left, hitem]
    refine (StackHistory.throughout_or_putDuring hrun hplace).resolve_left fun hall => ?_
    cases hremoved : removed with
    | nil =>
      rw [hremoved] at hitem
      cases hitem
    | cons x rest =>
      refine hnew x rest hremoved ?_
      have htake := hall.take_items hrun
      have hfirst : back.stack.items ++ [x] <+:
          h'.stack.items.take (back.stack.items.length + i + 1) := by
        rw [List.prefix_take_iff, hitems, hremoved, List.append_cons back.stack.items x rest,
          List.length_append, List.length_singleton]
        exact ⟨List.prefix_append _ _, by omega⟩
      rw [htake] at hfirst
      exact hfirst.trans (List.take_prefix _ _)
  · have hkept := hall.prefix_items (List.prefix_refl _) hrun
    have hback : back.stack.items <+: h'.stack.items := ⟨removed, hitems.symm⟩
    apply CallStack.items_injective
    apply Classical.byContradiction
    intro hne
    rcases List.prefix_or_prefix_of_prefix hback hkept with hcut | hmore
    · obtain ⟨more, hmore⟩ := hcut
      cases more with
      | nil => exact hne ((List.append_nil _).symm.trans hmore)
      | cons x more =>
        have hprefix : back.stack.items ++ [x] <+: h.stack.items :=
          ⟨more, by rw [← hmore, List.append_assoc, List.singleton_append]⟩
        obtain ⟨rest, hrest⟩ := hkept
        have hremoved : removed = x :: (more ++ rest) := by
          rw [← hmore, List.append_assoc, hitems, List.append_cancel_left_eq] at hrest
          exact hrest.symm
        exact hnew x _ hremoved hprefix
    · have hbefore := Mark.before_of_isPrefix hmore (Ne.symm hne)
      have hdeep := Mark.not_before_of_isPrefix hkept
      rw [markOf_items, markOf_items] at hbefore hdeep
      exact CallStack.not_before_returnTo hdeep hbefore

/-- A mark is returned to when older resources of its frame have been given up through an older mark
and others taken, then when another frame stands in the place of the marked one, and, after another
history, when all that it counts is still there. -/
theorem mark_protects_older_stale :
    let marked : StackHistory String :=
      ⟨⟨⟨"f", ["b", "a"]⟩, [⟨"r", []⟩]⟩, [("old", ⟨2, 0⟩)]⟩
    let refilled : List (StackOp String) :=
      [.returnTo "old", .defer "c", .defer "d", .defer "e"]
    let replaced : List (StackOp String) := [.pop, .push "g", .defer "c", .defer "d", .defer "e"]
    let extended : List (StackOp String) := [.defer "c", .push "g", .defer "d", .pop, .push "h"]
    (∃ deeds, (StackHistory.new "r").run? [.push "f", .mark "old", .defer "a", .defer "b"] =
      some (deeds, marked)) ∧
    (∃ deeds h, marked.run? refilled = some (deeds, h) ∧
      (h.stack.returnTo marked.stack.mark).released = [⟨"f", "e"⟩] ∧
      marked.PutDuring 4 (.resource "e") refilled) ∧
    (∃ deeds h, marked.run? replaced = some (deeds, h) ∧
      (h.stack.returnTo marked.stack.mark).released = [⟨"g", "e"⟩] ∧
      marked.PutDuring 4 (.resource "e") replaced) ∧
    ∃ deeds h, marked.run? extended = some (deeds, h) ∧
      marked.Throughout (CallStack.Retains marked.stack.mark) extended ∧
      (h.stack.returnTo marked.stack.mark).stack = marked.stack := by
  intro marked refilled replaced extended
  refine ⟨⟨_, rfl⟩, ?_, ?_, _, _, rfl, ?_⟩
  · obtain ⟨deeds, hrun⟩ : ∃ deeds, marked.run? refilled =
        some (deeds, { marked with stack := ⟨⟨"f", ["e", "d", "c"]⟩, [⟨"r", []⟩]⟩ }) := ⟨_, rfl⟩
    obtain ⟨⟨removed, hitems, -, hput⟩, -⟩ := mark_protects_older hrun
    exact ⟨deeds, _, hrun, rfl, hput 0 _ (congrArg (·[4]?) hitems).symm⟩
  · obtain ⟨deeds, hrun⟩ : ∃ deeds, marked.run? replaced =
        some (deeds, { marked with stack := ⟨⟨"g", ["e", "d", "c"]⟩, [⟨"r", []⟩]⟩ }) := ⟨_, rfl⟩
    obtain ⟨⟨removed, hitems, -, hput⟩, -⟩ := mark_protects_older hrun
    exact ⟨deeds, _, hrun, rfl, hput 0 _ (congrArg (·[4]?) hitems).symm⟩
  · have hkept : marked.Throughout (CallStack.Retains marked.stack.mark) extended :=
      .cons ⟨by decide, _, rfl, by decide⟩ rfl (.cons ⟨by decide, _, rfl, by decide⟩ rfl
        (.cons ⟨by decide, _, rfl, by decide⟩ rfl (.cons ⟨by decide, _, rfl, by decide⟩ rfl
          (.cons ⟨by decide, _, rfl, by decide⟩ rfl ⟨by decide, _, rfl, by decide⟩))))
    exact ⟨hkept, (mark_protects_older (show marked.run? extended = some (_, _) from rfl)).2 hkept⟩

end Unwind
