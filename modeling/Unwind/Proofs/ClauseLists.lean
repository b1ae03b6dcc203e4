import Unwind.Clauses

/-!
# Lists of clauses

The check of a clause list goes by the catch-alls in it: there is none, there is one, or a second
one comes after the first. `ClauseVerdict` is the rule in these words, and `checkSelectors_eq_iff`
says that the check finds what the rule says.
-/

namespace Unwind

/-- The rule for lists of clauses, with what is wrong with a list that does not obey it. -/
inductive ClauseVerdict : List Selector → Except ClauseFault Unit → Prop where
  | empty : ClauseVerdict [] (.error .noClauses)
  | typed {front : List Selector} : front ≠ [] → (∀ s ∈ front, s ≠ .any) →
    ClauseVerdict front (.ok ())
  | last {front : List Selector} : (∀ s ∈ front, s ≠ .any) →
    ClauseVerdict (front ++ [.any]) (.ok ())
  | notLast {front back : List Selector} : (∀ s ∈ front, s ≠ .any) → (∀ s ∈ back, s ≠ .any) →
    back ≠ [] → ClauseVerdict (front ++ .any :: back)
      (.error (.catchAllNotLast front.length (front ++ .any :: back).length))
  | duplicate {front middle back : List Selector} : (∀ s ∈ front, s ≠ .any) →
    (∀ s ∈ middle, s ≠ .any) → ClauseVerdict (front ++ .any :: (middle ++ .any :: back))
      (.error (.duplicateCatchAll (front.length + 1 + middle.length)))

variable {front middle back : List Selector}

theorem findCatchAll_append (h : ∀ s ∈ front, s ≠ .any) (i : Nat) (seen : Option Nat)
    (rest : List Selector) :
    findCatchAll i seen (front ++ rest) = findCatchAll (i + front.length) seen rest := by
  induction front generalizing i with
  | nil => rfl
  | cons s front ih =>
    rw [List.forall_mem_cons] at h
    cases s with
    | any => exact absurd rfl h.1
    | kind k =>
      rw [List.length_cons, Nat.add_comm front.length, ← Nat.add_assoc]
      exact ih h.2 (i + 1)

theorem findCatchAll_of_none (h : ∀ s ∈ front, s ≠ .any) (i : Nat) (seen : Option Nat) :
    findCatchAll i seen front = .ok seen := by
  have happend := findCatchAll_append h i seen []
  rwa [List.append_nil] at happend

theorem findCatchAll_of_one (hfront : ∀ s ∈ front, s ≠ .any) (hback : ∀ s ∈ back, s ≠ .any) :
    findCatchAll 0 none (front ++ .any :: back) = .ok (some front.length) := by
  rw [findCatchAll_append hfront, Nat.zero_add]
  exact findCatchAll_of_none hback _ _

theorem findCatchAll_of_two (hfront : ∀ s ∈ front, s ≠ .any) (hmiddle : ∀ s ∈ middle, s ≠ .any) :
    findCatchAll 0 none (front ++ .any :: (middle ++ .any :: back)) =
      .error (.duplicateCatchAll (front.length + 1 + middle.length)) := by
  rw [findCatchAll_append hfront, Nat.zero_add]
  exact findCatchAll_append hmiddle _ _ (.any :: back)

theorem isEmpty_append_cons (s : Selector) : (front ++ s :: back).isEmpty = false := by
  cases front <;> rfl

/-- The check finds what the rule says. -/
theorem ClauseVerdict.checkSelectors_eq {selectors : List Selector}
    {verdict : Except ClauseFault Unit} (h : ClauseVerdict selectors verdict) :
    checkSelectors selectors = verdict := by
  unfold checkSelectors
  cases h with
  | empty => rfl
  | typed hne hfront =>
    rw [List.isEmpty_eq_false_iff.2 hne, findCatchAll_of_none hfront]
    rfl
  | @last front hfront =>
    have hlength : front.length + 1 = (front ++ [Selector.any]).length := by
      rw [List.length_append, List.length_singleton]
    rw [isEmpty_append_cons, findCatchAll_of_one hfront (List.forall_mem_nil _)]
    exact if_pos hlength
  | @notLast front back hfront hback hne =>
    have hlength : ¬ front.length + 1 = (front ++ .any :: back).length := by
      have hpos := List.length_pos_iff.2 hne
      rw [List.length_append, List.length_cons]
      omega
    rw [isEmpty_append_cons, findCatchAll_of_one hfront hback]
    exact if_neg hlength
  | duplicate hfront hmiddle =>
    rw [isEmpty_append_cons, findCatchAll_of_two hfront hmiddle]
    rfl

/-- A list has no catch-all, or it is split at the first one. -/
theorem exists_split_at_any (selectors : List Selector) :
    (∀ s ∈ selectors, s ≠ .any) ∨
      ∃ front back, selectors = front ++ .any :: back ∧ ∀ s ∈ front, s ≠ .any := by
  induction selectors with
  | nil => exact .inl (List.forall_mem_nil _)
  | cons s selectors ih =>
    cases s with
    | any => exact .inr ⟨[], selectors, rfl, List.forall_mem_nil _⟩
    | kind k =>
      have hs : Selector.kind k ≠ .any := Selector.noConfusion
      rcases ih with hnone | ⟨front, back, rfl, hfront⟩
      · exact .inl (List.forall_mem_cons.2 ⟨hs, hnone⟩)
      · exact .inr ⟨.kind k :: front, back, rfl, List.forall_mem_cons.2 ⟨hs, hfront⟩⟩

/-- The rule says something of every list. -/
theorem exists_clauseVerdict (selectors : List Selector) :
    ∃ verdict, ClauseVerdict selectors verdict := by
  rcases exists_split_at_any selectors with hnone | ⟨front, rest, rfl, hfront⟩
  · cases selectors with
    | nil => exact ⟨_, .empty⟩
    | cons s rest => exact ⟨_, .typed (List.cons_ne_nil s rest) hnone⟩
  · rcases exists_split_at_any rest with hnone | ⟨middle, back, rfl, hmiddle⟩
    · cases rest with
      | nil => exact ⟨_, .last hfront⟩
      | cons s back => exact ⟨_, .notLast hfront hnone (List.cons_ne_nil s back)⟩
    · exact ⟨_, .duplicate hfront hmiddle⟩

theorem checkSelectors_eq_iff {selectors : List Selector} {verdict : Except ClauseFault Unit} :
    checkSelectors selectors = verdict ↔ ClauseVerdict selectors verdict := by
  constructor
  · rintro rfl
    obtain ⟨verdict, h⟩ := exists_clauseVerdict selectors
    rwa [h.checkSelectors_eq]
  · exact ClauseVerdict.checkSelectors_eq

/-- A list obeys the rule if nothing stands after a catch-all. -/
theorem checkSelectors_eq_ok_iff (selectors : List Selector) :
    checkSelectors selectors = .ok () ↔
      selectors ≠ [] ∧ ∀ s ∈ selectors.dropLast, s ≠ .any := by
  rw [checkSelectors_eq_iff]
  constructor
  · intro h
    cases h with
    | typed hne hfront => exact ⟨hne, fun s hs => hfront s (List.dropLast_subset _ hs)⟩
    | @last front hfront =>
      rw [List.dropLast_concat]
      exact ⟨List.append_ne_nil_of_right_ne_nil _ (List.cons_ne_nil _ _), hfront⟩
  · rintro ⟨hne, hfront⟩
    have hsplit := List.dropLast_concat_getLast hne
    cases hlast : selectors.getLast hne with
    | any =>
      rw [hlast] at hsplit
      rw [← hsplit]
      exact .last hfront
    | kind k =>
      refine .typed hne fun s hs => ?_
      rw [← hsplit, hlast, List.mem_append, List.mem_singleton] at hs
      rcases hs with hs | rfl
      · exact hfront s hs
      · exact Selector.noConfusion

/-! ## Positions -/

theorem count_any_eq_zero {selectors : List Selector} :
    selectors.count .any = 0 ↔ ∀ s ∈ selectors, s ≠ .any := by
  rw [List.count_eq_zero]
  constructor
  · rintro h s hs rfl
    exact h hs
  · intro h hmem
    exact h .any hmem rfl

theorem count_any_append_cons :
    (front ++ .any :: back).count .any = front.count .any + (back.count .any + 1) := by
  rw [List.count_append, List.count_cons_self]

theorem getElem?_append_cons (s : Selector) : (front ++ s :: back)[front.length]? = some s := by
  rw [List.getElem?_append_right (Nat.le_refl _), Nat.sub_self, List.getElem?_cons_zero]

/-- A list is split at the position of a catch-all. -/
theorem split_at_position {selectors : List Selector} {position : Nat}
    (h : selectors[position]? = some .any) :
    ∃ front back, selectors = front ++ .any :: back ∧ front.length = position := by
  obtain ⟨hlt, hany⟩ := List.getElem?_eq_some_iff.1 h
  refine ⟨selectors.take position, selectors.drop (position + 1), ?_,
    List.length_take_of_le (Nat.le_of_lt hlt)⟩
  rw [← hany, ← List.drop_eq_getElem_cons hlt, List.take_append_drop]

/-- The check fails for two catch-alls at the position of the second one. -/
theorem checkSelectors_eq_duplicate_iff {selectors : List Selector} {position : Nat} :
    checkSelectors selectors = .error (.duplicateCatchAll position) ↔
      selectors[position]? = some .any ∧ (selectors.take position).count .any = 1 := by
  rw [checkSelectors_eq_iff]
  constructor
  · intro h
    cases h with
    | @duplicate front middle back hfront hmiddle =>
      have hlength : front.length + 1 + middle.length = (front ++ .any :: middle).length := by
        rw [List.length_append, List.length_cons]
        omega
      rw [← List.cons_append, ← List.append_assoc, hlength, List.take_left,
        count_any_append_cons, count_any_eq_zero.2 hfront, count_any_eq_zero.2 hmiddle]
      exact ⟨getElem?_append_cons _, rfl⟩
  · rintro ⟨hany, hcount⟩
    obtain ⟨before, back, rfl, rfl⟩ := split_at_position hany
    rw [List.take_left] at hcount
    rcases exists_split_at_any before with hnone | ⟨front, middle, rfl, hfront⟩
    · rw [count_any_eq_zero.2 hnone] at hcount
      cases hcount
    · rw [count_any_append_cons, count_any_eq_zero.2 hfront] at hcount
      have hmiddle : ∀ s ∈ middle, s ≠ .any := count_any_eq_zero.1 (by omega)
      have hlength : (front ++ .any :: middle).length = front.length + 1 + middle.length := by
        rw [List.length_append, List.length_cons]
        omega
      rw [List.append_assoc, List.cons_append, hlength]
      exact .duplicate hfront hmiddle

/-- The check fails for the place of a catch-all if it is the only one and not the last clause. -/
theorem checkSelectors_eq_notLast_iff {selectors : List Selector} {position total : Nat} :
    checkSelectors selectors = .error (.catchAllNotLast position total) ↔
      selectors.count .any = 1 ∧ selectors[position]? = some .any ∧ position + 1 < total ∧
        total = selectors.length := by
  rw [checkSelectors_eq_iff]
  constructor
  · intro h
    cases h with
    | @notLast front back hfront hback hne =>
      have hpos := List.length_pos_iff.2 hne
      rw [count_any_append_cons, count_any_eq_zero.2 hfront, count_any_eq_zero.2 hback,
        List.length_append, List.length_cons]
      exact ⟨rfl, getElem?_append_cons _, by omega, rfl⟩
  · rintro ⟨hcount, hany, hlt, rfl⟩
    obtain ⟨front, back, rfl, rfl⟩ := split_at_position hany
    rw [count_any_append_cons] at hcount
    rw [List.length_append, List.length_cons] at hlt
    have hfront : ∀ s ∈ front, s ≠ .any := count_any_eq_zero.1 (by omega)
    have hback : ∀ s ∈ back, s ≠ .any := count_any_eq_zero.1 (by omega)
    exact .notLast hfront hback (List.length_pos_iff.1 (by omega))

theorem checkSelectors_eq_noClauses_iff {selectors : List Selector} :
    checkSelectors selectors = .error .noClauses ↔ selectors = [] := by
  rw [checkSelectors_eq_iff]
  constructor
  · intro h
    cases h
    rfl
  · rintro rfl
    exact .empty

/-- Of several faults, a second catch-all is the one that is found. -/
theorem exists_checkSelectors_eq_duplicate_iff {selectors : List Selector} :
    (∃ position, checkSelectors selectors = .error (.duplicateCatchAll position)) ↔
      2 ≤ selectors.count .any := by
  constructor
  · rintro ⟨position, h⟩
    obtain ⟨hany, hcount⟩ := checkSelectors_eq_duplicate_iff.1 h
    obtain ⟨front, back, rfl, rfl⟩ := split_at_position hany
    rw [List.take_left] at hcount
    rw [count_any_append_cons, hcount]
    omega
  · intro hcount
    obtain ⟨verdict, h⟩ := exists_clauseVerdict selectors
    cases h with
    | duplicate hfront hmiddle =>
      exact ⟨_, checkSelectors_eq_iff.2 (.duplicate hfront hmiddle)⟩
    | empty => cases hcount
    | typed hne hfront =>
      rw [count_any_eq_zero.2 hfront] at hcount
      cases hcount
    | last hfront =>
      rw [count_any_append_cons, count_any_eq_zero.2 hfront, List.count_nil] at hcount
      omega
    | notLast hfront hback hne =>
      rw [count_any_append_cons, count_any_eq_zero.2 hfront, count_any_eq_zero.2 hback] at hcount
      omega

end Unwind
