import Unwind.Proofs.ClauseOrder

/-!
# The grammar of guarded blocks

`GuardedBlock.Written` is the grammar: it says which tokens a block can be written with, and does
not speak of how they are read. A name after `catch` can be meant as a binding or as a type, and
`ClauseHead.Written` tells them apart. Reading succeeds on exactly these tokens and gives the block
that they are written for. Each parser has an equivalence of this kind, `segments_eq_ok_iff` to
`clauses_eq_ok_iff`, for tokens that go on with a group, so that it is clear where it stops.
-/

namespace Unwind

open Token

/-! ## Grammar -/

/-- A name: any identifier that is not a keyword. -/
def IsName (name : String) : Prop :=
  Lexeme.isKeyword name = false

/-- A name that may be bound, which is one that is not used by the code of a block. -/
def IsBindable (name : String) : Prop :=
  IsName name ∧ Lexeme.isReserved name = false

/-- Segments of a path, each after a double colon. -/
inductive SegmentsWritten : List String → List Token → Prop where
  | nil : SegmentsWritten [] []
  | cons {name : String} {names : List String} {ts : List Token} (s : Spacing) :
    IsName name → SegmentsWritten names ts →
    SegmentsWritten (name :: names) (.punct ':' .joint :: .punct ':' s :: .ident name :: ts)

inductive TypePath.Written : TypePath → List Token → Prop where
  | relative {head : String} {rest : List String} {ts : List Token} :
    IsName head → SegmentsWritten rest ts → Written ⟨false, head, rest⟩ (.ident head :: ts)
  | absolute {head : String} {rest : List String} {ts : List Token} :
    SegmentsWritten (head :: rest) ts → Written ⟨true, head, rest⟩ ts

/-- A lone name that would be a binding: it starts with a small letter or an underscore, and it is
not an integer type. -/
def TypePath.LooksBound (p : TypePath) : Prop :=
  p.absolute = false ∧ p.rest = [] ∧ Lexeme.isBindingLike p.head = true ∧
    Lexeme.isIntegerType p.head = false

/-- What stands between `catch` and the body. The first three forms take everything. -/
inductive ClauseHead.Written : ClauseHead → List Token → Prop where
  | bare : Written (.all none) []
  | wildcard : Written (.all (some "_")) [.ident "_"]
  | bound {name : String} : IsBindable name → Lexeme.isBindingLike name = true →
    Lexeme.isIntegerType name = false → Written (.all (some name)) [.ident name]
  | typed {p : TypePath} {ts : List Token} : p.Written ts → ¬p.LooksBound →
    Written (.typed p "_") ts
  | typedBound {p : TypePath} {ts : List Token} {name : String} : p.Written ts →
    (name = "_" ∨ IsBindable name) → Written (.typed p name) (ts ++ [parens [.ident name]])

def BlockClause.Written (c : BlockClause) (ts : List Token) : Prop :=
  ∃ head, c.head.Written head ∧ ts = .ident "catch" :: head ++ [braces c.body]

inductive ClausesWritten : List BlockClause → List Token → Prop where
  | nil : ClausesWritten [] []
  | cons {c : BlockClause} {cs : List BlockClause} {ts ts' : List Token} :
    c.Written ts → ClausesWritten cs ts' → ClausesWritten (c :: cs) (ts ++ ts')

/-- The tokens `rt => try { .. }` and clauses after them. -/
def GuardedBlock.Written (b : GuardedBlock) (ts : List Token) : Prop :=
  ∃ s clauses, IsName b.runtime ∧ ClausesWritten b.clauses clauses ∧
    ts = .ident b.runtime :: .punct '=' .joint :: .punct '>' s :: .ident "try" :: braces b.body ::
      clauses

/-! ## Reading -/

namespace Parser

variable {ts rest inner : List Token} {d : Delimiter}

theorem identifier_eq_ok_iff {name : String} :
    identifier ts = .ok (name, rest) ↔ IsName name ∧ ts = .ident name :: rest := by
  constructor
  · intro h
    unfold identifier at h
    split at h
    next name' rest' =>
      split at h
      next => cases h
      next hname =>
        cases h
        exact ⟨Bool.eq_false_iff.2 hname, rfl⟩
    next => cases h
  · rintro ⟨hname, rfl⟩
    rw [IsName] at hname
    simp [identifier, hname]

theorem bindable_eq_ok_iff {name : String} :
    bindable name = .ok () ↔ Lexeme.isReserved name = false := by
  unfold bindable
  cases Lexeme.isReserved name with
  | true =>
    refine iff_of_false ?_ Bool.false_ne_true.symm
    intro h
    cases h
  | false => exact iff_of_true rfl rfl

theorem inBraces_eq_ok_iff {body : List Token} :
    inBraces ts = .ok (body, rest) ↔ ts = braces body :: rest := by
  constructor
  · intro h
    unfold inBraces at h
    split at h
    next => cases h; rfl
    next => cases h
  · rintro rfl
    rfl

theorem segments_eq_ok_iff {names : List String} :
    segments ts = .ok (names, .group d inner :: rest) ↔
      ∃ w, SegmentsWritten names w ∧ ts = w ++ .group d inner :: rest := by
  constructor
  · intro h
    fun_induction segments ts generalizing names with
    | case1 => cases h
    | case2 s name ts hname ih =>
      obtain ⟨⟨names, ts'⟩, hs, h⟩ := bind_eq_ok_iff.1 h
      cases h
      obtain ⟨w, hw, rfl⟩ := ih hs
      exact ⟨_, .cons s (Bool.eq_false_iff.2 hname) hw, rfl⟩
    | case3 => cases h
    | case4 =>
      cases h
      exact ⟨[], .nil, rfl⟩
  · rintro ⟨w, hw, rfl⟩
    induction hw with
    | nil => rfl
    | @cons name _ _ s hname _ ih =>
      have hkeyword : ¬Lexeme.isKeyword name = true := Bool.eq_false_iff.1 hname
      rw [List.cons_append, List.cons_append, List.cons_append, segments, if_neg hkeyword, ih]
      rfl

theorem typePath_eq_ok_iff {p : TypePath} :
    typePath ts = .ok (p, .group d inner :: rest) ↔
      ∃ w, p.Written w ∧ ts = w ++ .group d inner :: rest := by
  constructor
  · intro h
    unfold typePath at h
    split at h
    next absolute ts' hts =>
      obtain ⟨⟨head, ts₁⟩, hi, h⟩ := bind_eq_ok_iff.1 h
      obtain ⟨⟨segs, ts₂⟩, hs, h⟩ := bind_eq_ok_iff.1 h
      cases h
      obtain ⟨hname, rfl⟩ := identifier_eq_ok_iff.1 hi
      obtain ⟨w, hw, rfl⟩ := segments_eq_ok_iff.1 hs
      split at hts
      next s rest' =>
        cases hts
        exact ⟨_, .absolute (.cons s hname hw), rfl⟩
      next =>
        cases hts
        exact ⟨_, .relative hname hw, rfl⟩
  · rintro ⟨w, hw, rfl⟩
    cases hw with
    | relative hname hw =>
      exact bind_eq_ok_iff.2 ⟨_, identifier_eq_ok_iff.2 ⟨hname, rfl⟩,
        bind_eq_ok_iff.2 ⟨_, segments_eq_ok_iff.2 ⟨_, hw, rfl⟩, rfl⟩⟩
    | absolute hw =>
      cases hw with
      | cons s hname hw =>
        exact bind_eq_ok_iff.2 ⟨_, identifier_eq_ok_iff.2 ⟨hname, rfl⟩,
          bind_eq_ok_iff.2 ⟨_, segments_eq_ok_iff.2 ⟨_, hw, rfl⟩, rfl⟩⟩

theorem bindingName_eq_ok_iff {name : String} :
    bindingName ts = .ok (name, rest) ↔ (name = "_" ∨ IsName name) ∧ ts = .ident name :: rest := by
  constructor
  · intro h
    unfold bindingName at h
    split at h
    next name' rest' =>
      split at h
      next hname =>
        cases h
        exact ⟨.inl hname, rfl⟩
      next =>
        obtain ⟨hname, hts⟩ := identifier_eq_ok_iff.1 h
        exact ⟨.inr hname, hts⟩
    next =>
      obtain ⟨hname, hts⟩ := identifier_eq_ok_iff.1 h
      exact ⟨.inr hname, hts⟩
  · rintro ⟨hname, rfl⟩
    rw [bindingName]
    split
    next => rfl
    next hne => exact identifier_eq_ok_iff.2 ⟨hname.resolve_left hne, rfl⟩

/-- No keyword is reserved, so the underscore is not. -/
theorem isBinding_iff {name : String} :
    (name = "_" ∨ IsName name) ∧ Lexeme.isReserved name = false ↔ name = "_" ∨ IsBindable name := by
  have hunderscore : name = "_" → Lexeme.isReserved name = false := by
    rintro rfl
    decide
  rw [or_and_right, and_iff_left_of_imp hunderscore]
  rfl

theorem binding_eq_ok_iff {name : String} :
    binding ts = .ok (name, rest) ↔
      (name = "_" ∨ IsBindable name) ∧ ts = parens [.ident name] :: rest := by
  rw [← isBinding_iff]
  constructor
  · intro h
    unfold binding at h
    split at h
    next inner rest' =>
      obtain ⟨⟨name', left⟩, hinner, h⟩ := bind_eq_ok_iff.1 h
      dsimp only at h
      split at h
      next hleft =>
        obtain ⟨⟨⟩, hreserved, h⟩ := bind_eq_ok_iff.1 h
        cases h
        obtain ⟨hname, rfl⟩ := bindingName_eq_ok_iff.1 hinner
        rw [List.isEmpty_iff.1 hleft]
        exact ⟨⟨hname, bindable_eq_ok_iff.1 hreserved⟩, rfl⟩
      next => cases h
    next => cases h
  · rintro ⟨⟨hname, hreserved⟩, rfl⟩
    exact bind_eq_ok_iff.2 ⟨(name, []), bindingName_eq_ok_iff.2 ⟨hname, rfl⟩,
      bind_eq_ok_iff.2 ⟨(), bindable_eq_ok_iff.2 hreserved, rfl⟩⟩

theorem optionalBinding_eq_ok_iff {name : String} {body : List Token} :
    optionalBinding ts = .ok (name, braces body :: rest) ↔
      (name = "_" ∧ ts = braces body :: rest) ∨
        ((name = "_" ∨ IsBindable name) ∧ ts = parens [.ident name] :: braces body :: rest) := by
  rw [← binding_eq_ok_iff]
  constructor
  · intro h
    unfold optionalBinding at h
    split at h
    next => exact .inr h
    next =>
      cases h
      exact .inl ⟨rfl, rfl⟩
  · rintro (⟨rfl, rfl⟩ | h)
    · rfl
    · obtain ⟨-, rfl⟩ := binding_eq_ok_iff.1 h
      exact h

theorem typedHead_eq_ok_iff {head : ClauseHead} {body : List Token} :
    typedHead ts = .ok (head, braces body :: rest) ↔
      ∃ p name w, head = .typed p name ∧ p.Written w ∧
        ((name = "_" ∧ ts = w ++ braces body :: rest) ∨
          ((name = "_" ∨ IsBindable name) ∧
            ts = w ++ parens [.ident name] :: braces body :: rest)) := by
  constructor
  · intro h
    obtain ⟨⟨p, ts₁⟩, hp, h⟩ := bind_eq_ok_iff.1 h
    obtain ⟨⟨name, ts₂⟩, hb, h⟩ := bind_eq_ok_iff.1 h
    cases h
    rcases optionalBinding_eq_ok_iff.1 hb with ⟨hname, rfl⟩ | ⟨hname, rfl⟩
    · obtain ⟨w, hw, rfl⟩ := typePath_eq_ok_iff.1 hp
      exact ⟨p, name, w, rfl, hw, .inl ⟨hname, rfl⟩⟩
    · obtain ⟨w, hw, rfl⟩ := typePath_eq_ok_iff.1 hp
      exact ⟨p, name, w, rfl, hw, .inr ⟨hname, rfl⟩⟩
  · rintro ⟨p, name, w, rfl, hw, ⟨hname, rfl⟩ | ⟨hname, rfl⟩⟩
    · exact bind_eq_ok_iff.2 ⟨_, typePath_eq_ok_iff.2 ⟨w, hw, rfl⟩,
        bind_eq_ok_iff.2 ⟨_, optionalBinding_eq_ok_iff.2 (.inl ⟨hname, rfl⟩), rfl⟩⟩
    · exact bind_eq_ok_iff.2 ⟨_, typePath_eq_ok_iff.2 ⟨w, hw, rfl⟩,
        bind_eq_ok_iff.2 ⟨_, optionalBinding_eq_ok_iff.2 (.inr ⟨hname, rfl⟩), rfl⟩⟩

theorem isCatchAllName_eq_true {name : String} :
    isCatchAllName name = true ↔ IsName name ∧ Lexeme.isBindingLike name = true ∧
      Lexeme.isIntegerType name = false := by
  simp only [isCatchAllName, IsName, Bool.and_eq_true, Bool.not_eq_true', and_assoc]

/-- A path looks like a binding if it is written as one token that can be one. -/
theorem looksBound_iff {p : TypePath} {w : List Token} (h : p.Written w) :
    p.LooksBound ↔ ∃ name, w = [.ident name] ∧ isCatchAllName name = true := by
  simp only [isCatchAllName_eq_true]
  cases h with
  | @relative head segs w' hname hw =>
    constructor
    · rintro ⟨-, hsegs, hlike⟩
      cases hsegs
      cases hw
      exact ⟨head, rfl, hname, hlike⟩
    · rintro ⟨name, heq, -, hlike⟩
      cases heq
      cases hw
      exact ⟨rfl, rfl, hlike⟩
  | absolute hw =>
    refine iff_of_false ?_ ?_
    · rintro ⟨habs, -⟩
      cases habs
    · rintro ⟨name, rfl, -⟩
      cases hw

/-- A path is read as a type, unless it could be a binding and a body follows. -/
theorem clauseHead_of_path {p : TypePath} {w : List Token} (h : p.Written w)
    (hnot : p.LooksBound → d ≠ .brace) :
    clauseHead (w ++ .group d inner :: rest) = typedHead (w ++ .group d inner :: rest) := by
  rw [looksBound_iff h] at hnot
  cases h with
  | @relative head segs w' hname hw =>
    have hunderscore : head ≠ "_" := by
      rintro rfl
      cases hname
    have hno : ¬(isCatchAllName head &&
        (w' ++ .group d inner :: rest).head?.any isBrace) = true := by
      rw [Bool.and_eq_true]
      rintro ⟨hcatch, hbrace⟩
      cases hw with
      | nil =>
        have hd := hnot ⟨head, rfl, hcatch⟩
        cases d with
        | brace => exact hd rfl
        | _ => cases hbrace
      | cons => cases hbrace
    rw [List.cons_append, clauseHead, if_neg hunderscore, if_neg hno]
  | absolute hw =>
    cases hw with
    | cons => rfl

theorem written_of_typedHead {head : ClauseHead} {body : List Token}
    (h : typedHead ts = .ok (head, braces body :: rest))
    (hnot : ∀ name, ts = .ident name :: braces body :: rest → isCatchAllName name = false) :
    ∃ w, head.Written w ∧ ts = w ++ braces body :: rest := by
  obtain ⟨p, name, w, rfl, hp, ⟨rfl, rfl⟩ | ⟨hname, rfl⟩⟩ := typedHead_eq_ok_iff.1 h
  · refine ⟨w, .typed hp fun hbound => ?_, rfl⟩
    obtain ⟨name, rfl, hcatch⟩ := (looksBound_iff hp).1 hbound
    rw [hnot name rfl] at hcatch
    cases hcatch
  · refine ⟨_, .typedBound hp hname, ?_⟩
    rw [List.append_assoc, List.singleton_append]

theorem clauseHead_eq_ok_iff {head : ClauseHead} {body : List Token} :
    clauseHead ts = .ok (head, braces body :: rest) ↔
      ∃ w, head.Written w ∧ ts = w ++ braces body :: rest := by
  constructor
  · intro h
    unfold clauseHead at h
    split at h
    next =>
      cases h
      exact ⟨[], .bare, rfl⟩
    next name ts' =>
      split at h
      next hname =>
        cases h
        cases hname
        exact ⟨_, .wildcard, rfl⟩
      next =>
        split at h
        next hcatch =>
          obtain ⟨⟨⟩, hreserved, h⟩ := bind_eq_ok_iff.1 h
          cases h
          obtain ⟨hname, hlike, hint⟩ := isCatchAllName_eq_true.1 (Bool.and_eq_true_iff.1 hcatch).1
          exact ⟨_, .bound ⟨hname, bindable_eq_ok_iff.1 hreserved⟩ hlike hint, rfl⟩
        next hcatch =>
          refine written_of_typedHead h fun name' hts => Bool.eq_false_iff.2 fun hname => hcatch ?_
          cases hts
          rw [hname]
          rfl
    next ts _ hident => exact written_of_typedHead h fun name hts => absurd hts (hident name _)
  · rintro ⟨w, hw, rfl⟩
    cases hw with
    | bare => rfl
    | wildcard => rfl
    | @bound name hname hlike hint =>
      have hunderscore : name ≠ "_" := by
        rintro rfl
        cases hname.1
      have hcatch : isCatchAllName name = true := isCatchAllName_eq_true.2 ⟨hname.1, hlike, hint⟩
      rw [List.singleton_append, clauseHead, if_neg hunderscore, if_pos (by rw [hcatch]; rfl)]
      exact bind_eq_ok_iff.2 ⟨(), bindable_eq_ok_iff.2 hname.2, rfl⟩
    | typed hp hnot =>
      rw [braces, clauseHead_of_path hp (fun h => absurd h hnot)]
      exact typedHead_eq_ok_iff.2 ⟨_, _, _, rfl, hp, .inl ⟨rfl, rfl⟩⟩
    | @typedBound p w name hp hname =>
      rw [List.append_assoc, List.singleton_append, parens, clauseHead_of_path hp (by simp)]
      exact typedHead_eq_ok_iff.2 ⟨_, _, _, rfl, hp, .inr ⟨hname, rfl⟩⟩

theorem keyword_eq_ok_iff {word name : String} (hword : word = "try" ∨ IsName word) :
    keyword word ts = .ok (name, rest) ↔ name = word ∧ ts = .ident word :: rest := by
  unfold keyword
  split
  next htry =>
    subst htry
    constructor
    · intro h
      unfold tryWord at h
      split at h
      next =>
        split at h
        next hname =>
          cases h
          exact ⟨hname, by rw [hname]⟩
        next => cases h
      next => cases h
    · rintro ⟨rfl, rfl⟩
      rfl
  next htry =>
    constructor
    · intro h
      obtain ⟨⟨name', ts'⟩, hi, hsame⟩ := bind_eq_ok_iff.1 h
      obtain ⟨-, rfl⟩ := identifier_eq_ok_iff.1 hi
      dsimp only at hsame
      split at hsame
      next hname =>
        cases hsame
        exact ⟨hname, by rw [hname]⟩
      next => cases hsame
    · rintro ⟨rfl, rfl⟩
      exact bind_eq_ok_iff.2 ⟨_, identifier_eq_ok_iff.2 ⟨hword.resolve_left htry, rfl⟩, if_pos rfl⟩

theorem isName_catch : IsName "catch" := by
  rw [IsName]
  decide

theorem clause_eq_ok_iff {c : BlockClause} :
    clause ts = .ok (c, rest) ↔ ∃ w, c.Written w ∧ ts = w ++ rest := by
  constructor
  · intro h
    obtain ⟨⟨_, ts₁⟩, hk, h⟩ := bind_eq_ok_iff.1 h
    obtain ⟨⟨head, ts₂⟩, hh, h⟩ := bind_eq_ok_iff.1 h
    obtain ⟨⟨body, ts₃⟩, hb, h⟩ := bind_eq_ok_iff.1 h
    cases h
    cases inBraces_eq_ok_iff.1 hb
    obtain ⟨w, hw, rfl⟩ := clauseHead_eq_ok_iff.1 hh
    obtain ⟨-, rfl⟩ := (keyword_eq_ok_iff (.inr isName_catch)).1 hk
    refine ⟨_, ⟨w, hw, rfl⟩, ?_⟩
    rw [List.append_assoc, List.cons_append, List.singleton_append]
  · rintro ⟨_, ⟨head, hhead, rfl⟩, rfl⟩
    rw [List.append_assoc, List.cons_append, List.singleton_append]
    exact bind_eq_ok_iff.2 ⟨_, (keyword_eq_ok_iff (.inr isName_catch)).2 ⟨rfl, rfl⟩,
      bind_eq_ok_iff.2 ⟨_, clauseHead_eq_ok_iff.2 ⟨head, hhead, rfl⟩, rfl⟩⟩

theorem clauses_of_clause {c : BlockClause} (h : clause ts = .ok (c, rest)) :
    clauses ts = do
      let cs ← clauses rest
      return c :: cs := by
  obtain ⟨_, ⟨head, _, rfl⟩, rfl⟩ := clause_eq_ok_iff.1 h
  have hpeek : peeksKeyword "catch" (.ident "catch" :: head ++ [braces c.body] ++ rest) = true := by
    rw [List.cons_append, List.cons_append, peeksKeyword, isName_catch]
    rfl
  rw [clauses, if_neg (by simp), if_pos hpeek]
  split
  next e he =>
    rw [h] at he
    cases he
  next c' rest' hok =>
    rw [h] at hok
    cases hok
    rfl

theorem clauses_eq_ok_iff {cs : List BlockClause} :
    clauses ts = .ok cs ↔ ClausesWritten cs ts := by
  constructor
  · intro h
    fun_induction clauses ts generalizing cs with
    | case1 ts hempty =>
      cases h
      rw [List.isEmpty_iff.1 hempty]
      exact .nil
    | case2 => cases h
    | case3 ts _ _ c rest hc ih =>
      obtain ⟨cs', hcs, h⟩ := bind_eq_ok_iff.1 h
      cases h
      obtain ⟨w, hw, rfl⟩ := clause_eq_ok_iff.1 hc
      exact .cons hw (ih hcs)
    | case4 => cases h
  · intro h
    induction h with
    | nil => rw [clauses]; rfl
    | @cons c cs w ts hc _ ih =>
      rw [clauses_of_clause (clause_eq_ok_iff.2 ⟨w, hc, rfl⟩), ih]
      rfl

theorem arrow_eq_ok_iff :
    arrow ts = .ok ((), rest) ↔ ∃ s, ts = .punct '=' .joint :: .punct '>' s :: rest := by
  constructor
  · intro h
    unfold arrow at h
    split at h
    next s rest' =>
      cases h
      exact ⟨s, rfl⟩
    next => cases h
  · rintro ⟨s, rfl⟩
    rfl

/-- Reading succeeds on what the grammar allows, and gives the block that is written there. -/
theorem block_eq_ok_iff {b : GuardedBlock} : block ts = .ok b ↔ b.Written ts := by
  constructor
  · intro h
    obtain ⟨⟨runtime, ts₁⟩, hi, h⟩ := bind_eq_ok_iff.1 h
    obtain ⟨⟨⟨⟩, ts₂⟩, ha, h⟩ := bind_eq_ok_iff.1 h
    obtain ⟨⟨_, ts₃⟩, hk, h⟩ := bind_eq_ok_iff.1 h
    obtain ⟨⟨body, ts₄⟩, hb, h⟩ := bind_eq_ok_iff.1 h
    obtain ⟨cs, hcs, h⟩ := bind_eq_ok_iff.1 h
    cases h
    cases inBraces_eq_ok_iff.1 hb
    obtain ⟨-, rfl⟩ := (keyword_eq_ok_iff (.inl rfl)).1 hk
    obtain ⟨s, rfl⟩ := arrow_eq_ok_iff.1 ha
    obtain ⟨hname, rfl⟩ := identifier_eq_ok_iff.1 hi
    exact ⟨s, ts₄, hname, clauses_eq_ok_iff.1 hcs, rfl⟩
  · rintro ⟨s, ts', hname, hcs, rfl⟩
    refine bind_eq_ok_iff.2 ⟨_, identifier_eq_ok_iff.2 ⟨hname, rfl⟩, ?_⟩
    refine bind_eq_ok_iff.2 ⟨_, arrow_eq_ok_iff.2 ⟨s, rfl⟩, ?_⟩
    refine bind_eq_ok_iff.2 ⟨_, (keyword_eq_ok_iff (.inl rfl)).2 ⟨rfl, rfl⟩, ?_⟩
    refine bind_eq_ok_iff.2 ⟨_, inBraces_eq_ok_iff.2 rfl, ?_⟩
    exact bind_eq_ok_iff.2 ⟨_, clauses_eq_ok_iff.2 hcs, rfl⟩

end Parser

/-! ## Printing -/

namespace TypePath

/-- A path is made of names. -/
def WellFormed (p : TypePath) : Prop :=
  ∀ name ∈ p.head :: p.rest, IsName name

theorem segmentsWritten_path {names : List String} (h : ∀ name ∈ names, IsName name) :
    SegmentsWritten names (path names) := by
  induction names with
  | nil => exact .nil
  | cons name names ih =>
    rw [List.forall_mem_cons] at h
    exact .cons .alone h.1 (ih h.2)

theorem written_tokens {p : TypePath} (h : p.WellFormed) : p.Written p.tokens := by
  obtain ⟨absolute, head, rest⟩ := p
  cases absolute with
  | true => exact .absolute (segmentsWritten_path h)
  | false =>
    rw [WellFormed, List.forall_mem_cons] at h
    exact .relative h.1 (segmentsWritten_path h.2)

theorem forall_isName {names : List String} {ts : List Token} (h : SegmentsWritten names ts) :
    ∀ name ∈ names, IsName name := by
  induction h with
  | nil => exact List.forall_mem_nil _
  | cons _ hname _ ih => exact List.forall_mem_cons.2 ⟨hname, ih⟩

theorem Written.wellFormed {p : TypePath} {ts : List Token} (h : p.Written ts) : p.WellFormed := by
  cases h with
  | relative hname hsegs => exact List.forall_mem_cons.2 ⟨hname, forall_isName hsegs⟩
  | absolute hsegs => exact forall_isName hsegs

end TypePath

namespace ClauseHead

def WellFormed : ClauseHead → Prop
  | .all none => True
  | .all (some name) => name = "_" ∨ (IsBindable name ∧ Lexeme.isBindingLike name = true ∧
    Lexeme.isIntegerType name = false)
  | .typed p name => p.WellFormed ∧ (name = "_" ∨ IsBindable name)

/-- The tokens of a head, in which a type always has its binding. -/
def tokens : ClauseHead → List Token
  | .all none => []
  | .all (some name) => [.ident name]
  | .typed p name => p.tokens ++ [parens [.ident name]]

theorem written_tokens {head : ClauseHead} (h : head.WellFormed) : head.Written head.tokens := by
  cases head with
  | all binding =>
    cases binding with
    | none => exact .bare
    | some name =>
      rcases h with rfl | ⟨hname, hlike, hint⟩
      · exact .wildcard
      · exact .bound hname hlike hint
  | typed p name => exact .typedBound (TypePath.written_tokens h.1) h.2

theorem Written.wellFormed {head : ClauseHead} {ts : List Token} (h : head.Written ts) :
    head.WellFormed := by
  cases h with
  | bare => exact trivial
  | wildcard => exact .inl rfl
  | bound hname hlike hint => exact .inr ⟨hname, hlike, hint⟩
  | typed hp _ => exact ⟨hp.wellFormed, .inl rfl⟩
  | typedBound hp hname => exact ⟨hp.wellFormed, hname⟩

end ClauseHead

def BlockClause.tokens (c : BlockClause) : List Token :=
  .ident "catch" :: c.head.tokens ++ [braces c.body]

namespace GuardedBlock

/-- The names of a block are names, and the bindings may be bound. -/
def WellFormed (b : GuardedBlock) : Prop :=
  IsName b.runtime ∧ ∀ c ∈ b.clauses, c.head.WellFormed

def tokens (b : GuardedBlock) : List Token :=
  .ident b.runtime :: .punct '=' .joint :: mark '>' :: .ident "try" :: braces b.body ::
    b.clauses.flatMap BlockClause.tokens

theorem clausesWritten_tokens {cs : List BlockClause} (h : ∀ c ∈ cs, c.head.WellFormed) :
    ClausesWritten cs (cs.flatMap BlockClause.tokens) := by
  induction cs with
  | nil => exact .nil
  | cons c cs ih =>
    rw [List.forall_mem_cons] at h
    exact .cons ⟨_, ClauseHead.written_tokens h.1, rfl⟩ (ih h.2)

theorem forall_wellFormed {cs : List BlockClause} {ts : List Token} (h : ClausesWritten cs ts) :
    ∀ c ∈ cs, c.head.WellFormed := by
  induction h with
  | nil => exact List.forall_mem_nil _
  | cons hc _ ih =>
    obtain ⟨_, hhead, -⟩ := hc
    exact List.forall_mem_cons.2 ⟨hhead.wellFormed, ih⟩

theorem written_tokens {b : GuardedBlock} (h : b.WellFormed) : b.Written b.tokens :=
  ⟨.alone, _, h.1, clausesWritten_tokens h.2, rfl⟩

theorem Written.wellFormed {b : GuardedBlock} {ts : List Token} (h : b.Written ts) :
    b.WellFormed := by
  obtain ⟨_, _, hname, hclauses, -⟩ := h
  exact ⟨hname, forall_wellFormed hclauses⟩

end GuardedBlock

/-- A block is read from exactly the tokens that the grammar has for it. The blocks that can be
printed and read back are those whose names are names and whose bindings may be bound. -/
theorem reading_is_grammar :
    (∀ (ts : List Token) (b : GuardedBlock), Parser.block ts = .ok b ↔ b.Written ts) ∧
      ∀ b : GuardedBlock, Parser.block b.tokens = .ok b ↔ b.WellFormed := by
  refine ⟨fun _ _ => Parser.block_eq_ok_iff, fun b => ?_⟩
  rw [Parser.block_eq_ok_iff]
  exact ⟨GuardedBlock.Written.wellFormed, GuardedBlock.written_tokens⟩

-- `catch i32 { }` is a typed clause, although the name starts like a binding.
example :
    Parser.clause [.ident "catch", .ident "i32", braces []] =
      .ok (⟨.typed ⟨false, "i32", []⟩ "_", []⟩, []) ∧
    Parser.clause [.ident "catch", .ident "i33", braces []] =
      .ok (⟨.all (some "i33"), []⟩, []) := by
  exact ⟨rfl, rfl⟩

-- A name that the code of a block uses cannot be bound, and neither can a keyword.
example :
    Parser.clause [.ident "catch", .ident "rethrow", braces []] = .error (.reserved "rethrow") ∧
    Parser.clause [.ident "catch", .ident "i32", parens [.ident "__raise_i"], braces []] =
      .error (.reserved "__raise_i") ∧
    Parser.clause [.ident "catch", .ident "i32", parens [.ident "fn"], braces []] =
      .error (.foundKeyword "fn") := by
  exact ⟨rfl, rfl, rfl⟩

end Unwind
