import Unwind.Block.Error
import Unwind.Token.Lexeme

/-!
# Reading guarded blocks

A guarded block is a name, an arrow, `try` with a body, and catch clauses. A clause is a catch-all,
with or without a name for the payload, or it names a type and a binding:

```text
rt => try { .. } catch Type(e) { .. } catch Type { .. } catch e { .. }
```

A parser takes tokens and returns what it read with the tokens that are left.
-/

namespace Unwind

/-- A path of names, from the root if it is absolute. -/
structure TypePath where
  absolute : Bool
  head : String
  rest : List String

def TypePath.tokens (p : TypePath) : List Token :=
  (if p.absolute then Token.pathSep else []) ++ .ident p.head :: Token.path p.rest

/-- Which payloads a catch clause takes and what it calls them. -/
inductive ClauseHead where
  | all (binding : Option String)
  | typed (path : TypePath) (binding : String)

namespace ClauseHead

def takesAll : ClauseHead → Bool
  | .all _ => true
  | .typed .. => false

def path? : ClauseHead → Option TypePath
  | .all _ => none
  | .typed path _ => some path

def binding? : ClauseHead → Option String
  | .all binding => binding
  | .typed _ binding => some binding

end ClauseHead

structure BlockClause where
  head : ClauseHead
  body : List Token

structure GuardedBlock where
  /-- The name of the machine that the block runs on. -/
  runtime : String
  body : List Token
  clauses : List BlockClause

abbrev Parser (α : Type) := List Token → Except BlockError (α × List Token)

namespace Parser

variable {α : Type}

def expected (what : Expected) (ts : List Token) : Except BlockError α :=
  .error (.expected what ts.isEmpty)

/-- A name that is not a keyword. -/
def identifier : Parser String
  | .ident name :: rest =>
    if Lexeme.isKeyword name then .error (.foundKeyword name) else .ok (name, rest)
  | ts => expected .identifier ts

/-- The word `try`. -/
def tryWord : Parser String
  | .ident name :: rest =>
    if name = "try" then .ok (name, rest) else expected .tryWord (.ident name :: rest)
  | ts => expected .tryWord ts

/-- A given word. -/
def keyword (word : String) : Parser String := fun ts =>
  if word = "try" then tryWord ts
  else do
    let (name, rest) ← identifier ts
    if name = word then .ok (name, rest) else .error (.word word)

/-- Whether the next token is a given word. -/
def peeksKeyword (word : String) (ts : List Token) : Bool :=
  match ts with
  | .ident name :: _ => name = word && (word = "try" || !Lexeme.isKeyword name)
  | _ => false

def arrow : Parser Unit
  | .punct '=' .joint :: .punct '>' _ :: rest => .ok ((), rest)
  | _ => .error .arrow

/-- A body in braces. -/
def inBraces : Parser (List Token)
  | .group .brace inner :: rest => .ok (inner, rest)
  | _ => .error .body

/-- The segments of a path, each after a double colon. -/
def segments : Parser (List String)
  | .punct ':' .joint :: .punct ':' _ :: .ident name :: rest =>
    if Lexeme.isKeyword name then .error (.foundKeyword name)
    else do
      let (names, rest) ← segments rest
      return (name :: names, rest)
  | .punct ':' .joint :: .punct ':' _ :: ts => expected .identifier ts
  | ts => .ok ([], ts)

def typePath : Parser TypePath := fun ts => do
  let (absolute, ts) := match ts with
    | .punct ':' .joint :: .punct ':' _ :: rest => (true, rest)
    | ts => (false, ts)
  let (head, ts) ← identifier ts
  let (rest, ts) ← segments ts
  return ({ absolute, head, rest }, ts)

/-- A name that may be bound: one that the expansion does not use itself. -/
def bindable (name : String) : Except BlockError Unit :=
  if Lexeme.isReserved name then .error (.reserved name) else .ok ()

/-- The name between the parentheses of a binding. -/
def bindingName : Parser String
  | .ident name :: rest => if name = "_" then .ok (name, rest) else identifier (.ident name :: rest)
  | ts => identifier ts

/-- A binding in parentheses. -/
def binding : Parser String
  | .group .parenthesis inner :: rest => do
    let (name, left) ← bindingName inner
    if left.isEmpty then
      bindable name
      return (name, rest)
    else .error .singleBinding
  | ts => expected .parentheses ts

/-- The binding of a typed clause, which may be missing. -/
def optionalBinding : Parser String
  | .group .parenthesis inner :: rest => binding (.group .parenthesis inner :: rest)
  | ts => .ok ("_", ts)

def typedHead : Parser ClauseHead := fun ts => do
  let (path, ts) ← typePath ts
  let (name, ts) ← optionalBinding ts
  return (.typed path name, ts)

/-- Whether a name stands for the payload of a catch-all, when a body follows it. -/
def isCatchAllName (name : String) : Bool :=
  !Lexeme.isKeyword name && Lexeme.isBindingLike name && !Lexeme.isIntegerType name

/-- What stands between `catch` and the body. -/
def clauseHead : Parser ClauseHead
  | .group .brace inner :: rest => .ok (.all none, .group .brace inner :: rest)
  | .ident name :: rest =>
    if name = "_" then .ok (.all (some name), rest)
    else if isCatchAllName name && (rest.head?.any Token.isBrace) then do
      bindable name
      return (.all (some name), rest)
    else typedHead (.ident name :: rest)
  | ts => typedHead ts

def clause : Parser BlockClause := fun ts => do
  let (_, ts) ← keyword "catch" ts
  let (head, ts) ← clauseHead ts
  let (body, ts) ← inBraces ts
  return ({ head, body }, ts)

/-! ## What a parser leaves

A clause takes at least the word `catch`, so a list of clauses comes to an end. -/

theorem identifier_length {ts rest : List Token} {name : String}
    (h : identifier ts = .ok (name, rest)) : rest.length < ts.length := by
  unfold identifier at h
  split at h
  · split at h <;> cases h
    simp
  · cases h

theorem segments_length {ts rest : List Token} {names : List String}
    (h : segments ts = .ok (names, rest)) : rest.length ≤ ts.length := by
  fun_induction segments ts generalizing names with
  | case1 => cases h
  | case2 _ _ _ _ ih =>
    obtain ⟨_, hs, h⟩ := bind_eq_ok_iff.1 h
    cases h
    have := ih hs
    simp only [List.length_cons]
    omega
  | case3 => cases h
  | case4 => cases h; exact Nat.le_refl _

theorem typePath_length {ts rest : List Token} {p : TypePath}
    (h : typePath ts = .ok (p, rest)) : rest.length ≤ ts.length := by
  unfold typePath at h
  split at h
  next absolute ts' hts =>
    obtain ⟨⟨_, ts₁⟩, hi, h⟩ := bind_eq_ok_iff.1 h
    obtain ⟨⟨_, ts₂⟩, hs, h⟩ := bind_eq_ok_iff.1 h
    cases h
    have h₁ := identifier_length hi
    have h₂ := segments_length hs
    have h₀ : ts'.length ≤ ts.length := by
      split at hts <;> cases hts <;> simp
      omega
    omega

theorem optionalBinding_length {ts rest : List Token} {name : String}
    (h : optionalBinding ts = .ok (name, rest)) : rest.length ≤ ts.length := by
  unfold optionalBinding at h
  split at h
  · unfold binding at h
    obtain ⟨⟨_, left⟩, _, h⟩ := bind_eq_ok_iff.1 h
    dsimp only at h
    split at h
    · obtain ⟨_, _, h⟩ := bind_eq_ok_iff.1 h
      cases h
      simp
    · cases h
  · cases h; exact Nat.le_refl _

theorem typedHead_length {ts rest : List Token} {head : ClauseHead}
    (h : typedHead ts = .ok (head, rest)) : rest.length ≤ ts.length := by
  obtain ⟨⟨_, ts₁⟩, hp, h⟩ := bind_eq_ok_iff.1 h
  obtain ⟨⟨_, ts₂⟩, hb, h⟩ := bind_eq_ok_iff.1 h
  cases h
  exact Nat.le_trans (optionalBinding_length hb) (typePath_length hp)

theorem clauseHead_length {ts rest : List Token} {head : ClauseHead}
    (h : clauseHead ts = .ok (head, rest)) : rest.length ≤ ts.length := by
  unfold clauseHead at h
  split at h
  · cases h; exact Nat.le_refl _
  · split at h
    · cases h; simp
    · split at h
      · obtain ⟨_, _, h⟩ := bind_eq_ok_iff.1 h
        cases h; simp
      · exact typedHead_length h
  · exact typedHead_length h

theorem inBraces_length {ts rest body : List Token}
    (h : inBraces ts = .ok (body, rest)) : rest.length < ts.length := by
  unfold inBraces at h
  split at h <;> cases h
  simp

theorem clause_length {ts rest : List Token} {c : BlockClause}
    (h : clause ts = .ok (c, rest)) : rest.length < ts.length := by
  obtain ⟨⟨_, ts₁⟩, hk, h⟩ := bind_eq_ok_iff.1 h
  obtain ⟨⟨_, ts₂⟩, hh, h⟩ := bind_eq_ok_iff.1 h
  obtain ⟨⟨_, ts₃⟩, hb, h⟩ := bind_eq_ok_iff.1 h
  cases h
  have h₁ : ts₁.length ≤ ts.length := by
    obtain ⟨⟨_, ts₀⟩, hi, hk⟩ := bind_eq_ok_iff.1 hk
    dsimp only at hk
    split at hk <;> cases hk
    exact Nat.le_of_lt (identifier_length hi)
  have h₂ := clauseHead_length hh
  have h₃ := inBraces_length hb
  omega

/-- Catch clauses up to the end of the tokens. -/
def clauses (ts : List Token) : Except BlockError (List BlockClause) :=
  if ts.isEmpty then
    .ok []
  else if peeksKeyword "catch" ts then
    match _h : clause ts with
    | .error e => .error e
    | .ok (clause, rest) => do
      let clauses ← clauses rest
      return clause :: clauses
  else
    .error .clause
termination_by ts.length
decreasing_by exact clause_length ‹_›

/-- A guarded block, up to the end of the tokens. -/
def block (ts : List Token) : Except BlockError GuardedBlock := do
  let (runtime, ts) ← identifier ts
  let (_, ts) ← arrow ts
  let (_, ts) ← keyword "try" ts
  let (body, ts) ← inBraces ts
  let clauses ← clauses ts
  return { runtime, body, clauses }

/-- A parser for the whole of its tokens. -/
def whole (p : Parser α) (ts : List Token) : Except BlockError α := do
  let (a, rest) ← p ts
  if rest.isEmpty then .ok a else .error .leftOver

end Parser

namespace GuardedBlock

/-- Check clauses after others, of which the last is a catch-all if `afterCatchAll`. -/
def checkOrder : (afterCatchAll : Bool) → List BlockClause → Except BlockError Unit
  | _, [] => .ok ()
  | true, clause :: _ =>
    .error (if clause.head.takesAll then .secondCatchAll else .afterCatchAll)
  | false, clause :: rest => checkOrder clause.head.takesAll rest

/-- A block has at least one clause, and nothing comes after a catch-all. -/
def check (b : GuardedBlock) : Except BlockError Unit :=
  if b.clauses.isEmpty then .error .noClauses else checkOrder false b.clauses

end GuardedBlock

end Unwind
