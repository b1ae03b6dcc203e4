import Unwind.Token.Basic

/-!
# Errors in guarded blocks
-/

namespace Unwind

/-- What a parser looked for. -/
inductive Expected where
  | identifier
  | parentheses
  | tryWord
  deriving DecidableEq

def Expected.text : Expected → String
  | .identifier => "expected identifier"
  | .parentheses => "expected parentheses"
  | .tryWord => "expected `try`"

/-- Why a guarded block cannot be read or expanded. -/
inductive BlockError where
  /-- Something else was found, or no token was left. -/
  | expected (what : Expected) (atEnd : Bool)
  | foundKeyword (name : String)
  | arrow
  | word (name : String)
  | clause
  | body
  | singleBinding
  | reserved (name : String)
  /-- Tokens are left after the whole. -/
  | leftOver
  | noClauses
  | secondCatchAll
  | afterCatchAll
  | rethrowOutsideClause
  | noMarker
  | emptyInput
  | unknownMarker (name : String)
  | emptyBlock
  | noHandling
  | emptyNested
  /-- The block does not start with a name and an arrow. -/
  | notNamed
  | tryWithoutBody
  | notTry (found : Token)
  | nothingAfterArrow

def BlockError.message : BlockError → String
  | .expected what false => what.text
  | .expected what true => "unexpected end of input, " ++ what.text
  | .foundKeyword name => s!"expected identifier, found keyword `{name}`"
  | .arrow => "expected `=>`"
  | .word name => s!"expected `{name}`"
  | .clause => "expected `catch` clause"
  | .body => "expected `\x7b \x7d` body for handler"
  | .singleBinding => "expected a single binding: `catch Type(e) \x7b ... \x7d`"
  | .reserved name => s!"`{name}` is reserved for internal use; choose a different binding name"
  | .leftOver => "unexpected token"
  | .noClauses => "guarded region needs at least one clause: " ++
    "`catch Type(e) \x7b ... \x7d` or `catch \x7b ... \x7d`"
  | .secondCatchAll => "only one catch-all clause is allowed per region"
  | .afterCatchAll => "clause after a catch-all is unreachable; the catch-all must be last"
  | .rethrowOutsideClause => "`rethrow` is only allowed inside a `catch` clause"
  | .noMarker => "expected pattern marker"
  | .emptyInput => "empty input to __guarded_proc"
  | .unknownMarker name => s!"unknown pattern marker: {name}"
  | .emptyBlock => "empty guarded! block"
  | .noHandling => "expected handling ident after nested marker"
  | .emptyNested => "empty nested region"
  | .notNamed => "expected `runtime => try \x7b ... \x7d`: " ++
    "name the `&mut Runtime` the region runs on"
  | .tryWithoutBody => "`try` requires a body: `try \x7b ... \x7d`"
  | .notTry found => s!"expected `try`, found `{found.text}`"
  | .nothingAfterArrow => "expected `try \x7b ... \x7d` after `=>`"

/-- A computation goes through just if each of its parts does. -/
theorem bind_eq_ok_iff {ε α β : Type} {x : Except ε α} {f : α → Except ε β} {b : β} :
    x >>= f = .ok b ↔ ∃ a, x = .ok a ∧ f a = .ok b := by
  constructor
  · intro h
    cases x with
    | error e => cases h
    | ok a => exact ⟨a, rfl, h⟩
  · rintro ⟨a, rfl, h⟩
    exact h

end Unwind
