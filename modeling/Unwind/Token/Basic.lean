/-!
# Token trees

Program text after lexing: identifiers, punctuation characters, literals, and groups of tokens
between delimiters.
-/

namespace Unwind

/-- Whether a punctuation character forms an operator with the one that follows it. -/
inductive Spacing where
  | alone
  | joint
  deriving DecidableEq

inductive Delimiter where
  | parenthesis
  | brace
  | bracket
  /-- A group without written delimiters. -/
  | invisible
  deriving DecidableEq

inductive Token where
  | ident (text : String)
  | punct (c : Char) (spacing : Spacing)
  | literal (text : String)
  | group (d : Delimiter) (inner : List Token)

namespace Token

theorem sizeOf_le_of_sublist {ts ts' : List Token} (h : ts.Sublist ts') :
    sizeOf ts ≤ sizeOf ts' := by
  induction h with
  | slnil => exact Nat.le_refl _
  | cons _ _ ih =>
    rw [List.cons.sizeOf_spec]
    omega
  | cons_cons _ _ ih =>
    rw [List.cons.sizeOf_spec, List.cons.sizeOf_spec]
    omega

def isPunct (c : Char) : Token → Bool
  | .punct c' _ => c' = c
  | _ => false

def isIdent (text : String) : Token → Bool
  | .ident text' => text' = text
  | _ => false

def isGroup : Token → Bool
  | .group .. => true
  | _ => false

def isBrace : Token → Bool
  | .group .brace _ => true
  | _ => false

def isJoint : Token → Bool
  | .punct _ .joint => true
  | _ => false

mutual

def text : Token → String
  | .ident text => text
  | .punct c _ => c.toString
  | .literal text => text
  | .group .parenthesis inner => "(" ++ textOf inner ++ ")"
  | .group .bracket inner => "[" ++ textOf inner ++ "]"
  | .group .brace inner =>
    "\x7b " ++ textOf inner ++ (if inner.isEmpty then "\x7d" else " \x7d")
  | .group .invisible inner => textOf inner

/-- The texts of tokens with one blank between them, but none after a joint character. -/
def textOf : List Token → String
  | [] => ""
  | t :: rest => text t ++ (if rest.isEmpty || t.isJoint then "" else " ") ++ textOf rest

end

/-- The double colon of a path. -/
def pathSep : List Token :=
  [.punct ':' .joint, .punct ':' .alone]

/-- A path from the root: each segment after a double colon. -/
def path (segments : List String) : List Token :=
  segments.flatMap fun s => pathSep ++ [.ident s]

def parens (inner : List Token) : Token :=
  .group .parenthesis inner

def braces (inner : List Token) : Token :=
  .group .brace inner

/-- A punctuation character that stands alone. -/
def mark (c : Char) : Token :=
  .punct c .alone

end Token

end Unwind
