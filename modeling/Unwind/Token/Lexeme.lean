import Unwind.Text.IdentifierPart
import Unwind.Text.Lowercase
import Unwind.Token.Basic
import Unwind.Token.Literal

/-!
# Lexemes

Which texts can be identifiers and punctuation, which words are keywords, and how the names of
bindings are told from the names of types.
-/

namespace Unwind.Lexeme

def isPunctuation (c : Char) : Bool :=
  c ∈ "=<>!~+-*/%^&|@.,;:#$?\x27".toList

/-- Whether a text is an identifier, apart from raw ones. -/
def isPlainIdentifier (s : String) : Bool :=
  match s.toList with
  | [] => false
  | c :: cs => (c = '_' || Text.isIdentifierStart c) && cs.all Text.isIdentifierPart

/-- The words that cannot be made raw. -/
def neverRaw : List String :=
  ["self", "Self", "super", "crate", "_"]

/-- Whether a text is an identifier. A raw one starts with `r#`. -/
def isIdentifier (s : String) : Bool :=
  match s.toList with
  | 'r' :: '#' :: cs =>
    isPlainIdentifier (String.ofList cs) && String.ofList cs ∉ neverRaw
  | _ => isPlainIdentifier s

/-- The words that do not count as identifiers in the grammar of guarded blocks. -/
def keywords : List String :=
  ["_", "abstract", "as", "async", "await", "become", "box", "break", "const", "continue", "crate",
   "do", "dyn", "else", "enum", "extern", "false", "final", "fn", "for", "if", "impl", "in", "let",
   "loop", "macro", "match", "mod", "move", "mut", "override", "priv", "pub", "ref", "return",
   "Self", "self", "static", "struct", "super", "trait", "true", "try", "type", "typeof", "unsafe",
   "unsized", "use", "virtual", "where", "while", "yield"]

def isKeyword (s : String) : Bool :=
  s ∈ keywords

/-- Whether a name looks like a binding: it starts with a lowercase letter or an underscore. -/
def isBindingLike (s : String) : Bool :=
  match s.toList with
  | [] => false
  | c :: _ => c = '_' || Text.isLowercase c

/-- The names of the integer types, which look like bindings but name types. -/
def integerTypes : List String :=
  ["i8", "i16", "i32", "i64", "i128", "isize", "u8", "u16", "u32", "u64", "u128", "usize"]

def isIntegerType (s : String) : Bool :=
  s ∈ integerTypes

/-- Whether a name is used by the code that a guarded block expands to. -/
def isReserved (s : String) : Bool :=
  s = "__handling" || s = "rethrow" || "__raise_".toList.isPrefixOf s.toList

end Unwind.Lexeme
