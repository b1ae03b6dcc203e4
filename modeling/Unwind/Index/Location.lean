import Unwind.Text.FileName

/-!
# Source locations
-/

namespace Unwind

/-- A position in a source file. The default location is in no file. -/
structure Location where
  file : String := ""
  line : Nat := 0
  column : Nat := 0
  deriving DecidableEq

namespace Location

/-- The base name of the file, line and column; nothing for a location in no file. A path that
names no file is written out. -/
def text (loc : Location) : String :=
  if loc.file = "" then ""
  else
    let name := (Text.fileName? loc.file).getD loc.file
    s!"{name}:{loc.line}:{loc.column}"

/-- Lexicographic order of lists of numbers. -/
def lexLE : List Nat → List Nat → Bool
  | [], _ => true
  | _ :: _, [] => false
  | a :: as, b :: bs => a < b || (a = b && lexLE as bs)

/-- Order of texts by code points. -/
def textLE (s t : String) : Bool :=
  lexLE (s.toList.map Char.toNat) (t.toList.map Char.toNat)

/-- Order by file, then line, then column. -/
def le (a b : Location) : Bool :=
  if a.file = b.file then lexLE [a.line, a.column] [b.line, b.column] else textLE a.file b.file

/-- Locations in order. -/
def sort (locs : List Location) : List Location :=
  locs.mergeSort le

end Location

end Unwind
