/-!
# File names

The part of a path that names the file. Parts are separated by `/`; empty parts and `.` are passed
over, except for a `.` at the very start.
-/

namespace Unwind.Text

/-- The parts of a path that count, in order. -/
def pathParts (path : String) : List String :=
  match path.splitOn "/" with
  | [] => []
  | first :: rest =>
    (if first = "" then [] else [first]) ++ rest.filter fun part => part ≠ "" && part ≠ "."

/-- The last part of a path, if it names a file: `..` and a leading `.` do not. -/
def fileName? (path : String) : Option String :=
  match (pathParts path).getLast? with
  | none => none
  | some part => if part = ".." || part = "." then none else some part

end Unwind.Text
