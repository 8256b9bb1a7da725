/-!
# Paths

A path is a text that slashes divide into parts. A part names an entry of a directory, with three
exceptions: an empty part and a single dot stay where they are, and two dots go up. What comes first
counts as a part of its own kind, so that a leading slash or dot is never dropped.

`fileName?` and `directory` take a path apart without looking at any directory: idle parts at the
end of a path, as in `a/b/.`, do not count.
-/

namespace ResonantGraph.Path

/-- The texts between the slashes of a path. -/
def parts (path : String) : List String := path.splitOn "/"

/-- Whether a part stays where it is. -/
def isIdle (part : String) : Bool := part = "" || part = "."

/-- Whether a path begins at the root. -/
def isAbsolute (path : String) : Bool := path.toList.head? = some '/'

/-- Drops the idle parts at the end, but never the first part. -/
def trimIdle : List String → List String
  | [] => []
  | first :: rest => first :: (rest.reverse.dropWhile isIdle).reverse

/-- Whether a part names an entry of the directory it is looked up in. -/
def isName (part : String) : Bool := !isIdle part && part ≠ ".."

/-- The name that a path ends in, if it ends in one. -/
def fileName? (path : String) : Option String :=
  ((trimIdle (parts path)).getLast?).filter isName

/-- The path of the directory that a path leads into: the working directory for a lone part. -/
def directory (path : String) : String :=
  match (trimIdle (parts path)).dropLast with
  | [] => "."
  | front =>
    match trimIdle front with
    | [""] => "/"
    | front => "/".intercalate front

end ResonantGraph.Path
