import Scaffold.Text.Parts

/-!
# Paths

A path is a text of names separated by slashes.  It is absolute when it starts
with a slash.  `Path.names` cuts it, with an empty name where two slashes meet
and where the path starts or ends with one.

The cleaned directory of a path is what is left of it without its last name,
with `.` and empty names dropped and each `..` undoing the name before it.  An
absolute path has nothing above its root, and in a relative one the `..` at the
front stay.

A path may not hold the null character.  A name takes at most 255 bytes and a
path at most 4095.
-/

namespace Scaffold.Path

/-- Whether a path starts at the root. -/
def isAbsolute (path : String) : Bool := path.toList.head? == some '/'

/-- The greatest number of bytes of a name. -/
def nameLimit : Nat := 255

/-- The greatest number of bytes of a path. -/
def sizeLimit : Nat := 4095

/-- Whether a name takes too many bytes. -/
def isLongName (name : String) : Bool := nameLimit < name.utf8ByteSize

/-- The names of a path, in order. -/
def names (path : String) : List String :=
  (Text.splitOn '/' path.toList).map String.ofList

/-- The path with the given names. -/
def ofNames (absolute : Bool) (names : List String) : String :=
  (if absolute then "/" else "") ++ "/".intercalate names

/-- Names without the empty ones at the end. -/
def trimNames (names : List String) : List String := (names.reverse.dropWhile (· = "")).reverse

/-- The non-empty beginnings of a list of names, shortest first. -/
def steps : List String → List (List String)
  | [] => []
  | name :: names => [name] :: (steps names).map (name :: ·)

/-- Whether a name stays where it is. -/
def isStay (name : String) : Bool := name = "" || name = "."

/-- One more name at the end of cleaned names. -/
def push (absolute : Bool) (clean : List String) (name : String) : List String :=
  if isStay name then clean
  else if name = ".." then match clean.getLast? with
    | none => if absolute then [] else [name]
    | some ".." => clean ++ [name]
    | some _ => clean.dropLast
  else clean ++ [name]

/-- The cleaned names of the directory of a path. -/
def directory (path : String) : List String :=
  (names path).dropLast.foldl (push (isAbsolute path)) []

end Scaffold.Path
