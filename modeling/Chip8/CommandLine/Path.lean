/-!
# Paths

A path is a walk through folders, a step for each of its parts. Slashes part it, and an empty part
is no step, so several slashes are as good as one: a single dot stays where the walk is, two dots
go up to the folder above, and any other part is a name. A path that starts with a slash starts at
the root, and one that ends with a slash says that a folder is there.
-/

namespace Chip8

/-- A step of a path. -/
inductive PathStep where
  /-- Stay where the walk is. -/
  | stay
  /-- Go up to the folder above. -/
  | up
  /-- Go to what has a name. -/
  | enter (name : String)
  deriving DecidableEq, Repr

/-- The step that a part of a path stands for. -/
def PathStep.ofPart? (part : List Char) : Option PathStep :=
  match part with
  | [] => none
  | ['.'] => some .stay
  | ['.', '.'] => some .up
  | name => some (.enter (String.ofList name))

/-- A path. -/
structure Path where
  /-- Whether the walk starts at the root. -/
  startsAtRoot : Bool
  steps : List PathStep
  /-- Whether the path says that it leads to a folder. -/
  endsInSlash : Bool
  deriving DecidableEq, Repr

namespace Path

/-- The most bytes that a path has. -/
def maxSize : Nat := 4095

/-- The most bytes that a name in a path has. -/
def maxNameSize : Nat := 255

/-- The path that a text spells. -/
def ofString (text : String) : Path where
  startsAtRoot := text.toList.head? = some '/'
  steps := (text.toList.splitOn '/').filterMap PathStep.ofPart?
  endsInSlash := text.toList.getLast? = some '/'

end Path

end Chip8
