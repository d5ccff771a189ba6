/-!
Paths as texts: pieces between slashes, joining, the directory of a path, and the name and
extension that it ends in. Whether anything is there is a question for a disk. Names that are not
well-formed Unicode cannot be said.
-/

namespace Runbooks.Path

/-- The pieces between the slashes, empty ones included. -/
def pieces (path : String) : List String :=
  (split [] path.toList).map String.ofList
where
  split (acc : List Char) : List Char → List (List Char)
    | [] => [acc.reverse]
    | c :: rest => if c = '/' then acc.reverse :: split [] rest else split (c :: acc) rest

def isAbsolute (path : String) : Bool :=
  path.toList.head? = some '/'

/-- The name below the directory; an absolute name stands for itself. -/
def join (directory name : String) : String :=
  if isAbsolute name || directory.isEmpty then name
  else if directory.toList.getLast? = some '/' then directory ++ name
  else directory ++ "/" ++ name

/-- Whether a piece takes a step: empty pieces and single dots do not. -/
def isStep (piece : String) : Bool :=
  !piece.isEmpty && piece ≠ "."

/-- The pieces that take a step, except that a dot at the very start counts too. -/
def components (path : String) : List String :=
  match pieces path with
  | "." :: rest => "." :: rest.filter isStep
  | ps => ps.filter isStep

/-- The pieces up to the last that counts, without it; nothing for a path with none. -/
def parentPieces? (path : String) : Option (List String) :=
  match pieces path with
  | "." :: rest => some (drop ("." :: rest))
  | ps => if ps.any isStep then some (drop ps) else none
where
  /-- Drops the last piece that counts and what stands behind it. -/
  drop (ps : List String) : List String :=
    let kept := ps.reverse.dropWhile (!isStep ·)
    (kept.drop 1).reverse

/-- The name that a path ends in, if it ends in one. -/
def fileName? (path : String) : Option String :=
  match (components path).getLast? with
  | some name => if name = "." || name = ".." then none else some name
  | none => none

/-- What stands behind the last dot of the name, unless the name starts with that dot. -/
def extension? (path : String) : Option String := do
  let name ← fileName? path
  let behind := name.toList.reverse.takeWhile (· ≠ '.')
  if behind.length + 1 < name.length then some (String.ofList behind.reverse) else none

end Runbooks.Path
