import Runbooks.Files.Path

/-!
Disks: directories and files by their place, and the operations of an operating system on them.
Any operation that changes a disk may meet an obstacle, which stands for everything outside the
disk that can refuse it. There are no links on a disk, so that nothing is in two places.
-/

namespace Runbooks

/-- Why the system refuses an operation. -/
inductive SystemError where
  | notFound
  | permissionDenied
  | busy
  | taken
  | notDirectory
  | isDirectory
  | noSpace
  | nameTooLong
  | notSupported
  | nulInPath
  | notUnicode
  deriving DecidableEq, Repr

namespace SystemError

def numbered (text : String) (n : Nat) : String :=
  text ++ " (os error " ++ toString n ++ ")"

def message : SystemError → String
  | notFound => numbered "No such file or directory" 2
  | permissionDenied => numbered "Permission denied" 13
  | busy => numbered "Device or resource busy" 16
  | taken => numbered "File exists" 17
  | notDirectory => numbered "Not a directory" 20
  | isDirectory => numbered "Is a directory" 21
  | noSpace => numbered "No space left on device" 28
  | nameTooLong => numbered "File name too long" 36
  | notSupported => numbered "Operation not supported" 95
  | nulInPath => "file name contained an unexpected NUL byte"
  | notUnicode => "stream did not contain valid UTF-8"

end SystemError

/-- Where something is: the names on the way from the root. -/
abbrev Place := List String

namespace Place

def parent (p : Place) : Place := p.dropLast

def text (p : Place) : String :=
  if p.isEmpty then "/" else String.join (p.map ("/" ++ ·))

end Place

inductive Entry where
  | directory
  | file (bytes : ByteArray) (executable : Bool)

instance : DecidableEq Entry
  | .directory, .directory => isTrue rfl
  | .directory, .file .. => isFalse nofun
  | .file .., .directory => isFalse nofun
  | .file a x, .file b y =>
    decidable_of_decidable_of_iff (p := a.data = b.data ∧ x = y)
      (by rw [Entry.file.injEq, ByteArray.ext_iff])

namespace Entry

def ofText (s : String) : Entry :=
  file s.toUTF8 false

def isDirectory : Entry → Bool
  | directory => true
  | file _ _ => false

end Entry

/-- The entries below the root, which is always a directory. -/
structure Disk where
  entries : List (Place × Entry) := []

namespace Disk

def get? (d : Disk) (p : Place) : Option Entry :=
  if p.isEmpty then some .directory else d.entries.lookup p

def remove (p : Place) (d : Disk) : Disk :=
  ⟨d.entries.filter (·.1 ≠ p)⟩

def put (p : Place) (e : Entry) (d : Disk) : Disk :=
  ⟨(p, e) :: (d.remove p).entries⟩

def isDirectory (d : Disk) (p : Place) : Bool :=
  (d.get? p).any Entry.isDirectory

/-- Puts an entry in its place together with the directories on the way. -/
def provide (p : Place) (e : Entry) (d : Disk) : Disk :=
  let ways := (List.range p.length).map p.take
  (ways.foldl (fun d w => if (d.get? w).isSome then d else d.put w .directory) d).put p e

end Disk

/-- The longest name that a directory holds, in octets. -/
def maxNameSize : Nat := 255

/-- The longest path that the system takes, in octets. -/
def maxPathSize : Nat := 4095

namespace Disk

/-- Follows pieces of a path from a place that is there. -/
def walk (d : Disk) : Place → List String → Except SystemError Place
  | p, [] => .ok p
  | p, piece :: rest =>
    if !d.isDirectory p then .error .notDirectory
    else if !Path.isStep piece then d.walk p rest
    else if piece = ".." then d.walk p.parent rest
    else if maxNameSize < piece.utf8ByteSize then .error .nameTooLong
    else if (d.get? (p ++ [piece])).isSome then d.walk (p ++ [piece]) rest
    else .error .notFound

/-- What no path may look like. -/
def checkPath (path : String) : Except SystemError Unit :=
  if path.toList.contains '\x00' then .error .nulInPath
  else if maxPathSize < path.utf8ByteSize then .error .nameTooLong
  else .ok ()

/-- Where the steps of a path start. -/
def start (cwd : Place) (path : String) : Place :=
  if Path.isAbsolute path then [] else cwd

end Disk

namespace Place

/-- Where some pieces of a path lead by their steps alone. -/
def follow (p : Place) (pieces : List String) : Place :=
  (pieces.filter Path.isStep).foldl
    (fun p piece => if piece = ".." then p.parent else p ++ [piece]) p

/-- Where a path leads by its steps alone. -/
def ofPath (cwd : Place) (path : String) : Place :=
  follow (Disk.start cwd path) (Path.pieces path)

end Place

namespace Disk

/-- The place that a path leads to, if anything is there. -/
def find (d : Disk) (cwd : Place) (path : String) : Except SystemError Place := do
  checkPath path
  if path.isEmpty then .error .notFound
  else d.walk (start cwd path) (Path.pieces path)

def exists? (d : Disk) (cwd : Place) (path : String) : Bool :=
  (d.find cwd path).toBool

/-- The text of a file. -/
def read (d : Disk) (cwd : Place) (path : String) : Except SystemError String := do
  let p ← d.find cwd path
  match d.get? p with
  | some (.file bytes _) =>
    match String.fromUTF8? bytes with
    | some s => .ok s
    | none => .error .notUnicode
  | some .directory => .error .isDirectory
  | none => .error .notFound

/-- Whether a path leads to a file that may be executed. -/
def isProgram (d : Disk) (cwd : Place) (path : String) : Bool :=
  match d.find cwd path with
  | .error _ => false
  | .ok p =>
    match d.get? p with
    | some (.file _ executable) => executable
    | _ => false

end Disk

/-- A change of a disk. -/
inductive Operation where
  | makeDirectory (place : Place)
  | create (place : Place)
  | fill (place : Place)
  | move (source target : Place)
  deriving DecidableEq

/-- What stands in the way of an operation, if anything does. -/
abbrev Obstacle := Operation → Option SystemError

namespace Obstacle

def none : Obstacle := fun _ => .none

end Obstacle

namespace Disk

/-- Follows pieces of a path and makes the directories that are missing on the way. What was made
before a failure stays. -/
def makeWay (o : Obstacle) : Place → List String → Disk → Except SystemError Place × Disk
  | p, [], d => (.ok p, d)
  | p, piece :: rest, d =>
    if !d.isDirectory p then (.error .notDirectory, d)
    else if !Path.isStep piece then makeWay o p rest d
    else if piece = ".." then makeWay o p.parent rest d
    else if maxNameSize < piece.utf8ByteSize then (.error .nameTooLong, d)
    else if (d.get? (p ++ [piece])).isSome then makeWay o (p ++ [piece]) rest d
    else match o (.makeDirectory (p ++ [piece])) with
      | some e => (.error e, d)
      | .none => makeWay o (p ++ [piece]) rest (d.put (p ++ [piece]) .directory)

/-- Makes the directory that a path leads to; the empty path asks for nothing. -/
def makeDirectories (o : Obstacle) (cwd : Place) (path : String) (d : Disk) :
    Except SystemError Unit × Disk :=
  match checkPath path with
  | .error e => (.error e, d)
  | .ok () =>
    if path.isEmpty then (.ok (), d)
    else match makeWay o (start cwd path) (Path.pieces path) d with
      | (.error e, d) => (.error e, d)
      | (.ok p, d) => (if d.isDirectory p then .ok () else .error .taken, d)

/-- A name that is longer than every name on the disk and than any that a path may hold, so that no
path leads to what goes by it. -/
def freshName (d : Disk) : String :=
  let names := d.entries.flatMap Prod.fst
  let size := names.foldr (fun name n => name.utf8ByteSize + n) (maxNameSize + 1)
  String.ofList (List.replicate size '~')

/-- The place of the directory that a path names something in. -/
def directoryOf (d : Disk) (cwd : Place) (path : String) : Except SystemError Place := do
  checkPath path
  let p ← d.walk (start cwd path) ((Path.parentPieces? path).getD [])
  if d.isDirectory p then .ok p else .error .notDirectory

/-- Writes a text to a temporary file in the directory of a path, and gives its place. A file that
cannot be filled is removed again. -/
def stage (o : Obstacle) (cwd : Place) (path text : String) (d : Disk) :
    Except SystemError Place × Disk :=
  match d.directoryOf cwd path with
  | .error e => (.error e, d)
  | .ok directory =>
    let p := directory ++ [d.freshName]
    match o (.create p) with
    | some e => (.error e, d)
    | .none =>
      let created := d.put p (.ofText "")
      match o (.fill p) with
      | some e => (.error e, created.remove p)
      | .none => (.ok p, created.put p (.ofText text))

/-- The place of a file that a path leads to, whether the file is there or not. -/
def target (d : Disk) (cwd : Place) (path : String) : Except SystemError Place := do
  checkPath path
  let pieces := (Path.pieces path).reverse
  let trailing := pieces.takeWhile String.isEmpty
  match pieces.dropWhile String.isEmpty with
  | [] => .error (if path.isEmpty then .notFound else .busy)
  | name :: before =>
    let directory ← d.walk (start cwd path) before.reverse
    if !d.isDirectory directory then .error .notDirectory
    else if name = "." || name = ".." then .error .busy
    else if maxNameSize < name.utf8ByteSize then .error .nameTooLong
    else if d.isDirectory (directory ++ [name]) then .error .isDirectory
    else if !trailing.isEmpty then .error .notDirectory
    else .ok (directory ++ [name])

/-- Moves a file to where a path leads, over a file that may be there. -/
def move (o : Obstacle) (cwd : Place) (source : Place) (path : String) (d : Disk) :
    Except SystemError Place × Disk :=
  match d.target cwd path with
  | .error e => (.error e, d)
  | .ok p =>
    match o (.move source p), d.get? source with
    | some e, _ => (.error e, d)
    | .none, .none => (.error .notFound, d)
    | .none, some e => (.ok p, (d.remove source).put p e)

end Disk

end Runbooks
