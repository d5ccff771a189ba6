import Runbooks.Config.Override

namespace Runbooks

/-- What a started engine prints, and the status it ends with: none where a signal ends it. -/
structure Launch where
  output : String := ""
  ending : Except SystemError (Option Int)

/-- Where a command runs: its surroundings as far as it sees them. -/
structure Machine where
  disk : Disk
  cwd : Place
  vars : Variables
  /-- The home directory that the system keeps for the user, for where no variable names one. -/
  home : Option String := none
  /-- What starting a program with arguments comes to, as the disk is then. -/
  launch : Disk → String → List String → Launch
  obstacle : Obstacle := .none
  /-- Whether standard output is a terminal. -/
  terminal : Bool := false
  /-- The time, as log lines show it. -/
  stamp : String := ""
  /-- How long the command took until the engine had ended. -/
  elapsed : String := ""

structure Engine where
  executable : String := "ansible-playbook"
  debugVerbosity : UInt8 := 2
  extraArgs : List String := []
  deriving DecidableEq, Repr

namespace Engine

def ofConfig (c : Config) : Engine where
  executable := c.executable
  debugVerbosity := c.debugVerbosity
  extraArgs := c.extraArgs

/-- The flag that makes the engine talkative, with a letter for each degree. -/
def verbosityFlag (e : Engine) : String :=
  String.ofList ('-' :: List.replicate e.debugVerbosity.toNat 'v')

def arguments (e : Engine) (inventory playbook : String) (debug : Bool) : List String :=
  (if debug && 0 < e.debugVerbosity.toNat then [e.verbosityFlag] else []) ++
    ["-i", inventory, playbook] ++ e.extraArgs

/-- Whether a name is a path of more than one step, the root counting as one. -/
def isPath (name : String) : Bool :=
  1 < (Path.components name).length + (if Path.isAbsolute name then 1 else 0)

/-- A directory for programs; one that starts at a tilde lies below the home directory. -/
def expandHome (home dir : String) : String :=
  if dir = "~" then home
  else match dir.toList with
    | '~' :: '/' :: rest => Path.join home (String.ofList rest)
    | _ => dir

/-- Where a program of this name may be, the first place first. -/
def candidates (m : Machine) (name : String) : List String :=
  if isPath name then [Path.join m.cwd.text name]
  else match m.vars "PATH" with
    | some dirs =>
      let home := ((m.vars "HOME").or m.home).getD ""
      (dirs.splitOn ":").map fun dir => Path.join (expandHome home dir) name
    | none => []

/-- The program of an engine, if there is one. -/
def program? (m : Machine) (e : Engine) : Option String :=
  (candidates m e.executable).find? (m.disk.isProgram m.cwd)

def missing (e : Engine) : Failure :=
  .missingEngine e.executable

/-- What the end of an engine means. -/
def verdict (e : Engine) (l : Launch) : Except Failure Unit :=
  match l.ending with
  | .error s => .error (.system s.message)
  | .ok status => if status = some 0 then .ok () else .error (.failedEngine e.executable status)

end Engine

end Runbooks
