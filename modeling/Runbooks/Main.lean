import Runbooks.Session.Program
import Std.Time

/-!
The command. It shows a session the part of the system that the session is about, carries out what
the session changed there, and prints what it said. The command itself starts no other programs,
so there are no engines on its machine, and it knows of no home directory but by its variable.
-/

namespace Runbooks

/-- The environment variables that sessions ask for. -/
def variableNames : List String :=
  Config.overrides.map (·.name) ++ ["RUNBOOK_CONFIG", "HOME", "XDG_CONFIG_HOME", "PATH",
    "NO_COLOR", "CLICOLOR", "CLICOLOR_FORCE", "RUST_LOG", CommandLine.widthVariable]

def readVariables : IO (List (String × String)) :=
  variableNames.filterMapM fun name => do
    return (← IO.getEnv name).map fun value => (name, value)

/-- The places on the way to some places, themselves included. -/
def Place.ways (places : List Place) : List Place :=
  (places.flatMap fun p => (List.range p.length).map fun n => p.take (n + 1)).eraseDups

/-- What the system has at a place. -/
def entryAt? (p : Place) : IO (Option Entry) := do
  try
    return some (.file (← IO.FS.readBinFile p.text) false)
  catch
    | .inappropriateType .. => return some .directory
    | _ => return none

def snapshot (places : List Place) : IO Disk := do
  let entries ← places.filterMapM fun p => do
    return (← entryAt? p).map fun e => (p, e)
  return ⟨entries⟩

/-- The entries that a session added or changed, the outer ones first. -/
def changes (before after : Disk) : List (Place × Entry) :=
  (after.entries.filter fun (p, e) => before.get? p ≠ some e).mergeSort
    fun a b => a.1.length ≤ b.1.length

/-- Runs a session, and runs it again as long as it touches places that it has not been shown. -/
def settle (machine : Disk → Machine) (words : List String) : Nat → List Place →
    IO (Machine × Outcome)
  | 0, places => do
    let m := machine (← snapshot places)
    return (m, Session.run m words)
  | rounds + 1, places => do
    let m := machine (← snapshot places)
    let o := Session.run m words
    let touched := Place.ways ((changes m.disk o.disk).map Prod.fst)
    if touched.all places.contains then return (m, o)
    else settle machine words rounds (places ++ touched).eraseDups

/-- Makes a directory, or a file that takes its place all at once. -/
def carryOver (p : Place) (e : Entry) : IO Unit :=
  match e with
  | .directory => IO.FS.createDirAll p.text
  | .file bytes _ => do
    let temporary := p.text ++ "~"
    IO.FS.writeBinFile temporary bytes
    IO.FS.rename temporary p.text

def stampNow : IO String := do
  let now ← Std.Time.Timestamp.now
  let utc := Std.Time.PlainDateTime.ofWallTime (now.toWallTime .zero)
  return utc.format "uuuu-MM-dd'T'HH:mm:ss.SSSSSS'Z'"

/-- How often a session is run again at most. -/
def maxRounds : Nat := 8

end Runbooks

open Runbooks in
def main (words : List String) : IO UInt32 := do
  let began ← IO.monoMsNow
  let known ← readVariables
  let vars : Variables := fun name => known.lookup name
  let cwd := Place.ofPath [] (← IO.FS.realPath ".").toString
  let stamp ← stampNow
  let elapsed := durationText ((← IO.monoMsNow) - began)
  let machine := fun (disk : Disk) =>
    ({ disk, cwd, vars, stamp, elapsed
       launch := fun _ _ _ => { ending := .error .notSupported } } : Machine)
  let paths := words ++ (vars "RUNBOOK_CONFIG").toList ++ Config.paths vars none
  let (m, o) ← settle machine words maxRounds (Place.ways (paths.map (Place.ofPath cwd)))
  try
    for (p, e) in changes m.disk o.disk do
      carryOver p e
    IO.print o.stdout
    IO.eprint o.stderr
    return UInt32.ofNat (o.status.toNat % 256)
  catch e =>
    IO.eprintln ("ERROR: " ++ toString e)
    return 1
