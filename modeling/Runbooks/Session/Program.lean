import Runbooks.Session.Command

namespace Runbooks

/-- What a session comes to. -/
structure Outcome where
  status : Int
  events : List Event
  disk : Disk

namespace Outcome

def stdout (o : Outcome) : String :=
  String.join (o.events.map Event.stdout)

def stderr (o : Outcome) : String :=
  String.join (o.events.map Event.stderr)

end Outcome

namespace Failure

/-- The failure with its causes, a line for each of them. -/
def report (f : Failure) : String :=
  match f.causes with
  | [] => f.message
  | [cause] => f.message ++ "\n\nCaused by:\n    " ++ cause
  | causes => f.message ++ "\n\nCaused by:" ++ String.join (causes.zipIdx.map fun (cause, i) =>
      "\n" ++ String.ofList (List.replicate (5 - (toString i).length) ' ') ++ toString i ++ ": " ++
        cause)

end Failure

namespace Log

def failed (f : Failure) : Line :=
  { level := .debug, target := "runbook", message := "command failed",
    fields := [("error", .shown f.report)] }

/-- A directive that no filter can be made of. -/
def passedOver (directive : String) : String :=
  "ignoring \x60" ++ directive ++ "\x60: invalid filter directive\n"

end Log

namespace Session

open CommandLine (Invocation Stop Spec)

/-- What a command line that leads to no command comes to. -/
def stop (m : Machine) : Stop → Outcome
  | .complaint s c => ⟨2, [.err (c.text s)], m.disk⟩
  | .help s long => ⟨0, [.out (s.helpText m.vars long)], m.disk⟩
  | .version s => ⟨0, [.out s.versionText], m.disk⟩
  | .briefing => ⟨2, [.err (Spec.program.helpText m.vars false)], m.disk⟩

def context (m : Machine) (i : Invocation) (c : Config) : Context where
  machine := m
  config := c
  voice := ⟨i.globals.json, m.colours i.globals.noColor, i.globals.verbosity⟩
  filter := (Log.filterFor m.vars i.globals.verbosity c.logLevel).1
  layout := Log.layoutFor m.vars i.globals.verbosity c.logFormat

/-- What is said before the command starts. -/
def preamble (m : Machine) (i : Invocation) (c : Config) : List Event :=
  (Log.filterFor m.vars i.globals.verbosity c.logLevel).2.map (.err <| Log.passedOver ·) ++
    (if 2 ≤ i.globals.verbosity then [.err (Version.current.text ++ "\n")] else [])

/-- How a course ends: with success, or with its failure told and turned into a status. -/
def finish (x : Context) (c : Course) : Outcome :=
  match c.failure with
  | none => ⟨0, c.events, c.disk⟩
  | some f =>
    ⟨exitStatusOf [.own f], c.events ++ x.say (Log.failed f) ++ x.voice.error f.describe, c.disk⟩

/-- Carries out an invocation. -/
def carryOut (m : Machine) (i : Invocation) : Outcome :=
  match Config.load m.disk m.cwd m.vars i.globals.config m.home with
  | .error f => ⟨f.exitStatus, [.err ("ERROR: " ++ f.describe ++ "\n")], m.disk⟩
  | .ok c =>
    let x := context m i c
    let o := finish x (x.perform i.request)
    { o with events := preamble m i c ++ o.events }

/-- The whole program, given its arguments. -/
def run (m : Machine) (words : List String) : Outcome :=
  match Invocation.read m.vars words with
  | .error s => stop m s
  | .ok i => carryOut m i

end Session

end Runbooks
