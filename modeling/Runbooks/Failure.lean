namespace Runbooks

/-- Why a runbook with a readable source is no runbook. -/
inductive Defect where
  | missingName
  | missingAddress (host : Nat)
  | missingStepName (step : Nat)
  | noHosts
  | noSteps
  | stated (reason : String)
  deriving DecidableEq, Repr

namespace Defect

def message : Defect → String
  | missingName => "missing required field 'name'"
  | missingAddress host => "host " ++ toString host ++ " is missing required field 'addr'"
  | missingStepName step => "step " ++ toString step ++ " is missing required field 'name'"
  | noHosts => "runbook must define at least one host"
  | noSteps => "runbook must define at least one step"
  | stated reason => reason

end Defect

inductive Failure where
  /-- A source that cannot be read or is no document of its notation. -/
  | source (path message : String) (causes : List String)
  | invalid (defect : Defect)
  /-- A step that neither prints a message nor runs a command. -/
  | idleStep (index : Nat) (name : String)
  | unrendered (cause : String)
  | unwritten (path cause : String)
  | missingEngine (executable : String)
  /-- An engine that ended with a status, or by a signal where there is none. -/
  | failedEngine (program : String) (status : Option Int)
  | setting (key message : String)
  | system (cause : String)
  | other (message : String) (causes : List String)
  deriving DecidableEq, Repr

namespace Failure

def statusText : Option Int → String
  | some n => "status " ++ toString n
  | none => "a signal"

/-- The failure's own text. -/
def message : Failure → String
  | source path message _ => "Failed to parse runbook '" ++ path ++ "': " ++ message
  | invalid defect => "Runbook validation failed: " ++ defect.message
  | idleStep index name =>
    "Step " ++ toString index ++ " ('" ++ name ++ "') must define either 'msg' or 'command'"
  | unrendered cause => "Failed to render playbook: " ++ cause
  | unwritten path cause => "Failed to write '" ++ path ++ "': " ++ cause
  | missingEngine executable => "Executable '" ++ executable ++ "' not found in PATH"
  | failedEngine program status => "'" ++ program ++ "' exited with " ++ statusText status
  | setting key message => "Invalid configuration value for '" ++ key ++ "': " ++ message
  | system cause => "IO error: " ++ cause
  | other message _ => message

/-- The texts of the causes, the nearest first. -/
def causes : Failure → List String
  | source _ _ causes => causes
  | unrendered cause => [cause]
  | unwritten _ cause => [cause]
  | system cause => [cause]
  | other _ causes => causes
  | _ => []

/-- Whether the runbook itself is at fault, rather than its notation or its surroundings. -/
def isStructural : Failure → Bool
  | invalid _ => true
  | idleStep _ _ => true
  | _ => false

/-- Four for a bad source, the engine's own status where it has one, two where it has none, 127
for an engine that is not there, and one for everything else. -/
def exitStatus : Failure → Int
  | source _ _ _ => 4
  | invalid _ => 4
  | idleStep _ _ => 4
  | failedEngine _ (some n) => if n = 0 then 2 else n
  | failedEngine _ none => 2
  | missingEngine _ => 127
  | _ => 1

/-- A failure in a wider context keeps its text as the first cause. -/
def inContext (context : String) (f : Failure) : Failure :=
  other context (f.message :: f.causes)

end Failure

/-- A failure as it reaches the user: failures of this program or foreign ones, the outermost
first. -/
inductive Link where
  | own (failure : Failure)
  | foreign (text : String)
  deriving DecidableEq, Repr

namespace Link

def text : Link → String
  | own f => f.message
  | foreign t => t

end Link

/-- Whether one text occurs in another. -/
def occursIn (part whole : List Char) : Bool :=
  part.isPrefixOf whole || match whole with
    | [] => false
    | _ :: rest => occursIn part rest

/-- Adds the causes that the text does not mention yet, in their order. -/
def mentioning (said : List Char) : List (List Char) → List Char
  | [] => said
  | cause :: rest =>
    if occursIn cause said then mentioning said rest
    else mentioning (said ++ [':', ' '] ++ cause) rest

/-- One line for a failure and its causes. -/
def describeTexts (message : String) (causes : List String) : String :=
  String.ofList (mentioning message.toList (causes.map String.toList))

def Failure.describe (f : Failure) : String :=
  describeTexts f.message f.causes

/-- The exit status of a chain is that of its outermost failure of this program. -/
def exitStatusOf : List Link → Int
  | [] => 1
  | .own f :: _ => f.exitStatus
  | .foreign _ :: rest => exitStatusOf rest

end Runbooks
