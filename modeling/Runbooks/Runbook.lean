import Runbooks.Environment
import Runbooks.Failure
import Runbooks.Text.Blank

namespace Runbooks

/-- What a step does. Commands may say for themselves whether they run with raised rights. -/
inductive StepKind where
  | message (text : String)
  | stdinCommand (command stdin : String) (become : Option Bool)
  | shell (command : String) (become : Option Bool)
  deriving DecidableEq, Repr

namespace StepKind

def label : StepKind → String
  | message _ => "message"
  | stdinCommand .. => "stdin-command"
  | shell .. => "shell"

end StepKind

structure Step where
  name : String
  kind : StepKind
  /-- What the step is repeated over. -/
  loop : Option String := none
  deriving DecidableEq, Repr

namespace Step

def shell (name command : String) : Step :=
  { name, kind := .shell command none }

def stdinCommand (name command stdin : String) : Step :=
  { name, kind := .stdinCommand command stdin none }

def message (name text : String) : Step :=
  { name, kind := .message text }

/-- Says for a command whether it runs with raised rights; a message has no use for it. -/
def withBecome (value : Bool) (s : Step) : Step :=
  match s.kind with
  | .message _ => s
  | .stdinCommand command stdin _ => { s with kind := .stdinCommand command stdin (some value) }
  | .shell command _ => { s with kind := .shell command (some value) }

def withLoop (expression : String) (s : Step) : Step :=
  { s with loop := some expression }

end Step

structure Host where
  address : String
  override : Option Environment := none
  deriving DecidableEq, Repr

namespace Host

def isLocalhost (h : Host) : Bool :=
  h.address = "localhost"

end Host

structure Runbook where
  name : String
  description : Option String := none
  debugDefault : Bool := false
  environment : Environment
  hosts : List Host
  steps : List Step
  name_not_blank : isBlankText name = false
  hosts_ne_nil : hosts ≠ []
  addresses_not_blank : ∀ h ∈ hosts, isBlankText h.address = false
  steps_ne_nil : steps ≠ []

namespace Runbook

/-- The place of the first host with a blank address, counted from one. -/
def firstBlank? : Nat → List Host → Option Nat
  | _, [] => none
  | i, h :: rest => if isBlankText h.address then some i else firstBlank? (i + 1) rest

theorem not_blank_of_firstBlank? {i : Nat} {hosts : List Host}
    (h : firstBlank? i hosts = none) : ∀ x ∈ hosts, isBlankText x.address = false := by
  induction hosts generalizing i with
  | nil => simp
  | cons y rest ih =>
    unfold firstBlank? at h
    split at h
    · simp at h
    · rename_i hy
      intro x hx
      rcases List.mem_cons.1 hx with rfl | hx
      · simpa using hy
      · exact ih h x hx

/-- A runbook of its parts, which are checked in the order name, hosts, addresses, steps. -/
def create? (name : String) (environment : Environment) (hosts : List Host)
    (steps : List Step) : Except Failure Runbook :=
  if name_blank : isBlankText name = true then .error (.invalid .missingName)
  else if no_hosts : hosts = [] then .error (.invalid .noHosts)
  else match blank : firstBlank? 1 hosts with
    | some i => .error (.invalid (.missingAddress i))
    | none =>
      if no_steps : steps = [] then .error (.invalid .noSteps)
      else .ok {
        name, environment, hosts, steps
        name_not_blank := by simpa using name_blank
        hosts_ne_nil := no_hosts
        addresses_not_blank := not_blank_of_firstBlank? blank
        steps_ne_nil := no_steps }

def withDebugDefault (debug : Bool) (r : Runbook) : Runbook :=
  { r with debugDefault := debug }

def withDescription (description : Option String) (r : Runbook) : Runbook :=
  { r with description }

/-- Debugging is on when it is asked for or when the runbook itself turns it on. -/
def effectiveDebug (r : Runbook) (requested : Bool) : Bool :=
  requested || r.debugDefault

end Runbook

end Runbooks
