import Runbooks.Runbook

/-!
Drafts: runbooks as their sources give them, every field optional, and the step from a draft to a
runbook. Fields that are absent are found before fields that are blank.
-/

namespace Runbooks

structure HostDraft where
  address : Option String := none
  environment : Option Environment := none
  deriving DecidableEq, Repr

structure StepDraft where
  name : Option String := none
  command : Option String := none
  become : Option Bool := none
  stdin : Option String := none
  message : Option String := none
  loop : Option String := none
  deriving DecidableEq, Repr

structure Draft where
  name : Option String := none
  description : Option String := none
  debug : Option Bool := none
  environment : Environment := {}
  hosts : List HostDraft := []
  steps : List StepDraft := []
  deriving DecidableEq, Repr

namespace HostDraft

def host? (index : Nat) (d : HostDraft) : Except Failure Host :=
  match d.address with
  | some address => .ok { address, override := d.environment }
  | none => .error (.invalid (.missingAddress index))

end HostDraft

namespace StepDraft

/-- A message wins over a command, and input turns a shell line into a plain command. -/
def kind? (d : StepDraft) : Option StepKind :=
  match d.message, d.command, d.stdin with
  | some text, _, _ => some (.message text)
  | none, some command, some stdin => some (.stdinCommand command stdin d.become)
  | none, some command, none => some (.shell command d.become)
  | none, none, _ => none

/-- Whether a message makes the step pass over a command or its input. -/
def isCrowded (d : StepDraft) : Bool :=
  d.message.isSome && (d.command.isSome || d.stdin.isSome)

def step? (index : Nat) (d : StepDraft) : Except Failure Step :=
  match d.name with
  | none => .error (.invalid (.missingStepName index))
  | some name =>
    match d.kind? with
    | some kind => .ok { name, kind, loop := d.loop }
    | none => .error (.idleStep index name)

end StepDraft

/-- Numbers the items from `start` on and stops at the first that fails. -/
def numbered {α β : Type} (f : Nat → α → Except Failure β) : Nat → List α → Except Failure (List β)
  | _, [] => .ok []
  | start, a :: rest => do
    let b ← f start a
    let bs ← numbered f (start + 1) rest
    return b :: bs

namespace Draft

/-- The runbook of a draft. -/
def runbook? (d : Draft) : Except Failure Runbook := do
  let name ← match d.name with
    | some name => .ok name
    | none => .error (.invalid .missingName)
  let hosts ← numbered HostDraft.host? 1 d.hosts
  let steps ← numbered StepDraft.step? 1 d.steps
  let r ← Runbook.create? name d.environment hosts steps
  return (r.withDescription d.description).withDebugDefault (d.debug.getD false)

/-- The names of the steps that are read before a failure stops the reading and that pass over a
command. -/
def crowdedSteps (d : Draft) : List String :=
  if d.name.isNone || d.hosts.any (·.address.isNone) then []
  else
    let readable := d.steps.takeWhile fun s => s.name.isSome && s.kind?.isSome
    readable.filterMap fun s => if s.isCrowded then s.name else none

end Draft

end Runbooks
