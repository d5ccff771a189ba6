import Runbooks.Document.Yaml.Value
import Runbooks.Inventory.Generation
import Runbooks.Playbook.Task

namespace Runbooks

structure Play where
  name : String
  hosts : String := managedGroup
  gatherFacts : Bool := false
  become : Option Bool := none
  /-- The variables in the order in which they were first set. -/
  vars : Option (List (String × Yaml.Value)) := none
  tasks : List Task := []

namespace Play

/-- The pairs with a value for a name: in its old place, or at the end when the name is new. -/
def putVar (name : String) (value : Yaml.Value) :
    List (String × Yaml.Value) → List (String × Yaml.Value)
  | [] => [(name, value)]
  | (n, v) :: rest => if n = name then (n, value) :: rest else (n, v) :: putVar name value rest

def verbosityVar : String := "ansible_verbosity"

/-- How much the engine says in a play with debugging on. -/
def debugVerbosity : UInt8 := 2

def withVerbosity (level : UInt8) (p : Play) : Play :=
  { p with vars := some (putVar verbosityVar (.int level.toNat) (p.vars.getD [])) }

def push (t : Task) (p : Play) : Play :=
  { p with tasks := p.tasks ++ [t] }

def captureResults (p : Play) : Play :=
  { p with tasks := p.tasks.map Task.captureResult }

/-- The play of a runbook. Debugging is on if it is asked for here or in the runbook. -/
def ofRunbook (r : Runbook) (debug : Bool) : Play :=
  let become := r.environment.become
  let plain : Play := { name := r.name, become, tasks := r.steps.map (Task.ofStep become) }
  if r.effectiveDebug debug then (plain.withVerbosity debugVerbosity).captureResults else plain

end Play

end Runbooks
