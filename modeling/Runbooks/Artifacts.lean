import Runbooks.Playbook.Document

namespace Runbooks

structure Artifacts where
  inventory : Inventory
  playbook : Play
  debug : Bool

/-- The two texts. -/
structure Rendered where
  inventory : String
  playbook : String
  deriving DecidableEq, Repr

namespace Artifacts

/-- Debugging is on if it is asked for here or in the runbook. -/
def compile (mode : InventoryMode) (r : Runbook) (debug : Bool) : Artifacts where
  inventory := Inventory.generate mode r.hosts r.environment
  playbook := Play.ofRunbook r (r.effectiveDebug debug)
  debug := r.effectiveDebug debug

def render (a : Artifacts) : Rendered where
  inventory := a.inventory.text
  playbook := Play.write [a.playbook]

end Artifacts

end Runbooks
