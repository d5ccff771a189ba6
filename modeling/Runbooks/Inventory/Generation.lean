import Runbooks.Inventory.HostLine
import Runbooks.Inventory.Mode
import Runbooks.Runbook

namespace Runbooks

/-- The group that all hosts belong to. -/
def managedGroup : String := "managed"

structure Inventory where
  group : String
  hosts : List HostLine
  deriving DecidableEq, Repr

namespace Inventory

def header (i : Inventory) : String :=
  "[" ++ i.group ++ "]"

def lines (i : Inventory) : List String :=
  i.header :: i.hosts.map HostLine.text

/-- The file: every line ends in a line break. -/
def text (i : Inventory) : String :=
  String.join (i.lines.map (· ++ "\n"))

end Inventory

namespace InventoryMode

def connection (mode : InventoryMode) (h : Host) : Connection :=
  match mode with
  | .addressAware => if h.isLocalhost then .local else .ssh
  | .uniform => .ssh

end InventoryMode

def flagText : Bool → String
  | true => "true"
  | false => "false"

namespace HostLine

/-- The line of a host: how it is connected to, then what runs there. -/
def ofHost (mode : InventoryMode) (h : Host) (env : Environment) : HostLine :=
  let line : HostLine := { address := h.address }
  let connected := match mode.connection h with
    | .local => line.set connectionVar (some Connection.local.text)
    | .ssh => (line.set userVar env.user).set sshKeyVar env.sshKey
  (connected.set pythonVar env.python).set becomeVar (env.become.map flagText)

end HostLine

namespace Inventory

/-- One line for each host, in order; each environment is the common one with the host's own
settings on top. -/
def generate (mode : InventoryMode) (hosts : List Host) (base : Environment) : Inventory where
  group := managedGroup
  hosts := hosts.map fun h => HostLine.ofHost mode h (Environment.resolve base h.override)

end Inventory

end Runbooks
