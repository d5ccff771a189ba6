import Runbooks.Failure
import Runbooks.Text.Blank

namespace Runbooks

inductive InventoryMode where
  /-- The address `localhost` is managed without a connection. -/
  | addressAware
  /-- Every host is reached in the same way. -/
  | uniform
  deriving DecidableEq, Repr

namespace InventoryMode

instance : Inhabited InventoryMode := ⟨addressAware⟩

def name : InventoryMode → String
  | addressAware => "address-aware"
  | uniform => "uniform"

/-- The mode with exactly this name. -/
def named? (s : String) : Option InventoryMode :=
  if s = "address-aware" then some addressAware
  else if s = "uniform" then some uniform
  else none

/-- Surrounding white space, case and the choice between `_` and `-` do not matter. -/
def normalize (s : String) : String :=
  String.ofList ((lowerAscii (trimmed s)).toList.map fun c => if c = '_' then '-' else c)

def ofText? (s : String) : Except Failure InventoryMode :=
  match named? (normalize s) with
  | some mode => .ok mode
  | none => .error (.setting "inventory.mode"
      ("unknown mode '" ++ normalize s ++ "', expected 'address-aware' or 'uniform'"))

end InventoryMode

end Runbooks
