import Runbooks.Artifacts.Delivery

namespace Runbooks

inductive LogFormat where
  | text
  | json
  deriving DecidableEq, Repr

namespace LogFormat

def name : LogFormat → String
  | text => "text"
  | json => "json"

/-- The format with exactly this name. -/
def named? (s : String) : Option LogFormat :=
  if s = "text" then some text else if s = "json" then some json else none

end LogFormat

structure Config where
  outputDir : String := "./generated"
  debug : Bool := false
  mode : InventoryMode := .addressAware
  inventoryName : String := "hosts"
  playbookName : String := "playbook.yml"
  executable : String := "ansible-playbook"
  /-- How much the engine says with debugging on. -/
  debugVerbosity : UInt8 := 2
  extraArgs : List String := []
  logLevel : String := "warn"
  logFormat : LogFormat := .text
  deriving DecidableEq, Repr

namespace Config

instance : Inhabited Config := ⟨{}⟩

def artifactNames (c : Config) : ArtifactNames where
  inventory := c.inventoryName
  playbook := c.playbookName

end Config

end Runbooks
