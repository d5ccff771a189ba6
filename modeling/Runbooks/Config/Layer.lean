import Runbooks.Config.Document

namespace Runbooks

structure Layer where
  outputDir : Option String := none
  debug : Option Bool := none
  mode : Option InventoryMode := none
  inventoryName : Option String := none
  playbookName : Option String := none
  executable : Option String := none
  debugVerbosity : Option UInt8 := none
  extraArgs : Option (List String) := none
  logLevel : Option String := none
  logFormat : Option LogFormat := none
  deriving DecidableEq, Repr

namespace Layer

/-- A section, all of whose keys may be absent, as may be the section itself. -/
def section? (r : Record) (schema : Schema) (name : String) : Option Record :=
  (r.optional? (Record.ofTree? schema true) name).map (·.getD ⟨[]⟩)

def ofTree? (t : Tree) : Option Layer := do
  let r ← Record.ofTree? Config.sections true t
  let defaults ← section? r Config.Section.defaults "defaults"
  let inventory ← section? r Config.Section.inventory "inventory"
  let playbook ← section? r Config.Section.playbook "playbook"
  let execution ← section? r Config.Section.execution "execution"
  let logging ← section? r Config.Section.logging "logging"
  return {
    outputDir := ← defaults.optional? Tree.text? "output_dir"
    debug := ← defaults.optional? Tree.flag? "debug"
    mode := ← inventory.optional? Config.modeOf? "mode"
    inventoryName := ← inventory.optional? Tree.text? "file_name"
    playbookName := ← playbook.optional? Tree.text? "file_name"
    executable := ← execution.optional? Tree.text? "executable"
    debugVerbosity := ← execution.optional? Tree.byte? "debug_verbosity"
    extraArgs := ← execution.optional? Tree.texts? "extra_args"
    logLevel := ← logging.optional? Tree.text? "level"
    logFormat := ← logging.optional? Config.formatOf? "format" }

end Layer

namespace Config

def merge (c : Config) (l : Layer) : Config where
  outputDir := l.outputDir.getD c.outputDir
  debug := l.debug.getD c.debug
  mode := l.mode.getD c.mode
  inventoryName := l.inventoryName.getD c.inventoryName
  playbookName := l.playbookName.getD c.playbookName
  executable := l.executable.getD c.executable
  debugVerbosity := l.debugVerbosity.getD c.debugVerbosity
  extraArgs := l.extraArgs.getD c.extraArgs
  logLevel := l.logLevel.getD c.logLevel
  logFormat := l.logFormat.getD c.logFormat

end Config

end Runbooks
