import Runbooks.Config
import Runbooks.Document.Json
import Runbooks.Document.Record

namespace Runbooks

/-- The sections of a configuration. -/
def Config.sections : Schema :=
  [⟨"defaults", none⟩, ⟨"inventory", none⟩, ⟨"playbook", none⟩, ⟨"execution", none⟩,
    ⟨"logging", none⟩]

namespace Config.Section

def defaults : Schema := [⟨"output_dir", none⟩, ⟨"debug", none⟩]
def inventory : Schema := [⟨"mode", none⟩, ⟨"file_name", none⟩]
def playbook : Schema := [⟨"file_name", none⟩]
def execution : Schema := [⟨"executable", none⟩, ⟨"debug_verbosity", none⟩, ⟨"extra_args", none⟩]
def logging : Schema := [⟨"level", none⟩, ⟨"format", none⟩]

end Config.Section

namespace Config

def modeOf? (t : Tree) : Option InventoryMode :=
  t.choice?.bind InventoryMode.named?

def formatOf? (t : Tree) : Option LogFormat :=
  t.choice?.bind LogFormat.named?

def json (c : Config) : Json :=
  .object [
    ("defaults", .object [("output_dir", .string c.outputDir), ("debug", .bool c.debug)]),
    ("inventory", .object [("mode", .string c.mode.name), ("file_name", .string c.inventoryName)]),
    ("playbook", .object [("file_name", .string c.playbookName)]),
    ("execution", .object [("executable", .string c.executable),
      ("debug_verbosity", .number c.debugVerbosity.toNat), ("extra_args", .texts c.extraArgs)]),
    ("logging", .object [("level", .string c.logLevel), ("format", .string c.logFormat.name)])]

/-- A section of a configuration; without it there is an empty one. -/
def section? (r : Record) (schema : Schema) (name : String) : Option Record :=
  r.withDefault? (Record.ofTree? schema false) ⟨[]⟩ name

def ofTree? (t : Tree) : Option Config := do
  let r ← Record.ofTree? sections false t
  let defaults ← section? r Section.defaults "defaults"
  let inventory ← section? r Section.inventory "inventory"
  let playbook ← section? r Section.playbook "playbook"
  let execution ← section? r Section.execution "execution"
  let logging ← section? r Section.logging "logging"
  let c : Config := {}
  return {
    outputDir := ← defaults.withDefault? Tree.text? c.outputDir "output_dir"
    debug := ← defaults.withDefault? Tree.flag? c.debug "debug"
    mode := ← inventory.withDefault? modeOf? c.mode "mode"
    inventoryName := ← inventory.withDefault? Tree.text? c.inventoryName "file_name"
    playbookName := ← playbook.withDefault? Tree.text? c.playbookName "file_name"
    executable := ← execution.withDefault? Tree.text? c.executable "executable"
    debugVerbosity := ← execution.withDefault? Tree.byte? c.debugVerbosity "debug_verbosity"
    extraArgs := ← execution.withDefault? Tree.texts? c.extraArgs "extra_args"
    logLevel := ← logging.withDefault? Tree.text? c.logLevel "level"
    logFormat := ← logging.withDefault? formatOf? c.logFormat "format" }

end Config

end Runbooks
