import Runbooks.Session.Context

namespace Runbooks

namespace Log

def loading (path : String) : Line :=
  { level := .debug, target := "runbook::cli::commands", message := "loading runbook",
    fields := [("path", .shown path)] }

def formatLabel : SourceFormat → String
  | some .toml => "Toml"
  | some .yaml => "Yaml"
  | some .json => "Json"
  | none => "Auto"

def parsing (path : String) (format : SourceFormat) : Line :=
  { level := .debug, target := "runbook::parser", message := "parsing runbook",
    fields := [("path", .shown path), ("format", .shown (formatLabel format))] }

/-- A step whose message makes it pass over a command. -/
def crowded (step : String) : Line :=
  { level := .warn, target := "runbook::runbook",
    message := "step defines 'msg'; ignoring 'command'/'stdin'",
    fields := [("step", .shown step)] }

def inventoryLine (l : HostLine) : Line :=
  { level := .debug, target := "runbook::inventory", message := "inventory line",
    fields := [("host", .shown l.address), ("line", .shown l.text)] }

def compiledStep (t : Task) : Line :=
  { level := .debug, target := "runbook::playbook", message := "compiled step",
    fields := [("task", .shown t.name), ("module", .quoted t.action.moduleName)] }

def compiledRunbook (r : Runbook) (a : Artifacts) (mode : InventoryMode) : Line :=
  { level := .info, target := "runbook::compiler", message := "compiled runbook",
    fields := [("runbook", .quoted r.name), ("hosts", .number a.inventory.hosts.length),
      ("tasks", .number a.playbook.tasks.length), ("debug", .flag a.debug),
      ("mode", .shown mode.name)] }

def delivered (dir : String) : Line :=
  { level := .info, target := "runbook::output", message := "generated inventory and playbook",
    fields := [("dir", .shown dir)] }

end Log

/-- A runbook file, the notation being known by the extension of its name. -/
def Runbook.load (d : Disk) (cwd : Place) (path : String) : Except Failure Runbook :=
  match d.read cwd path with
  | .error e => .error (.source path ("Failed to read file: " ++ e.message) [e.message])
  | .ok source => Runbook.parse (SourceFormat.ofExtension (Path.extension? path)) path source

/-- The steps of a runbook file whose message makes them pass over a command. -/
def Runbook.crowdedSteps (d : Disk) (cwd : Place) (path : String) : List String :=
  match d.read cwd path with
  | .error _ => []
  | .ok source =>
    match Draft.parse (SourceFormat.ofExtension (Path.extension? path)) source with
    | .ok draft => draft.crowdedSteps
    | .error _ => []

namespace CommandLine.CompileArgs

def modeIn (a : CompileArgs) (c : Config) : InventoryMode :=
  a.mode.getD c.mode

def outputDirIn (a : CompileArgs) (c : Config) : String :=
  a.output.getD c.outputDir

def debugIn (a : CompileArgs) (c : Config) : Bool :=
  a.debug || c.debug

end CommandLine.CompileArgs

namespace Context

open CommandLine (CompileArgs)

def loadLines (x : Context) (path : String) : List Log.Line :=
  let m := x.machine
  Log.loading path ::
    (match m.disk.read m.cwd path with
    | .error _ => []
    | .ok _ => [Log.parsing path (SourceFormat.ofExtension (Path.extension? path))]) ++
    (Runbook.crowdedSteps m.disk m.cwd path).map Log.crowded

def load (x : Context) (path : String) : Except Failure Runbook :=
  Runbook.load x.machine.disk x.machine.cwd path

def compileLines (r : Runbook) (art : Artifacts) (mode : InventoryMode) : List Log.Line :=
  art.inventory.hosts.map Log.inventoryLine ++ art.playbook.tasks.map Log.compiledStep ++
    [Log.compiledRunbook r art mode]

/-- The artifacts of a runbook, as arguments and configuration together ask for them. -/
def compile (x : Context) (a : CompileArgs) (r : Runbook) : Artifacts :=
  Artifacts.compile (a.modeIn x.config) r (a.debugIn x.config)

/-- Loads and compiles, and says so. -/
def prepare (x : Context) (a : CompileArgs) :
    List Event × Except Failure (Runbook × Artifacts) :=
  let loading := x.sayAll (x.loadLines a.runbook)
  match x.load a.runbook with
  | .error f => (loading, .error f)
  | .ok r =>
    let art := x.compile a r
    (loading ++ x.sayAll (compileLines r art (a.modeIn x.config)), .ok (r, art))

/-- Delivers artifacts to the output directory. -/
def deliver (x : Context) (a : CompileArgs) (art : Artifacts) : Except Failure Delivery × Disk :=
  art.render.deliver x.machine.obstacle x.machine.cwd (a.outputDirIn x.config)
    x.config.artifactNames x.machine.disk

end Context

/-- What a command comes to. -/
structure Course where
  events : List Event
  failure : Option Failure := none
  disk : Disk

end Runbooks
