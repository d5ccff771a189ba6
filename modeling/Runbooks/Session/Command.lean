import Runbooks.CommandLine.Completion
import Runbooks.Session.Compile

namespace Runbooks

namespace Log

def handing (debug : Bool) : Line :=
  { level := .info, target := "runbook::cli::commands::run",
    message := "handing artifacts to the engine", fields := [("debug", .flag debug)] }

def lookupFailed (executable : String) : Line :=
  { level := .debug, target := "runbook::executor", message := "lookup failed",
    fields := [("executable", .shown executable), ("error", .shown "cannot find binary path")] }

def running (program : String) (arguments : List String) : Line :=
  { level := .info, target := "runbook::executor", message := "running playbook",
    fields := [("command", .shown (program ++ " " ++ Shell.join arguments))] }

end Log

namespace Context

open CommandLine (CompileArgs)

/-- Compiles and delivers; `further` says what follows a delivery. -/
def compileAndDeliver (x : Context) (a : CompileArgs)
    (further : Artifacts → Delivery → Disk → Course) : Course :=
  match x.prepare a with
  | (before, .error f) => ⟨before, some f, x.machine.disk⟩
  | (before, .ok (_, art)) =>
    match x.deliver a art with
    | (.error f, d) => ⟨before, some f, d⟩
    | (.ok delivery, d) =>
      let c := further art delivery d
      { c with events := before ++ x.say (Log.delivered delivery.outputDir) ++ c.events }

def generate (x : Context) (a : CompileArgs) : Course :=
  x.compileAndDeliver a fun art delivery d =>
    { events :=
        x.voice.info ("Inventory: " ++ delivery.inventoryPath) ++
        x.voice.info ("Playbook: " ++ delivery.playbookPath) ++
        x.voice.generated delivery art.debug ++
        x.voice.hint ("Run it with: ansible-playbook -i " ++ delivery.inventoryPath ++ " " ++
          delivery.playbookPath)
      disk := d }

/-- The engine that configuration and arguments ask for. -/
def engine (x : Context) (executable : Option String) (extraArgs : List String) : Engine :=
  { Engine.ofConfig x.config with
    executable := executable.getD x.config.executable
    extraArgs := x.config.extraArgs ++ extraArgs }

/-- Runs an engine on delivered artifacts. -/
def launch (x : Context) (e : Engine) (delivery : Delivery) (debug : Bool) (d : Disk) :
    List Event × Except Failure Unit :=
  match e.program? { x.machine with disk := d } with
  | none => (x.say (Log.lookupFailed e.executable), .error e.missing)
  | some program =>
    let arguments := e.arguments delivery.inventoryPath delivery.playbookPath debug
    let l := x.machine.launch d program arguments
    let started := match l.ending with
      | .error _ => []
      | .ok _ => [Event.launched program arguments l.output]
    (x.say (Log.running program arguments) ++ started, e.verdict l)

def run (x : Context) (a : CompileArgs) (executable : Option String) (extraArgs : List String) :
    Course :=
  x.compileAndDeliver a fun art delivery d =>
    let e := x.engine executable extraArgs
    let before := x.voice.generated delivery art.debug ++ x.say (Log.handing art.debug)
    match x.launch e delivery art.debug d with
    | (during, .error f) => ⟨before ++ during, some f, d⟩
    | (during, .ok ()) =>
      { events := before ++ during ++ x.voice.completed e.executable x.machine.elapsed
        disk := d }

/-- What a validated runbook is, for programs; the two texts are there where they are asked
for. -/
def summary (r : Runbook) (mode : InventoryMode) (texts : Option Rendered) : Json :=
  .object ([("hosts", .texts (r.hosts.map Host.address))] ++
    (match texts with
    | some t => [("inventory", .string t.inventory)]
    | none => []) ++
    [("inventory_mode", .string mode.name)] ++
    (match texts with
    | some t => [("playbook", .string t.playbook)]
    | none => []) ++
    [("runbook", .string r.name),
      ("steps", .array (r.steps.map fun s =>
        .object [("kind", .string s.kind.label), ("name", .string s.name)])),
      ("type", .string "validation"), ("valid", .bool true)])

def sshWarning : String :=
  "localhost will be reached over SSH in uniform inventory mode"

/-- Whether the local machine is managed like any other. -/
def reachesLocalhost (r : Runbook) (mode : InventoryMode) : Bool :=
  r.hosts.any Host.isLocalhost && mode = .uniform

/-- What a validated runbook is, for people. -/
def report (v : Voice) (r : Runbook) (mode : InventoryMode) (texts : Option Rendered) :
    List Event :=
  v.sectionTitle ("Runbook: " ++ r.name) ++
    (match r.description with
    | some d => v.info d
    | none => []) ++
    v.list "Hosts" (r.hosts.map Host.address) ++
    v.list "Steps" (r.steps.map fun s => s.name ++ " (" ++ s.kind.label ++ ")") ++
    (match texts with
    | some t =>
      v.sectionTitle ("Inventory (" ++ mode.name ++ ")") ++ Voice.raw t.inventory ++
        v.sectionTitle "Playbook" ++ Voice.raw t.playbook
    | none => []) ++
    (if reachesLocalhost r mode then v.warning sshWarning else []) ++
    v.valid r.name

/-- Loads and compiles for itself, and delivers nothing. -/
def validate (x : Context) (a : CompileArgs) (print : Bool) : Course :=
  let loading := x.sayAll (x.loadLines a.runbook)
  match x.load a.runbook with
  | .error f => ⟨loading, some f, x.machine.disk⟩
  | .ok r =>
    let mode := a.modeIn x.config
    let art := Artifacts.compile mode r (a.debugIn x.config)
    let texts := if print then some art.render else none
    let said :=
      if x.voice.json then x.voice.result (summary r mode texts) else report x.voice r mode texts
    { events := loading ++ x.sayAll (compileLines r art mode) ++ said, disk := x.machine.disk }

def completions (x : Context) (shell : CommandLine.Shell) (instructions : Bool) : Course :=
  { events := [.out (if instructions then shell.instructions else shell.script)]
    disk := x.machine.disk }

def perform (x : Context) : CommandLine.Request → Course
  | .generate a => x.generate a
  | .run a executable extraArgs => x.run a executable extraArgs
  | .validate a print => x.validate a print
  | .completions shell instructions => x.completions shell instructions

end Context

end Runbooks
