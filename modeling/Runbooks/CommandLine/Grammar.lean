import Runbooks.Version

namespace Runbooks.CommandLine

/-- A word that an option takes, and what it stands for where that needs saying. -/
structure Choice where
  name : String
  about : Option String := none
  deriving DecidableEq, Repr

inductive ValueKind where
  /-- A path, which is never empty. -/
  | path
  | text
  /-- A mode of the inventory. -/
  | mode
  | choice (choices : List Choice)
  deriving DecidableEq, Repr

/-- What giving an option means. -/
inductive Effect where
  | flag
  | count
  | value (name : String) (kind : ValueKind)
  | help
  | version
  deriving DecidableEq, Repr

structure Switch where
  long : String
  short : Option Char := none
  effect : Effect
  about : String
  /-- The environment variable that gives the value where the command line does not. -/
  variableName : Option String := none
  default : Option String := none
  deriving DecidableEq, Repr

namespace Switch

def valueName? (s : Switch) : Option String :=
  match s.effect with
  | .value name _ => some name
  | _ => none

def choices (s : Switch) : List Choice :=
  match s.effect with
  | .value _ (.choice cs) => cs
  | _ => []

/-- The option as messages show it. -/
def text (s : Switch) : String :=
  match s.effect with
  | .value name _ => "--" ++ s.long ++ " <" ++ name ++ ">"
  | .count => "--" ++ s.long ++ "..."
  | _ => "--" ++ s.long

end Switch

structure Positional where
  /-- The key under which the value is kept. -/
  key : String
  name : String
  about : String
  kind : ValueKind
  /-- Whether it holds whatever stands behind two dashes, rather than one required value. -/
  rest : Bool := false
  deriving DecidableEq, Repr

namespace Positional

def choices (p : Positional) : List Choice :=
  match p.kind with
  | .choice cs => cs
  | _ => []

/-- The argument as messages show it. -/
def text (p : Positional) : String :=
  if p.rest then "[" ++ p.name ++ "]..." else "<" ++ p.name ++ ">"

/-- The argument as it stands in a usage line. -/
def usage (p : Positional) : String :=
  if p.rest then "[-- <" ++ p.name ++ ">...]" else "<" ++ p.name ++ ">"

end Positional

/-- A command, or the program itself, which has commands in the place of arguments. -/
structure Spec where
  name : String
  about : String
  switches : List Switch
  positionals : List Positional := []
  deriving DecidableEq, Repr

namespace Spec

def formats : List Choice :=
  [⟨"human", some "Human-readable output with colors"⟩,
    ⟨"json", some "JSON output for scripting"⟩]

def shells : List Choice :=
  ["bash", "elvish", "fish", "powershell", "zsh"].map fun s => ⟨s, none⟩

/-- The options that every command understands, help and version last. -/
def common : List Switch :=
  [{ long := "verbose", short := some 'v', effect := .count,
     about := "Verbosity level (-v, -vv, -vvv)" },
    { long := "format", effect := .value "FORMAT" (.choice formats), about := "Output format",
      default := some "human" },
    { long := "config", short := some 'c', effect := .value "CONFIG" .path,
      about := "Path to configuration file", variableName := some "RUNBOOK_CONFIG" },
    { long := "no-color", effect := .flag, about := "Disable colored output" },
    { long := "help", short := some 'h', effect := .help,
      about := "Print help (see more with '--help')" },
    { long := "version", short := some 'V', effect := .version, about := "Print version" }]

def compileSwitches : List Switch :=
  [{ long := "output", short := some 'o', effect := .value "OUTPUT" .path,
     about := "Directory the inventory and playbook are written to" },
    { long := "debug", short := some 'd', effect := .flag,
      about := "Enable debug mode (verbose engine output, captured task results)" },
    { long := "inventory-mode", effect := .value "INVENTORY_MODE" .mode,
      about := "How localhost is rendered in the inventory (address-aware, uniform)" }]

def runbookArgument : Positional where
  key := "runbook"
  name := "RUNBOOK"
  about := "Path to the runbook file"
  kind := .path

def program : Spec where
  name := programName
  about := "Compile declarative runbooks into Ansible inventories and playbooks"
  switches := common

def generate : Spec where
  name := "generate"
  about := "Compile a runbook into an inventory and a playbook"
  switches := compileSwitches ++ common
  positionals := [runbookArgument]

def run : Spec where
  name := "run"
  about := "Compile a runbook, then run it with ansible-playbook"
  switches := compileSwitches ++
    [{ long := "ansible-playbook", effect := .value "ANSIBLE_PLAYBOOK" .text,
       about := "ansible-playbook executable to use",
       variableName := some "RUNBOOK_ANSIBLE_PLAYBOOK" }] ++ common
  positionals := [runbookArgument,
    { key := "extra_args", name := "EXTRA_ARGS", kind := .text, rest := true,
      about := "Extra arguments passed through to ansible-playbook (after \x60--\x60)" }]

def validate : Spec where
  name := "validate"
  about := "Check a runbook without writing anything"
  switches := compileSwitches ++
    [{ long := "print", effect := .flag,
       about := "Print the rendered inventory and playbook" }] ++ common
  positionals := [runbookArgument]

def completions : Spec where
  name := "completions"
  about := "Generate shell completion scripts"
  switches :=
    { long := "instructions", effect := .flag,
      about := "Print installation instructions instead of the script" } :: common
  positionals :=
    [{ key := "shell", name := "SHELL", about := "Target shell", kind := .choice shells }]

/-- The command that explains commands. It has no options. -/
def help : Spec where
  name := "help"
  about := "Print this message or the help of the given subcommand(s)"
  switches := []

def commands : List Spec := [generate, run, validate, completions, help]

def command? (name : String) : Option Spec :=
  commands.find? (·.name = name)

end Spec

end Runbooks.CommandLine
