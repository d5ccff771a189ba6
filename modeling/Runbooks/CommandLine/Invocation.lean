import Runbooks.CommandLine.Reading

namespace Runbooks.CommandLine

/-- What all commands have in common. -/
structure Globals where
  /-- From zero to three. -/
  verbosity : Nat := 0
  json : Bool := false
  config : Option String := none
  noColor : Bool := false
  deriving DecidableEq, Repr

/-- What is asked of every command that compiles a runbook. -/
structure CompileArgs where
  runbook : String
  output : Option String := none
  debug : Bool := false
  mode : Option InventoryMode := none
  deriving DecidableEq, Repr

inductive Shell where
  | bash
  | elvish
  | fish
  | powershell
  | zsh
  deriving DecidableEq, Repr

inductive Request where
  | generate (args : CompileArgs)
  | run (args : CompileArgs) (executable : Option String) (extraArgs : List String)
  | validate (args : CompileArgs) (print : Bool)
  | completions (shell : Shell) (instructions : Bool)
  deriving DecidableEq, Repr

structure Invocation where
  globals : Globals
  request : Request
  deriving DecidableEq, Repr

/-- The highest degree of verbosity. -/
def maxVerbosity : Nat := 3

namespace Call

def globals (c : Call) : Globals where
  verbosity := min maxVerbosity (c.values "verbose").length
  json := c.value? "format" = some "json"
  config := c.value? "config"
  noColor := c.has "no-color"

def compileArgs (c : Call) : CompileArgs where
  runbook := (c.value? "runbook").getD ""
  output := c.value? "output"
  debug := c.has "debug"
  mode := (c.value? "inventory-mode").bind fun s => (InventoryMode.ofText? s).toOption

def shell (c : Call) : Shell :=
  match c.value? "shell" with
  | some "bash" => .bash
  | some "elvish" => .elvish
  | some "fish" => .fish
  | some "powershell" => .powershell
  | _ => .zsh

def request (c : Call) : Request :=
  match c.spec.name with
  | "generate" => .generate c.compileArgs
  | "run" => .run c.compileArgs (c.value? "ansible-playbook") (c.values "extra_args")
  | "validate" => .validate c.compileArgs (c.has "print")
  | _ => .completions c.shell (c.has "instructions")

end Call

namespace Invocation

/-- The invocation that a command line spells, without the name of the program. -/
def read (vars : Variables) (words : List String) : Except Stop Invocation := do
  let c ← Call.read vars words
  return { globals := c.globals, request := c.request }

end Invocation

end Runbooks.CommandLine
