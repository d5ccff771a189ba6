import Runbooks.CommandLine.Grammar

namespace Runbooks.CommandLine.Completion.Fish

def quote (s : String) : String :=
  "'" ++ String.ofList (s.toList.flatMap fun c => if c = '\'' then ['\\', '\''] else [c]) ++ "'"

/-- An option in the notation of fish's own argument reader. -/
def optspec (s : Switch) : String :=
  (match s.short with
    | some c => String.singleton c ++ "/"
    | none => "") ++ s.long ++ (if s.valueName?.isSome then "=" else "")

def needsCommand : String := "__fish_runbook_needs_command"

def usesCommand (name : String) : String :=
  "__fish_runbook_using_subcommand " ++ name

/-- How the value of an option is completed. -/
def valueText (s : Switch) : String :=
  match s.effect with
  | .value _ (.choice cs) =>
    let words := cs.map fun c => c.name ++ "\\t" ++ quote (c.about.getD "")
    " -r -f -a \"" ++ "\n".intercalate words ++ "\""
  | .value _ .path => " -r -F"
  | .value _ _ => " -r"
  | _ => ""

def lineStart (condition : String) : String :=
  "complete -c " ++ programName ++ " -n \"" ++ condition ++ "\""

def switchLine (condition : String) (s : Switch) : String :=
  lineStart condition ++
    (match s.short with
      | some c => " -s " ++ String.singleton c
      | none => "") ++ " -l " ++ s.long ++ " -d " ++ quote s.about ++ valueText s

def commandLine (condition : String) (s : Spec) : String :=
  lineStart condition ++ " -f -a \"" ++ s.name ++ "\" -d " ++ quote s.about

/-- Options with a value come before the others. -/
def switchLines (condition : String) (s : Spec) : List String :=
  (s.switches.filter (·.valueName?.isSome) ++ s.switches.filter (·.valueName?.isNone)).map
    (switchLine condition)

def intro : List String :=
  ["# Print an optspec for argparse to handle cmd's options that are independent of any subcommand.",
    "function __fish_runbook_global_optspecs",
    "    string join \\n " ++ " ".intercalate (Spec.program.switches.map optspec),
    "end",
    "",
    "function __fish_runbook_needs_command",
    "    # Figure out if the current invocation already has a command.",
    "    set -l cmd (commandline -opc)",
    "    set -e cmd[1]",
    "    argparse -s (__fish_runbook_global_optspecs) -- $cmd 2>/dev/null",
    "    or return",
    "    if set -q argv[1]",
    "        # Also print the command, so this can be used to figure out what it is.",
    "        echo $argv[1]",
    "        return 1",
    "    end",
    "    return 0",
    "end",
    "",
    "function __fish_runbook_using_subcommand",
    "    set -l cmd (__fish_runbook_needs_command)",
    "    test -z \"$cmd\"",
    "    and return 1",
    "    contains -- $cmd[1] $argv",
    "end",
    ""]

/-- Behind the command that explains commands, one more command is offered. -/
def helpCondition : String :=
  usesCommand Spec.help.name ++ "; and not __fish_seen_subcommand_from " ++
    " ".intercalate (Spec.commands.map Spec.name)

def lines : List String :=
  intro ++ switchLines needsCommand Spec.program ++ Spec.commands.map (commandLine needsCommand) ++
    Spec.commands.flatMap (fun s => switchLines (usesCommand s.name) s) ++
    Spec.commands.map (commandLine helpCondition)

def script : String :=
  String.join (lines.map (· ++ "\n"))

end Runbooks.CommandLine.Completion.Fish
