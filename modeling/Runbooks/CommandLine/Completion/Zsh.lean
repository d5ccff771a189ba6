import Runbooks.CommandLine.Grammar

namespace Runbooks.CommandLine.Completion.Zsh

/-- A text inside single quotes. -/
def escape (s : String) : String :=
  String.ofList (s.toList.flatMap fun c => if c = '\'' then ['\'', '\\', '\'', '\''] else [c])

/-- How a value is completed. -/
def completer (kind : ValueKind) : String :=
  match kind with
  | .path => "_files"
  | .choice cs =>
    if cs.any (·.about.isSome) then
      "((" ++ "\n".intercalate (cs.map fun c =>
        c.name ++ "\\:\"" ++ escape (c.about.getD "") ++ "\"") ++ "))"
    else "(" ++ " ".intercalate (cs.map Choice.name) ++ ")"
  | _ => "_default"

def item (s : String) : String :=
  "'" ++ s ++ "' \\"

/-- An option with a value: its short form takes the value at once or as the next word, its long
form also behind an equals sign. -/
def valueItems (name : String) (kind : ValueKind) (s : Switch) : List String :=
  let tail := "[" ++ escape s.about ++ "]:" ++ name ++ ":" ++ completer kind
  (s.short.map fun c => item ("-" ++ String.singleton c ++ "+" ++ tail)).toList ++
    [item ("--" ++ s.long ++ "=" ++ tail)]

/-- An option without a value; one that is counted may be repeated. -/
def flagItems (s : Switch) : List String :=
  let star := if s.effect = .count then "*" else ""
  let tail := "[" ++ escape s.about ++ "]"
  (s.short.map fun c => item (star ++ "-" ++ String.singleton c ++ tail)).toList ++
    [item (star ++ "--" ++ s.long ++ tail)]

def switchItems (s : Spec) : List String :=
  (s.switches.flatMap fun sw =>
    match sw.effect with
    | .value name kind => valueItems name kind sw
    | _ => []) ++
  (s.switches.flatMap fun sw =>
    match sw.effect with
    | .value _ _ => []
    | _ => flagItems sw)

def positionalItem (p : Positional) : String :=
  item ((if p.rest then "*::" else ":") ++ p.key ++ " -- " ++ escape p.about ++ ":" ++
    completer p.kind)

def argumentsStart : String :=
  "_arguments \"$\x7b_arguments_options[@]\x7d\" : \\"

def argumentsEnd : String := "&& ret=0"

/-- The function that lists the commands below the command at the end of a path. -/
def listName (path : List String) : String :=
  "_" ++ "__subcmd__".intercalate path ++ "_commands"

/-- The dispatch on the command that follows the words of a path. -/
def dispatch (indent : String) (path : List String) (cases : List String) : List String :=
  let last := path.getLastD ""
  [indent ++ "case $state in",
    indent ++ "(" ++ last ++ ")",
    "        words=($line[1] \"$\x7bwords[@]\x7d\")",
    "        (( CURRENT += 1 ))",
    "        curcontext=\"$\x7bcurcontext%:*:*\x7d:" ++ "-".intercalate path ++
      "-command-$line[1]:\"",
    "        case $line[1] in"] ++ cases ++ ["        esac", "    ;;", "esac"]

def commandItems (path : List String) : List String :=
  ["\":: :" ++ listName path ++ "\" \\", "\"*::: :->" ++ path.getLastD "" ++ "\" \\"]

/-- A case of a dispatch, the first of which is indented. -/
def caseLabel (isFirst : Bool) (name : String) : String :=
  (if isFirst then "            " else "") ++ "(" ++ name ++ ")"

/-- Cases with their place: whether they are the first. -/
def marked {α : Type} : List α → List (Bool × α)
  | [] => []
  | a :: rest => (true, a) :: rest.map (false, ·)

/-- Behind the command that explains commands, commands take nothing. -/
def bareCase (isFirst : Bool) (s : Spec) : List String :=
  [caseLabel isFirst s.name, argumentsStart, argumentsEnd, ";;"]

def commandCase (isFirst : Bool) (s : Spec) : List String :=
  if s.name = Spec.help.name then
    let path := [programName, s.name]
    [caseLabel isFirst s.name, argumentsStart] ++ commandItems path ++ [argumentsEnd, ""] ++
      dispatch "    " path ((marked Spec.commands).flatMap fun (isFirst, c) => bareCase isFirst c) ++
      [";;"]
  else
    [caseLabel isFirst s.name, argumentsStart] ++ switchItems s ++
      s.positionals.map positionalItem ++ [argumentsEnd, ";;"]

def mainFunction : List String :=
  ["_runbook() \x7b",
    "    typeset -A opt_args",
    "    typeset -a _arguments_options",
    "    local ret=1",
    "",
    "    if is-at-least 5.2; then",
    "        _arguments_options=(-s -S -C)",
    "    else",
    "        _arguments_options=(-s -C)",
    "    fi",
    "",
    "    local context curcontext=\"$curcontext\" state line",
    "    " ++ argumentsStart] ++ switchItems Spec.program ++ commandItems [programName] ++
    [argumentsEnd] ++
    dispatch "    " [programName]
      ((marked Spec.commands).flatMap fun (isFirst, c) => commandCase isFirst c) ++ ["\x7d", ""]

def describeLine (path : List String) : String :=
  "    _describe -t commands '" ++ " ".intercalate path ++ " commands' commands \"$@\""

/-- The function that lists commands, or none. -/
def listFunction (path : List String) (commands : List Spec) : List String :=
  let name := listName path
  ["(( $+functions[" ++ name ++ "] )) ||", name ++ "() \x7b"] ++
    (if commands.isEmpty then ["    local commands; commands=()"]
    else ["    local commands; commands=("] ++
      commands.map (fun c => "'" ++ c.name ++ ":" ++ escape c.about ++ "' \\") ++ ["    )"]) ++
    [describeLine path, "\x7d"]

/-- Commands in the order of their names. -/
def sorted : List Spec :=
  Spec.commands.mergeSort fun a b => a.name ≤ b.name

def listFunctions : List String :=
  listFunction [programName] Spec.commands ++ sorted.flatMap fun c =>
    if c.name = Spec.help.name then
      listFunction [programName, c.name] Spec.commands ++
        sorted.flatMap fun d => listFunction [programName, c.name, d.name] []
    else listFunction [programName, c.name] []

def lines : List String :=
  ["#compdef " ++ programName, "", "autoload -U is-at-least", ""] ++ mainFunction ++
    listFunctions ++
    ["",
      "if [ \"$funcstack[1]\" = \"_runbook\" ]; then",
      "    _runbook \"$@\"",
      "else",
      "    compdef _runbook runbook",
      "fi"]

def script : String :=
  String.join (lines.map (· ++ "\n"))

end Runbooks.CommandLine.Completion.Zsh
