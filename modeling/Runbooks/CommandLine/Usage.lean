import Runbooks.CommandLine.Grammar
import Runbooks.Text.Digits
import Runbooks.Text.Wrapped

namespace Runbooks.CommandLine

namespace Spec

def isProgram (s : Spec) : Bool :=
  s.name = programName

/-- The words that call a command. -/
def path (s : Spec) : String :=
  if s.isProgram then programName else programName ++ " " ++ s.name

def usage (s : Spec) : String :=
  "Usage: " ++ s.path ++
    (if s.switches.isEmpty then "" else " [OPTIONS]") ++
    String.join (s.positionals.map fun p => " " ++ p.usage) ++
    (if s.isProgram then " <COMMAND>" else "") ++
    (if s.name = "help" then " [COMMAND]..." else "")

end Spec

def spaces (n : Nat) : String :=
  String.ofList (List.replicate n ' ')

def padded (width : Nat) (s : String) : String :=
  s ++ spaces (width - s.length)

/-- The greatest of some widths. -/
def widest (texts : List String) : Nat :=
  (texts.map String.length).foldl Nat.max 0

/-- The width that help texts are laid out for where nothing else is asked for. -/
def standardWidth : Nat := 100

/-- The variable that asks for a width. -/
def widthVariable : String := "COLUMNS"

/-- The width that help texts are laid out for. -/
def lineWidth (vars : String → Option String) : Nat :=
  let given := (vars widthVariable).bind fun s => match s.toList with
    | '+' :: digits => readNat? 10 digits
    | digits => readNat? 10 digits
  given.getD standardWidth

/-- An entry of a list of options or arguments. -/
structure HelpItem where
  /-- The short name of an option, or the space for one. -/
  lead : String
  label : String
  about : String
  /-- Words that are explained one by one. -/
  explained : List (String × String)
  /-- What stands in brackets behind the explanation. -/
  remarks : List String

namespace HelpItem

def remark (key value : String) : String :=
  "[" ++ key ++ ": " ++ value ++ "]"

def choiceRemarks (cs : List Choice) : List String :=
  if cs.isEmpty then [] else [remark "possible values" (", ".intercalate (cs.map Choice.name))]

/-- Choices are explained one by one in a long text where one of them has an explanation. -/
def explanations (long : Bool) (cs : List Choice) : List (String × String) :=
  if long && cs.any (·.about.isSome) then cs.map fun c => (c.name, c.about.getD "") else []

def ofSwitch (vars : String → Option String) (long : Bool) (s : Switch) : HelpItem where
  lead := match s.short with
    | some c => "-" ++ String.singleton c ++ ", "
    | none => "    "
  label := s.text
  about := if long && s.effect = .help then "Print help (see a summary with '-h')" else s.about
  explained := explanations long s.choices
  remarks :=
    (match s.variableName with
      | some v => [remark "env" (v ++ "=" ++ (vars v).getD "")]
      | none => []) ++
    (match s.default with
      | some d => [remark "default" d]
      | none => []) ++
    (if (explanations long s.choices).isEmpty then choiceRemarks s.choices else [])

def ofPositional (long : Bool) (p : Positional) : HelpItem where
  lead := ""
  label := p.text
  about := p.about
  explained := explanations long p.choices
  remarks := if (explanations long p.choices).isEmpty then choiceRemarks p.choices else []

def oneLineAbout (i : HelpItem) : String :=
  " ".intercalate (i.about :: i.remarks)

/-- Whether an explanation that starts behind the labels leaves too little of a line. -/
def isCrowded (line width : Nat) (i : HelpItem) : Bool :=
  let taken := width + 12
  taken ≤ line && line * 2 < taken * 5 &&
    line - taken < i.about.length + (" ".intercalate i.remarks).length

/-- Where explanations start that have lines of their own. -/
def ownColumn : Nat := 10

def indent : String := spaces ownColumn

/-- An explanation behind the label, its further lines under its first one. -/
def sameLine (line width : Nat) (i : HelpItem) : String :=
  let column := width + 4 + i.lead.length
  "  " ++ i.lead ++ padded width i.label ++ "  " ++
    wrapped (line - column) column i.oneLineAbout ++ "\n"

def ownLines (line : Nat) (s : String) : String :=
  indent ++ wrapped (line - ownColumn) ownColumn s ++ "\n"

def nextLine (line : Nat) (i : HelpItem) : String :=
  "  " ++ i.lead ++ i.label ++ "\n" ++ ownLines line i.oneLineAbout

def explainedLines (line : Nat) (i : HelpItem) : String :=
  if i.explained.isEmpty then ""
  else
    let width := widest (i.explained.map fun (name, _) => name ++ ":")
    let column := ownColumn + 2
    "\n" ++ indent ++ "Possible values:\n" ++ String.join (i.explained.map fun (name, about) =>
      indent ++ "- " ++
        wrapped (line - column) column (padded width (name ++ ":") ++ " " ++ about) ++ "\n")

def remarkLines (line : Nat) (i : HelpItem) : String :=
  if i.remarks.isEmpty then ""
  else indent ++ "\n" ++ String.join (i.remarks.map (ownLines line))

def paragraph (line : Nat) (i : HelpItem) : String :=
  "  " ++ i.lead ++ i.label ++ "\n" ++ ownLines line i.about ++ i.explainedLines line ++
    i.remarkLines line

/-- A titled list of items, preceded by an empty line. -/
def list (line : Nat) (long : Bool) (title : String) (items : List HelpItem) : String :=
  if items.isEmpty then ""
  else
    let width := widest (items.map HelpItem.label)
    "\n" ++ title ++ ":\n" ++
      (if long then "\n".intercalate (items.map (paragraph line))
      else if items.any (·.isCrowded line width) then String.join (items.map (nextLine line))
      else String.join (items.map (sameLine line width)))

end HelpItem

namespace Spec

/-- The commands with what they do. Lines that an explanation goes on with stand as far to the
right as they do in the list of options. -/
def commandList (line : Nat) (s : Spec) : String :=
  if s.isProgram then
    let width := widest (commands.map Spec.name)
    let items := commands.map fun c => HelpItem.mk "" c.name c.about [] []
    let column := width + 8
    "\nCommands:\n" ++
      (if items.any (·.isCrowded line width) then String.join (items.map (HelpItem.nextLine line))
      else String.join (items.map fun i =>
        "  " ++ padded width i.label ++ "  " ++ wrapped (line - column) column i.about ++ "\n"))
  else ""

/-- The argument of the command that explains commands, which no other command has. -/
def helpArguments (s : Spec) : List HelpItem :=
  if s.name = "help" then
    [{ lead := "", label := "[COMMAND]...", about := "Print help for the subcommand(s)",
       explained := [], remarks := [] }]
  else []

/-- The whole help text of a command. Of the command that explains commands there is a short one
only. -/
def helpText (vars : String → Option String) (long : Bool) (s : Spec) : String :=
  let line := lineWidth vars
  wrapped line 0 s.about ++ "\n\n" ++ s.usage ++ "\n" ++ s.commandList line ++
    HelpItem.list line false "Arguments" s.helpArguments ++
    HelpItem.list line long "Arguments" (s.positionals.map (HelpItem.ofPositional long)) ++
    HelpItem.list line long "Options" (s.switches.map (HelpItem.ofSwitch vars long))

def versionText (s : Spec) : String :=
  (if s.isProgram then programName else programName ++ "-" ++ s.name) ++ " " ++ programVersion ++
    "\n"

end Spec

/-- Why a command line is refused. -/
inductive Complaint where
  | missingValue (argument : String)
  | surplusValue (argument value : String)
  | invalidValue (argument value : String) (reason : Option String) (choices : List Choice)
  | unexpected (argument : String)
  | unknownCommand (name : String)
  | repeated (argument : String)
  | missingArguments (arguments : List String)
  | missingCommand
  deriving DecidableEq, Repr

namespace Complaint

def message : Complaint → String
  | missingValue a => "a value is required for '" ++ a ++ "' but none was supplied"
  | surplusValue a v =>
    "unexpected value '" ++ v ++ "' for '" ++ a ++ "' found; no more were expected"
  | invalidValue a v reason _ =>
    if v.isEmpty && reason.isNone then "a value is required for '" ++ a ++ "' but none was supplied"
    else "invalid value '" ++ v ++ "' for '" ++ a ++ "'" ++
      (match reason with
        | some r => ": " ++ r
        | none => "")
  | unexpected a => "unexpected argument '" ++ a ++ "' found"
  | unknownCommand name => "unrecognized subcommand '" ++ name ++ "'"
  | repeated a => "the argument '" ++ a ++ "' cannot be used multiple times"
  | missingArguments _ => "the following required arguments were not provided:"
  | missingCommand => "'" ++ programName ++ "' requires a subcommand but one was not provided"

/-- Further lines, with what would have been right. -/
def details : Complaint → String
  | invalidValue _ _ _ cs =>
    if cs.isEmpty then ""
    else "  " ++ HelpItem.remark "possible values" (", ".intercalate (cs.map Choice.name)) ++ "\n"
  | missingArguments as => String.join (as.map fun a => "  " ++ a ++ "\n")
  | missingCommand =>
    "  " ++ HelpItem.remark "subcommands" (", ".intercalate (Spec.commands.map Spec.name)) ++ "\n"
  | _ => ""

/-- The complaint as it is printed, with the usage of the command it is about. -/
def text (s : Spec) (c : Complaint) : String :=
  "error: " ++ c.message ++ "\n" ++ c.details ++ "\n" ++ s.usage ++
    "\n\nFor more information, try '--help'.\n"

end Complaint

end Runbooks.CommandLine
