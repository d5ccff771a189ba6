import Runbooks.Artifacts.Delivery
import Runbooks.Log.Line
import Runbooks.Session.Event

namespace Runbooks

structure Voice where
  json : Bool := false
  coloured : Bool := false
  verbosity : Nat := 0
  deriving DecidableEq, Repr

namespace Voice

def paint (v : Voice) (code s : String) : String :=
  if v.coloured then Log.styled code s else s

/-- A JSON object on a line of its own. -/
def jsonLine (j : Json) : String :=
  j.text ++ "\n"

/-- Events for people only. -/
def human (v : Voice) (events : List Event) : List Event :=
  if v.json then [] else events

/-- A title, underlined by as many dashes as it has octets. -/
def sectionTitle (v : Voice) (title : String) : List Event :=
  let rule := String.ofList (List.replicate title.utf8ByteSize '-')
  v.human [.out ("\n" ++ v.paint "1;36" title ++ "\n" ++ v.paint "36" rule ++ "\n")]

def info (v : Voice) (message : String) : List Event :=
  if v.verbosity = 0 then [] else v.human [.out (v.paint "34" "INFO:" ++ " " ++ message ++ "\n")]

def list (v : Voice) (title : String) (items : List String) : List Event :=
  v.human [.out ("\n" ++ v.paint "1;97" title ++ ":\n" ++
    String.join (items.map fun i => "  " ++ v.paint "90" "-" ++ " " ++ i ++ "\n"))]

/-- A text as it is. -/
def raw (text : String) : List Event :=
  [.out text]

def validText (runbook : String) : String :=
  "Runbook '" ++ runbook ++ "' is valid"

def valid (v : Voice) (runbook : String) : List Event :=
  v.human [.out ("\n" ++ v.paint "1;32" (validText runbook) ++ "\n")]

/-- A result that is a JSON object, for programs only. -/
def result (v : Voice) (j : Json) : List Event :=
  if v.json then [.out (jsonLine j)] else []

def generatedJson (d : Delivery) (debug : Bool) : Json :=
  .object [("debug", .bool debug), ("inventory", .string d.inventoryPath),
    ("output_dir", .string d.outputDir), ("playbook", .string d.playbookPath),
    ("type", .string "generated")]

def generated (v : Voice) (d : Delivery) (debug : Bool) : List Event :=
  if v.json then v.result (generatedJson d debug)
  else [.out (v.paint "32" ("Generated inventory and playbook in " ++ d.outputDir) ++ "\n")]

def completed (v : Voice) (program elapsed : String) : List Event :=
  if v.json then
    v.result (.object [("elapsed", .string elapsed), ("program", .string program),
      ("type", .string "completed")])
  else [.out (v.paint "1;32" (program ++ " completed in") ++ " " ++ v.paint "97" elapsed ++ "\n")]

/-- A diagnostic of some type. -/
def diagnostic (v : Voice) (type code label message : String) : List Event :=
  if v.json then
    [.err (jsonLine (.object [("message", .string message), ("type", .string type)]))]
  else [.err (v.paint code label ++ " " ++ message ++ "\n")]

def error (v : Voice) (message : String) : List Event :=
  v.diagnostic "error" "1;31" "ERROR:" message

def warning (v : Voice) (message : String) : List Event :=
  v.diagnostic "warning" "1;33" "WARNING:" message

def hint (v : Voice) (message : String) : List Event :=
  v.human [.err (v.paint "1;36" "HINT:" ++ " " ++ message ++ "\n")]

end Voice

/-- A length of time in its two or three greatest units, down to milliseconds. -/
def durationText (milliseconds : Nat) : String :=
  let seconds := milliseconds / 1000
  let rest := milliseconds % 1000
  let minutes := seconds / 60
  if 3600 ≤ seconds then
    toString (seconds / 3600) ++ "h " ++ toString (minutes % 60) ++ "m " ++
      toString (seconds % 60) ++ "s"
  else if 60 ≤ seconds then toString minutes ++ "m " ++ toString (seconds % 60) ++ "s"
  else if 0 < seconds then
    toString seconds ++ "." ++ String.ofList (List.replicate (3 - (toString rest).length) '0') ++
      toString rest ++ "s"
  else toString rest ++ "ms"

end Runbooks
