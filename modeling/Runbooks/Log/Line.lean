import Runbooks.Document.Json
import Runbooks.Log.Filter
import Runbooks.Text.Quoted

namespace Runbooks.Log

/-- The value of a field; texts may be shown in quotes. -/
inductive Value where
  | shown (text : String)
  | quoted (text : String)
  | number (n : Nat)
  | flag (b : Bool)
  deriving DecidableEq, Repr

namespace Value

def text : Value → String
  | shown s => s
  | quoted s => Text.quoted s
  | number n => toString n
  | flag true => "true"
  | flag false => "false"

def json : Value → Json
  | shown s => .string s
  | quoted s => .string s
  | number n => .number n
  | flag b => .bool b

end Value

structure Line where
  level : Level
  target : String
  message : String
  fields : List (String × Value) := []
  deriving DecidableEq, Repr

/-- A text between escape sequences for a terminal. -/
def styled (code : String) (s : String) : String :=
  "\x1b[" ++ code ++ "m" ++ s ++ "\x1b[0m"

namespace Level

/-- Names are right-aligned. -/
def label (l : Level) : String :=
  String.ofList (List.replicate (5 - l.name.length) ' ') ++ l.name

def colour : Level → String
  | error => "31"
  | warn => "33"
  | info => "32"
  | debug => "34"
  | trace => "35"

end Level

inductive Layout where
  | text (target coloured : Bool)
  | json
  deriving DecidableEq, Repr

namespace Line

def plainText (target : Bool) (stamp : String) (l : Line) : String :=
  stamp ++ " " ++ l.level.label ++ " " ++ (if target then l.target ++ ": " else "") ++ l.message ++
    String.join (l.fields.map fun (name, v) => " " ++ name ++ "=" ++ v.text)

def colouredText (target : Bool) (stamp : String) (l : Line) : String :=
  styled "2" stamp ++ " " ++ styled l.level.colour l.level.label ++ " " ++
    (if target then styled "2" l.target ++ styled "2" ":" ++ " " else "") ++ l.message ++
    String.join (l.fields.map fun (name, v) => " " ++ styled "3" name ++ styled "2" "=" ++ v.text)

def json (stamp : String) (l : Line) : Json :=
  .object [("timestamp", .string stamp), ("level", .string l.level.name),
    ("fields", .object (("message", .string l.message) ::
      l.fields.map fun (name, v) => (name, v.json))),
    ("target", .string l.target)]

def text (layout : Layout) (stamp : String) (l : Line) : String :=
  match layout with
  | .text target true => l.colouredText target stamp ++ "\n"
  | .text target false => l.plainText target stamp ++ "\n"
  | .json => (l.json stamp).text ++ "\n"

end Line

end Runbooks.Log
