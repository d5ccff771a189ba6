namespace Runbooks

inductive Event where
  | out (text : String)
  /-- A message for the operator. -/
  | err (text : String)
  | log (text : String)
  /-- A started engine with its arguments, and what it printed. -/
  | launched (program : String) (arguments : List String) (printed : String)
  deriving DecidableEq, Repr

namespace Event

/-- What reaches standard output. -/
def stdout : Event → String
  | out text => text
  | launched _ _ printed => printed
  | _ => ""

/-- What reaches standard error. -/
def stderr : Event → String
  | err text => text
  | log text => text
  | _ => ""

end Event

end Runbooks
