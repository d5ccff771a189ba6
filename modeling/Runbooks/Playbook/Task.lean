import Runbooks.Runbook

namespace Runbooks

/-- The module that a task calls, with its arguments. -/
inductive Action where
  | debug (message : String)
  | command (line stdin : String)
  | shell (line : String)
  deriving DecidableEq, Repr

namespace Action

def moduleName : Action → String
  | debug _ => "debug"
  | command .. => "command"
  | shell _ => "shell"

end Action

structure Task where
  name : String
  become : Option Bool := none
  action : Action
  /-- What the task is repeated over. -/
  loop : Option String := none
  /-- The variable that keeps the result. -/
  register : Option String := none
  ignoreErrors : Option Bool := none
  deriving DecidableEq, Repr

namespace Task

def isPrintOnly (t : Task) : Bool :=
  match t.action with
  | .debug _ => true
  | _ => false

/-- What names of tasks that only print start with. -/
def printMark : String := "Print: "

def resultVariable : String := "result"

/-- The task of a step: commands take the given choice where they make none of their own. -/
def ofStep (becomeDefault : Option Bool) (s : Step) : Task :=
  match s.kind with
  | .message text => { name := printMark ++ s.name, action := .debug text, loop := s.loop }
  | .stdinCommand line stdin become =>
    { name := s.name, become := become <|> becomeDefault, action := .command line stdin,
      loop := s.loop }
  | .shell line become =>
    { name := s.name, become := become <|> becomeDefault, action := .shell line, loop := s.loop }

/-- Keeps the result and lets no error pass; a task that only prints stays as it is. -/
def captureResult (t : Task) : Task :=
  if t.isPrintOnly then t
  else { t with register := some resultVariable, ignoreErrors := some false }

end Task

end Runbooks
