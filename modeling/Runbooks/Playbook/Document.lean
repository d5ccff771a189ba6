import Runbooks.Document.Yaml.Writer
import Runbooks.Playbook.Play

namespace Runbooks

/-- A field of a mapping that has no entry when it is absent. -/
def Yaml.Value.optionalField {α : Type} (name : String) (f : α → Yaml.Value) (a : Option α) :
    List (Yaml.Value × Yaml.Value) :=
  match a with
  | some a => [(.text name, f a)]
  | none => []

open Yaml (Value)

namespace Action

def value : Action → Value
  | debug message => .mapping [(.text "msg", .text message)]
  | command line stdin => .mapping [(.text "cmd", .text line), (.text "stdin", .text stdin)]
  | shell line => .text line

end Action

namespace Task

def value (t : Task) : Value :=
  .mapping ([(.text "name", .text t.name)] ++
    Value.optionalField "become" Value.bool t.become ++
    [(.text t.action.moduleName, t.action.value)] ++
    Value.optionalField "loop" Value.text t.loop ++
    Value.optionalField "register" Value.text t.register ++
    Value.optionalField "ignore_errors" Value.bool t.ignoreErrors)

end Task

namespace Play

def varsValue (vars : List (String × Value)) : Value :=
  .mapping (vars.map fun (name, v) => (.text name, v))

def value (p : Play) : Value :=
  .mapping ([(.text "name", .text p.name), (.text "hosts", .text p.hosts),
      (.text "gather_facts", .bool p.gatherFacts)] ++
    Value.optionalField "become" Value.bool p.become ++
    Value.optionalField "vars" varsValue p.vars ++
    [(.text "tasks", .sequence (p.tasks.map Task.value))])

/-- The document of a list of plays. -/
def document (plays : List Play) : Value :=
  .sequence (plays.map value)

/-- The text of a list of plays. -/
def write (plays : List Play) : String :=
  (document plays).write

end Play

end Runbooks
