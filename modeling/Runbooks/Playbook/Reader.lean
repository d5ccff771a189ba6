import Runbooks.Document.Record
import Runbooks.Document.Yaml.Reader
import Runbooks.Playbook.Play

/-!
Plays read from YAML documents. The action of a task is the first entry that is named for a module
and belongs to no other field; its arguments are plain values, in which texts have to be texts.
-/

namespace Runbooks

open Yaml (Value)

/-- How deep documents nest. -/
def Yaml.maxDepth : Nat := 128

namespace Action

/-- The name that the key of an argument stands for: itself, or that of the argument with its
number. Other keys stand for nothing at all, not even an unknown argument. -/
def argumentName? (names : List String) : Value → Option String
  | .scalar (.text s) => some s
  | .scalar (.int n) => if n < 0 then none else some (names.getD n.toNat "")
  | _ => none

def textValue? : Value → Option String
  | .scalar (.text s) => some s
  | _ => none

/-- The arguments by name: a mapping that gives each of them once, or a sequence of them all. -/
def arguments? (names : List String) : Value → Option (List String)
  | .mapping entries => do
    let named ← entries.mapM fun (k, v) => (argumentName? names k).map (·, v)
    let known := named.filter fun (n, _) => names.contains n
    if (known.map Prod.fst).Nodup then
      names.mapM fun n => known.lookup n >>= textValue?
    else none
  | .sequence items =>
    if items.length = names.length then items.mapM textValue? else none
  | _ => none

def moduleNames : List String := ["debug", "command", "shell"]

/-- The action of a module with its arguments. -/
def ofValue? (moduleName : String) (v : Value) : Option Action :=
  match moduleName with
  | "debug" =>
    match arguments? ["msg"] v with
    | some [message] => some (.debug message)
    | _ => none
  | "command" =>
    match arguments? ["cmd", "stdin"] v with
    | some [line, stdin] => some (.command line stdin)
    | _ => none
  | "shell" => (textValue? v).map .shell
  | _ => none

end Action

namespace Task

def fieldNames : List String := ["name", "become", "loop", "register", "ignore_errors"]

/-- How many levels a value in a task may still nest. -/
def valueDepth : Nat := Yaml.maxDepth - 4

/-- The values of all entries that belong to no field. -/
def otherValues? : Nat → List (String × Tree) → Option (List (String × Value) × Nat)
  | left, [] => some ([], left)
  | left, (name, t) :: rest =>
    if fieldNames.contains name then otherValues? left rest
    else do
      let (v, left) ← Value.read? true valueDepth left t
      let (vs, left) ← otherValues? left rest
      some ((name, v) :: vs, left)

/-- The entries of a table under the texts of their keys. -/
def entries? : Tree → Option (List (String × Tree))
  | .leaf _ l => if l.hollow then some [] else none
  | .list .. => none
  | .table _ _ entries => entries.mapM fun (k, v) => k.text?.map (·, v)
  | .alias t => entries? t

/-- The task of a tree, and how many aliases may still be followed after it. -/
def ofTree? (left : Nat) (t : Tree) : Option (Task × Nat) := do
  let entries ← entries? t
  let fields : Record := ⟨entries.filter fun (name, _) => fieldNames.contains name⟩
  let (others, left) ← otherValues? left entries
  let (moduleName, arguments) ← others.find? fun (name, _) => Action.moduleNames.contains name
  if (fields.entries.map Prod.fst).Nodup then
    let task : Task := {
      name := ← fields.required? Tree.text? "name"
      become := ← fields.optional? Tree.flag? "become"
      action := ← Action.ofValue? moduleName arguments
      loop := ← fields.optional? Tree.text? "loop"
      register := ← fields.optional? Tree.text? "register"
      ignoreErrors := ← fields.optional? Tree.flag? "ignore_errors" }
    some (task, left)
  else none

end Task

namespace Play

/-- Reads the items of a list one after the other, with what is left after each. -/
def readAll? {α : Type} (read : Nat → Tree → Option (α × Nat)) :
    Nat → List Tree → Option (List α × Nat)
  | left, [] => some ([], left)
  | left, t :: rest => do
    let (a, left) ← read left t
    let (as, left) ← readAll? read left rest
    some (a :: as, left)

/-- How many levels the value of a variable may still nest. -/
def valueDepth : Nat := Yaml.maxDepth - 3

/-- The variables of a table; the last value of a name counts. -/
def vars? (left : Nat) (acc : List (String × Value)) :
    List (String × Tree) → Option (List (String × Value) × Nat)
  | [] => some (acc, left)
  | (name, t) :: rest => do
    let (v, left) ← Value.read? false valueDepth left t
    vars? left (putVar name v acc) rest

def optionalVars? (left : Nat) (r : Record) : Option (Option (List (String × Value)) × Nat) :=
  match r.get? "vars" with
  | none => some (none, left)
  | some t =>
    match t.presence with
    | .absent => some (none, left)
    | .contradictory => none
    | .present => do
      let (vs, left) ← vars? left [] (← Task.entries? t)
      some (some vs, left)

def schema : Schema :=
  [⟨"name", none⟩, ⟨"hosts", none⟩, ⟨"gather_facts", none⟩, ⟨"become", none⟩, ⟨"vars", none⟩,
    ⟨"tasks", none⟩]

/-- The play of a tree, and how many aliases may still be followed after it. -/
def ofTree? (left : Nat) (t : Tree) : Option (Play × Nat) := do
  let r ← Record.ofTree? schema false t
  let (vars, left) ← optionalVars? left r
  let items ← match r.get? "tasks" with
    | none => some []
    | some t => t.items?
  let (tasks, left) ← readAll? Task.ofTree? left items
  let play : Play := {
    name := ← r.required? Tree.text? "name"
    hosts := ← r.required? Tree.text? "hosts"
    gatherFacts := ← r.required? Tree.flag? "gather_facts"
    become := ← r.optional? Tree.flag? "become"
    vars, tasks }
  some (play, left)

/-- The plays in a YAML text. -/
def readList? (source : String) : Option (List Play) := do
  let (t, left) ← Yaml.readWithLimit? source
  let (plays, _) ← readAll? ofTree? left (← t.items?)
  some plays

end Play

end Runbooks
