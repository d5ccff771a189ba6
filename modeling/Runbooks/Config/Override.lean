import Runbooks.Config

/-!
Overrides from environment variables. Variables are applied one after the other in a fixed order;
the first with a value that its key does not take stops the rest, and what was applied before it
stays.
-/

namespace Runbooks

/-- The value of each variable that is set. -/
abbrev Variables := String → Option String

namespace Config

/-- Truth values as users write them: surrounding white space and case do not matter, and nothing
at all means no. -/
def flagOfText? (key value : String) : Except Failure Bool :=
  let word := lowerAscii (trimmed value)
  if ["1", "true", "yes", "on"].contains word then .ok true
  else if ["0", "false", "no", "off", ""].contains word then .ok false
  else .error (.setting key ("expected a boolean, got '" ++ word ++ "'"))

/-- Log formats as users write them: only case does not matter. -/
def formatOfText? (key value : String) : Except Failure LogFormat :=
  match LogFormat.named? (lowerAscii value) with
  | some f => .ok f
  | none => .error (.setting key
      ("unknown format '" ++ lowerAscii value ++ "', expected 'text' or 'json'"))

/-- The name of a variable and what its value does to a configuration. -/
structure Override where
  name : String
  apply : String → Config → Except Failure Config

def overrides : List Override :=
  [⟨"RUNBOOK_OUTPUT_DIR", fun s c => .ok { c with outputDir := s }⟩,
    ⟨"RUNBOOK_DEBUG", fun s c => do
      let debug ← flagOfText? "RUNBOOK_DEBUG" s
      .ok { c with debug }⟩,
    ⟨"RUNBOOK_INVENTORY_MODE", fun s c => do
      let mode ← InventoryMode.ofText? s
      .ok { c with mode }⟩,
    ⟨"RUNBOOK_ANSIBLE_PLAYBOOK", fun s c => .ok { c with executable := s }⟩,
    ⟨"RUNBOOK_LOG_LEVEL", fun s c => .ok { c with logLevel := s }⟩,
    ⟨"RUNBOOK_LOG_FORMAT", fun s c => do
      let logFormat ← formatOfText? "RUNBOOK_LOG_FORMAT" s
      .ok { c with logFormat }⟩]

/-- Applies overrides in order, up to the first that fails. -/
def applyAll (vars : Variables) : List Override → Config → Option Failure × Config
  | [], c => (none, c)
  | o :: rest, c =>
    match vars o.name with
    | none => applyAll vars rest c
    | some s =>
      match o.apply s c with
      | .ok c => applyAll vars rest c
      | .error f => (some f, c)

/-- The configuration after the overrides, and what stopped them if anything did. -/
def applyOverrides (vars : Variables) (c : Config) : Option Failure × Config :=
  applyAll vars overrides c

end Config

end Runbooks
