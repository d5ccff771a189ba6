import Mathlib.Data.List.Forall2
import Runbooks.Proofs.Environment.Precedence
import Runbooks.Proofs.Inventory.Settings

namespace Runbooks

/-- A host that no connection is made to: the local machine, where addresses count. -/
def InventoryMode.IsLocal (mode : InventoryMode) (h : Host) : Prop :=
  mode = .addressAware ∧ h.address = "localhost"

theorem InventoryMode.connection_eq (mode : InventoryMode) (h : Host) :
    (mode.connection h = .local ↔ mode.IsLocal h) ∧
      (mode.connection h = .ssh ↔ ¬ mode.IsLocal h) := by
  unfold connection IsLocal Host.isLocalhost
  cases mode with
  | uniform => simp
  | addressAware => by_cases hh : h.address = "localhost" <;> simp [hh]

namespace HostLine

def localVars (env : Environment) : List (String × String) :=
  (connectionVar, "local") ::
    (pairOf pythonVar env.python ++ pairOf becomeVar (env.become.map flagText))

def remoteVars (env : Environment) : List (String × String) :=
  pairOf userVar env.user ++ (pairOf sshKeyVar env.sshKey ++
    (pairOf pythonVar env.python ++ pairOf becomeVar (env.become.map flagText)))

/-- What the line of a host says, given the environment it is resolved to. -/
structure Describes (mode : InventoryMode) (h : Host) (env : Environment) (l : HostLine) :
    Prop where
  address : l.address = h.address
  local_vars : mode.IsLocal h → l.vars = localVars env
  remote_vars : ¬ mode.IsLocal h → l.vars = remoteVars env
  local_silent : mode.IsLocal h → l.get? userVar = none ∧ l.get? sshKeyVar = none
  remote_silent : ¬ mode.IsLocal h → l.get? connectionVar = none

/-- The settings that make up the line of a host. -/
def settingsOf (mode : InventoryMode) (h : Host) (env : Environment) : List Setting :=
  let common := [⟨pythonVar, env.python.map .text⟩, ⟨becomeVar, env.become.map .flag⟩]
  match mode.connection h with
  | .local => ⟨connectionVar, some (.text "local")⟩ :: common
  | .ssh => ⟨userVar, env.user.map .text⟩ :: ⟨sshKeyVar, env.sshKey.map .text⟩ :: common

theorem shown_text (value : Option String) : (value.map Value.text).map Value.shown = value := by
  cases value <;> rfl

theorem shown_flag (value : Option Bool) :
    (value.map Value.flag).map Value.shown = value.map flagText := by
  cases value <;> rfl

theorem ofHost_eq_setAll (mode : InventoryMode) (h : Host) (env : Environment) :
    ofHost mode h env = setAll (settingsOf mode h env) { address := h.address } := by
  unfold ofHost settingsOf
  cases mode.connection h with
  | ssh =>
    simp only [setAll, List.foldl_cons, List.foldl_nil, shown_text, shown_flag]
  | «local» =>
    simp only [setAll, List.foldl_cons, List.foldl_nil, shown_text, shown_flag]
    rfl

theorem keys_settingsOf_local {mode : InventoryMode} {h : Host} (hl : mode.IsLocal h)
    (env : Environment) :
    (settingsOf mode h env).map Setting.key = [connectionVar, pythonVar, becomeVar] := by
  rw [settingsOf, (mode.connection_eq h).1.mpr hl]
  rfl

theorem keys_settingsOf_remote {mode : InventoryMode} {h : Host} (hr : ¬ mode.IsLocal h)
    (env : Environment) :
    (settingsOf mode h env).map Setting.key = [userVar, sshKeyVar, pythonVar, becomeVar] := by
  rw [settingsOf, (mode.connection_eq h).2.mpr hr]
  rfl

theorem vars_ofHost (mode : InventoryMode) (h : Host) (env : Environment) :
    (ofHost mode h env).vars = given (settingsOf mode h env) := by
  rw [ofHost_eq_setAll]
  apply vars_setAll_of_nodup
  by_cases hl : mode.IsLocal h
  · rw [keys_settingsOf_local hl]
    decide
  · rw [keys_settingsOf_remote hl]
    decide

theorem ofHost_describes (mode : InventoryMode) (h : Host) (env : Environment) :
    Describes mode h env (ofHost mode h env) := by
  have hvars := vars_ofHost mode h env
  refine ⟨?_, ?_, ?_, ?_, ?_⟩
  · rw [ofHost_eq_setAll, address_setAll]
  · intro hl
    rw [hvars, settingsOf, (mode.connection_eq h).1.mpr hl]
    simp only [given_cons, given_nil, shown_text, shown_flag, List.append_nil]
    rfl
  · intro hr
    rw [hvars, settingsOf, (mode.connection_eq h).2.mpr hr]
    simp only [given_cons, given_nil, shown_text, shown_flag, List.append_nil]
    rfl
  · intro hl
    have hkeys := keys_settingsOf_local hl env
    rw [get?, get?, hvars]
    exact ⟨lookup_given_of_not_mem (by rw [hkeys]; decide),
      lookup_given_of_not_mem (by rw [hkeys]; decide)⟩
  · intro hr
    have hkeys := keys_settingsOf_remote hr env
    rw [get?, hvars]
    exact lookup_given_of_not_mem (by rw [hkeys]; decide)

end HostLine

namespace Inventory

end Inventory

end Runbooks
