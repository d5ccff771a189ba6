import Runbooks.Inventory.Generation
import Runbooks.Proofs.Environment.Precedence

namespace Runbooks

namespace Environment

variable (base above : Environment) (override : Option Environment)

theorem resolve_resolved : resolve base (some (resolve base override)) = resolve base override := by
  rw [resolve_eq_overlay base override]
  calc base.overlay (base.overlay (override.getD empty))
      = (base.overlay base).overlay (override.getD empty) := (overlay_assoc ..).symm
    _ = base.overlay (override.getD empty) := by rw [overlay_self]

theorem resolve_empty_resolved : resolve empty (some (resolve base override)) = resolve base override :=
  empty_overlay _

/-- What is laid on top of a base may be laid beneath the override instead. -/
theorem resolve_overlay : resolve (base.overlay above) override =
    resolve base (some (override.elim above above.overlay)) := by
  cases override with
  | none => rfl
  | some own => exact overlay_assoc base above own

end Environment

/-- Two hosts, each over a base of its own, that cannot be told apart: they go by the same address
and come to the same environment. -/
structure Host.Alike (base base' : Environment) (h h' : Host) : Prop where
  address : h'.address = h.address
  environment : Environment.resolve base' h'.override = Environment.resolve base h.override

theorem HostLine.ofHost_eq_of_address (mode : InventoryMode) {h h' : Host}
    (haddress : h'.address = h.address) (env : Environment) :
    ofHost mode h' env = ofHost mode h env := by
  have hconnection : mode.connection h' = mode.connection h := by
    unfold InventoryMode.connection Host.isLocalhost
    rw [haddress]
  unfold ofHost
  rw [haddress, hconnection]

namespace Inventory

theorem generate_map_of_alike {base base' : Environment} {hosts : List Host} {f : Host → Host}
    (mode : InventoryMode) (halike : ∀ h ∈ hosts, Host.Alike base base' h (f h)) :
    generate mode (hosts.map f) base' = generate mode hosts base := by
  have hlines : ∀ h ∈ hosts,
      HostLine.ofHost mode (f h) (Environment.resolve base' (f h).override) =
        HostLine.ofHost mode h (Environment.resolve base h.override) := by
    intro h hh
    obtain ⟨haddress, henvironment⟩ := halike h hh
    rw [henvironment, HostLine.ofHost_eq_of_address mode haddress]
  unfold generate
  rw [List.map_map]
  exact congrArg (Inventory.mk managedGroup) (List.map_congr_left hlines)

/-- Overrides can be completed from the base, which is not needed any more then, and a layer of the
base can be moved beneath the overrides. -/
theorem generate_flattened (mode : InventoryMode) (hosts : List Host)
    (base above : Environment) :
    generate mode (hosts.map fun h =>
        { h with override := some (Environment.resolve base h.override) }) base =
      generate mode hosts base ∧
    generate mode (hosts.map fun h =>
        { h with override := some (Environment.resolve base h.override) }) .empty =
      generate mode hosts base ∧
    generate mode hosts (base.overlay above) =
      generate mode (hosts.map fun h =>
        { h with override := some (h.override.elim above above.overlay) }) base := by
  refine ⟨?_, ?_, ?_⟩
  · apply generate_map_of_alike
    intro h _
    exact ⟨rfl, Environment.resolve_resolved base h.override⟩
  · apply generate_map_of_alike
    intro h _
    exact ⟨rfl, Environment.resolve_empty_resolved base h.override⟩
  · symm
    apply generate_map_of_alike
    intro h _
    exact ⟨rfl, (Environment.resolve_overlay base above h.override).symm⟩

end Inventory

end Runbooks
