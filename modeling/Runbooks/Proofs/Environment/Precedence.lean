import Runbooks.Environment

namespace Runbooks.Environment

/-- The value of a setting under an override that may be missing or silent about it. -/
def settled {α : Type} (setting : Environment → Option α) (base : Environment)
    (override : Option Environment) : Option α :=
  match override.bind setting with
  | some a => some a
  | none => setting base

/-- The settings by themselves, so that what holds of all four is said once. -/
inductive Setting where
  | user
  | sshKey
  | python
  | become
  deriving DecidableEq

namespace Setting

abbrev Value : Setting → Type
  | user | sshKey | python => String
  | become => Bool

/-- The value that an environment has for a setting, if it has one. -/
def of? : (s : Setting) → Environment → Option s.Value
  | user, e => e.user
  | sshKey, e => e.sshKey
  | python, e => e.python
  | become, e => e.become

@[simp] theorem of?_empty (s : Setting) : s.of? empty = none := by
  cases s <;> rfl

@[simp] theorem of?_overlay (s : Setting) (below above : Environment) :
    s.of? (below.overlay above) = (s.of? above).or (s.of? below) := by
  cases s <;> exact Option.or_eq_orElse.symm

end Setting

theorem eq_of_settings {e e' : Environment} (h : ∀ s : Setting, s.of? e = s.of? e') : e = e' := by
  cases e
  cases e'
  congr
  · exact h .user
  · exact h .sshKey
  · exact h .python
  · exact h .become

section Overlay

variable (a b c e : Environment)

theorem overlay_assoc : (a.overlay b).overlay c = a.overlay (b.overlay c) := by
  apply eq_of_settings
  intro s
  simp only [Setting.of?_overlay, Option.or_assoc]

theorem overlay_self : e.overlay e = e := by
  apply eq_of_settings
  intro s
  rw [Setting.of?_overlay, Option.or_self]

theorem empty_overlay : empty.overlay e = e := by
  apply eq_of_settings
  intro s
  rw [Setting.of?_overlay, Setting.of?_empty, Option.or_none]

theorem overlay_empty : e.overlay empty = e := by
  apply eq_of_settings
  intro s
  rw [Setting.of?_overlay, Setting.of?_empty, Option.none_or]

theorem resolve_eq_overlay (base : Environment) (override : Option Environment) :
    resolve base override = base.overlay (override.getD empty) := by
  cases override with
  | none => exact (overlay_empty base).symm
  | some above => rfl

end Overlay

end Runbooks.Environment
