import Mathlib.Data.List.Forall2
import Runbooks.Playbook.Play

namespace Runbooks

/-- Whether a step runs with raised rights in a runbook that says `default`. A message has no use
for them. -/
def Step.effectiveBecome (default : Option Bool) (s : Step) : Option Bool :=
  match s.kind with
  | .message _ => none
  | .stdinCommand _ _ (some become) => some become
  | .shell _ (some become) => some become
  | _ => default

/-- The step with its own choice of rights replaced by the one that takes effect. -/
def Step.settled (default : Option Bool) (s : Step) : Step :=
  match s.kind with
  | .message _ => s
  | .stdinCommand command stdin _ =>
    { s with kind := .stdinCommand command stdin (s.effectiveBecome default) }
  | .shell command _ => { s with kind := .shell command (s.effectiveBecome default) }

namespace Task

/-- A name without the mark of tasks that only print. -/
def unmarked (name : String) : String :=
  if printMark.toList.isPrefixOf name.toList then
    String.ofList (name.toList.drop printMark.toList.length)
  else name

/-- The step that a task was made for. Only the names of printing tasks carry a mark, whatever the
others begin with. -/
def step (t : Task) : Step :=
  match t.action with
  | .debug text => { name := unmarked t.name, kind := .message text, loop := t.loop }
  | .command line stdin =>
    { name := t.name, kind := .stdinCommand line stdin t.become, loop := t.loop }
  | .shell line => { name := t.name, kind := .shell line t.become, loop := t.loop }

/-- The task `t` does what `s` says in a runbook that says `default`. -/
structure Does (default : Option Bool) (s : Step) (t : Task) : Prop where
  step : t.step = s.settled default
  become : t.become = s.effectiveBecome default

theorem unmarked_printMark_append (name : String) : unmarked (printMark ++ name) = name := by
  have hchars : (printMark ++ name).toList = printMark.toList ++ name.toList :=
    String.toList_append
  have hmarked : printMark.toList.isPrefixOf (printMark.toList ++ name.toList) = true :=
    List.isPrefixOf_iff_prefix.mpr (List.prefix_append _ _)
  rw [unmarked, hchars, if_pos hmarked, List.drop_left, String.ofList_toList]

theorem ofStep_does (default : Option Bool) (s : Step) : Does default s (ofStep default s) := by
  obtain ⟨name, kind, loop⟩ := s
  cases kind with
  | message text =>
    refine ⟨?_, rfl⟩
    change { name := unmarked (printMark ++ name), kind := .message text, loop : Step } = _
    rw [unmarked_printMark_append]
    rfl
  | stdinCommand command stdin become =>
    cases become <;> exact ⟨rfl, rfl⟩
  | shell command become =>
    cases become <;> exact ⟨rfl, rfl⟩

/-- A step whose own name begins with the mark keeps it, be it a message or a command. -/
example : (ofStep none (Step.message "Print: a" "b")).step = Step.message "Print: a" "b" ∧
    (ofStep none (Step.shell "Print: a" "b")).step = Step.shell "Print: a" "b" := by
  decide

theorem Does.captureResult {default : Option Bool} {s : Step} {t : Task} (h : Does default s t) :
    Does default s t.captureResult := by
  unfold Task.captureResult
  split
  · exact h
  · exact ⟨h.step, h.become⟩

end Task

namespace Play

theorem tasks_ofRunbook (r : Runbook) (debug : Bool) :
    List.Forall₂ (Task.Does r.environment.become) r.steps (ofRunbook r debug).tasks := by
  have hplain : List.Forall₂ (Task.Does r.environment.become) r.steps
      (r.steps.map (Task.ofStep r.environment.become)) := by
    apply List.forall₂_map_right_iff.mpr
    apply List.forall₂_same.mpr
    intro s _
    exact Task.ofStep_does _ s
  unfold ofRunbook
  split
  · exact List.forall₂_map_right_iff.mpr (hplain.imp fun _ _ h => h.captureResult)
  · exact hplain

end Play

end Runbooks
