import Mathlib.Data.List.Forall2
import Runbooks.Artifacts

namespace Runbooks

theorem Runbook.effectiveDebug_withDebugDefault_false (r : Runbook) (debug : Bool) :
    (r.withDebugDefault false).effectiveDebug debug = debug :=
  Bool.or_false debug

theorem Runbook.effectiveDebug_effectiveDebug (r : Runbook) (debug : Bool) :
    r.effectiveDebug (r.effectiveDebug debug) = r.effectiveDebug debug := by
  unfold effectiveDebug
  rw [Bool.or_assoc, Bool.or_self]

namespace Task

/-- The task `u` is `t` with its result kept, unless it only prints. -/
structure Captures (t u : Task) : Prop where
  register_absent : t.register = none
  ignoreErrors_absent : t.ignoreErrors = none
  printing : t.isPrintOnly = true → u = t
  acting : t.isPrintOnly = false →
    u = { t with register := some "result", ignoreErrors := some false }

/-- The task without what says how its result is kept. -/
def withoutCapture (t : Task) : Task :=
  { t with register := none, ignoreErrors := none }

theorem isPrintOnly_captureResult (t : Task) : t.captureResult.isPrintOnly = t.isPrintOnly := by
  unfold captureResult
  split <;> rfl

theorem captureResult_of_printing {t : Task} (h : t.isPrintOnly = true) : t.captureResult = t :=
  if_pos h

theorem captureResult_of_acting {t : Task} (h : t.isPrintOnly = false) :
    t.captureResult = { t with register := some "result", ignoreErrors := some false } :=
  if_neg (Bool.eq_false_iff.mp h)

theorem captureResult_captureResult (t : Task) :
    t.captureResult.captureResult = t.captureResult := by
  cases h : t.isPrintOnly with
  | true => rw [captureResult_of_printing h, captureResult_of_printing h]
  | false =>
    have h' : t.captureResult.isPrintOnly = false := by rw [isPrintOnly_captureResult, h]
    rw [captureResult_of_acting h', captureResult_of_acting h]

theorem captures_ofStep (becomeDefault : Option Bool) (s : Step) :
    Captures (ofStep becomeDefault s) (ofStep becomeDefault s).captureResult := by
  obtain ⟨name, kind, loop⟩ := s
  refine ⟨?_, ?_, captureResult_of_printing, captureResult_of_acting⟩ <;> cases kind <;> rfl

theorem Captures.withoutCapture_eq {t u : Task} (h : Captures t u) : u.withoutCapture = t := by
  have hbare : t.withoutCapture = t := by
    unfold withoutCapture
    rw [← h.register_absent, ← h.ignoreErrors_absent]
  cases hprint : t.isPrintOnly with
  | true => rw [h.printing hprint, hbare]
  | false =>
    rw [h.acting hprint]
    exact hbare

theorem map_withoutCapture {ts us : List Task} (h : List.Forall₂ Captures ts us) :
    us.map withoutCapture = ts := by
  induction h with
  | nil => rfl
  | cons htask _ ih => rw [List.map_cons, htask.withoutCapture_eq, ih]

/-- What a task carries of debugging: what keeps its result, if it does more than print. -/
structure Carries (debug : Bool) (t : Task) : Prop where
  register : t.register = if debug && !t.isPrintOnly then some "result" else none
  ignoreErrors : t.ignoreErrors = if debug && !t.isPrintOnly then some false else none

theorem Captures.carries {t u : Task} (h : Captures t u) :
    t.Carries false ∧ u.Carries true := by
  refine ⟨⟨h.register_absent, h.ignoreErrors_absent⟩, ?_⟩
  cases hprint : t.isPrintOnly with
  | true =>
    rw [h.printing hprint]
    constructor
    · rw [h.register_absent, hprint]
      rfl
    · rw [h.ignoreErrors_absent, hprint]
      rfl
  | false =>
    have hacts : u.isPrintOnly = false := by
      rw [h.acting hprint]
      exact hprint
    constructor <;> rw [hacts, h.acting hprint] <;> rfl

theorem carries_of_captures {ts us : List Task} (h : List.Forall₂ Captures ts us) :
    (∀ t ∈ ts, t.Carries false) ∧ ∀ u ∈ us, u.Carries true := by
  induction h with
  | nil => exact ⟨by simp, by simp⟩
  | cons htask _ ih =>
    exact ⟨List.forall_mem_cons.mpr ⟨htask.carries.1, ih.1⟩,
      List.forall_mem_cons.mpr ⟨htask.carries.2, ih.2⟩⟩

end Task

namespace Play

/-- The play `q` is `p` with debugging on. -/
structure Debugs (p q : Play) : Prop where
  name : q.name = p.name
  hosts : q.hosts = p.hosts
  gatherFacts : q.gatherFacts = p.gatherFacts
  become : q.become = p.become
  vars_absent : p.vars = none
  verbosity : q.vars = some [("ansible_verbosity", .int 2)]
  tasks : List.Forall₂ Task.Captures p.tasks q.tasks

/-- What a play carries of debugging: a verbosity as its one variable, and what its tasks carry. -/
structure Carries (debug : Bool) (p : Play) : Prop where
  vars : p.vars = if debug then some [("ansible_verbosity", .int 2)] else none
  tasks : ∀ t ∈ p.tasks, t.Carries debug

theorem Debugs.carries {p q : Play} (h : Debugs p q) :
    p.Carries false ∧ q.Carries true := by
  obtain ⟨hplain, hcaptured⟩ := Task.carries_of_captures h.tasks
  exact ⟨⟨h.vars_absent, hplain⟩, ⟨h.verbosity, hcaptured⟩⟩

/-- The play without what debugging adds. -/
def withoutDebugging (p : Play) : Play :=
  { p with vars := none, tasks := p.tasks.map Task.withoutCapture }

theorem Debugs.withoutDebugging_eq {p q : Play} (h : Debugs p q) : q.withoutDebugging = p := by
  unfold withoutDebugging
  rw [Task.map_withoutCapture h.tasks, h.name, h.hosts, h.gatherFacts, h.become, ← h.vars_absent]

theorem ofRunbook_effectiveDebug (r : Runbook) (debug : Bool) :
    ofRunbook r debug = ofRunbook (r.withDebugDefault false) (r.effectiveDebug debug) := by
  unfold ofRunbook
  rw [Runbook.effectiveDebug_withDebugDefault_false]
  rfl

theorem ofRunbook_debugs (r : Runbook) :
    Debugs (ofRunbook (r.withDebugDefault false) false)
      (ofRunbook (r.withDebugDefault false) true) := by
  refine ⟨rfl, rfl, rfl, rfl, rfl, rfl, ?_⟩
  have hplain : (ofRunbook (r.withDebugDefault false) false).tasks =
      r.steps.map (Task.ofStep r.environment.become) := rfl
  have hdebug : (ofRunbook (r.withDebugDefault false) true).tasks =
      (r.steps.map (Task.ofStep r.environment.become)).map Task.captureResult := rfl
  rw [hplain, hdebug, List.map_map]
  apply List.forall₂_map_left_iff.mpr
  apply List.forall₂_map_right_iff.mpr
  apply List.forall₂_same.mpr
  intro s _
  exact Task.captures_ofStep _ s

end Play

namespace Artifacts

theorem compile_effectiveDebug (mode : InventoryMode) (r : Runbook) (debug : Bool) :
    compile mode r debug = compile mode (r.withDebugDefault false) (r.effectiveDebug debug) := by
  -- The flag is combined with the default once here and once more for the play.
  unfold compile
  rw [Runbook.effectiveDebug_withDebugDefault_false, Play.ofRunbook_effectiveDebug r,
    Runbook.effectiveDebug_effectiveDebug]
  rfl

theorem compile_carries (mode : InventoryMode) (r : Runbook) (debug : Bool) :
    (compile mode r debug).playbook.Carries (r.effectiveDebug debug) := by
  have hcarries := (Play.ofRunbook_debugs r).carries
  rw [compile_effectiveDebug]
  cases r.effectiveDebug debug with
  | false => exact hcarries.1
  | true => exact hcarries.2

/-- Both artifacts depend on what is asked for only through whether debugging is on, and turning it
on adds to the playbook alone. -/
theorem debugging_only_adds (mode : InventoryMode) (r : Runbook) (debug : Bool) :
    (compile mode r debug).debug = (debug || r.debugDefault) ∧
    compile mode r debug = compile mode (r.withDebugDefault false) (debug || r.debugDefault) ∧
    (compile mode (r.withDebugDefault false) true).inventory =
      (compile mode (r.withDebugDefault false) false).inventory ∧
    Play.Debugs (compile mode (r.withDebugDefault false) false).playbook
      (compile mode (r.withDebugDefault false) true).playbook ∧
    (compile mode (r.withDebugDefault false) true).playbook.withoutDebugging =
      (compile mode (r.withDebugDefault false) false).playbook ∧
    ∀ t : Task, t.captureResult.captureResult = t.captureResult := by
  have hdebugs : Play.Debugs (compile mode (r.withDebugDefault false) false).playbook
      (compile mode (r.withDebugDefault false) true).playbook := Play.ofRunbook_debugs r
  exact ⟨rfl, compile_effectiveDebug mode r debug, rfl, hdebugs, hdebugs.withoutDebugging_eq,
    Task.captureResult_captureResult⟩

end Artifacts

end Runbooks
