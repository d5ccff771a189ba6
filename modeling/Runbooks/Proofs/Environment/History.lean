import Mathlib.Data.List.DropRight
import Runbooks.Proofs.Environment.Precedence

namespace Runbooks.Environment

/-- One step in the life of an environment. -/
inductive Change where
  | user (name : String)
  | sshKey (path : String)
  | python (path : String)
  | become (value : Bool)
  /-- Lays an environment on top. -/
  | overlay (above : Environment)
  /-- Lays an environment beneath. -/
  | underlay (below : Environment)
  | resolve (override : Option Environment)
  | reset
  deriving DecidableEq

namespace Change

def apply : Change → Environment → Environment
  | user name, e => e.withUser name
  | sshKey path, e => e.withSshKey path
  | python path, e => e.withPython path
  | become value, e => e.withBecome value
  | overlay above, e => e.overlay above
  | underlay below, e => below.overlay e
  | resolve override, e => e.resolve override
  | reset, _ => empty

def top : Change → Environment
  | user name => { user := name }
  | sshKey path => { sshKey := path }
  | python path => { python := path }
  | become value => { become := value }
  | overlay above => above
  | underlay _ => empty
  | resolve override => override.getD empty
  | reset => empty

def bottom : Change → Environment
  | underlay below => below
  | _ => empty

/-- A change clears the environment or has something to say about the setting. -/
def concerns (s : Setting) (c : Change) : Bool :=
  c = reset || (s.of? c.top).isSome || (s.of? c.bottom).isSome

end Change

open Change (top bottom)

def run (cs : List Change) : Environment :=
  cs.foldl (fun e c => c.apply e) empty

/-- The changes behind the last one that clears. -/
def sinceReset (cs : List Change) : List Change :=
  cs.rtakeWhile (· ≠ .reset)

variable (s : Setting) (cs : List Change) (c : Change) (e : Environment)

/-- A change that does not clear lays one environment on top and one beneath. -/
theorem Change.apply_eq_overlay {c : Change} (h : c ≠ .reset) :
    c.apply e = c.bottom.overlay (e.overlay c.top) := by
  cases c with
  | user | sshKey | python | become | overlay => exact (empty_overlay _).symm
  | underlay below =>
    change below.overlay e = below.overlay (e.overlay empty)
    rw [overlay_empty]
  | resolve override =>
    change e.resolve override = empty.overlay _
    rw [empty_overlay, resolve_eq_overlay]
    rfl
  | reset => exact absurd rfl h

theorem of?_apply : s.of? (c.apply e) =
    if c = .reset then none else (s.of? c.top).or ((s.of? e).or (s.of? c.bottom)) := by
  by_cases h : c = .reset
  · rw [if_pos h, h]
    exact Setting.of?_empty s
  · rw [if_neg h, Change.apply_eq_overlay e h, Setting.of?_overlay, Setting.of?_overlay,
      Option.or_assoc]

theorem run_append_singleton : run (cs ++ [c]) = c.apply (run cs) := by
  rw [run, List.foldl_append]
  rfl

theorem sinceReset_append_singleton :
    sinceReset (cs ++ [c]) = if c = .reset then [] else sinceReset cs ++ [c] := by
  rw [sinceReset, List.rtakeWhile_concat]
  by_cases h : c = .reset
  · rw [if_pos h, if_neg (by simp [h])]
  · rw [if_neg h, if_pos (by simp [h])]
    rfl

/-- The last value laid on top counts, and only without one the first value laid beneath. -/
theorem of?_run : s.of? (run cs) =
    ((sinceReset cs).filterMap fun c => s.of? c.top).getLast?.or
      ((sinceReset cs).filterMap fun c => s.of? c.bottom).head? := by
  -- The last change comes first: it either clears all, or adds one value at each end.
  induction cs using List.reverseRecOn with
  | nil => exact Setting.of?_empty s
  | append_singleton cs c ih =>
    rw [run_append_singleton, of?_apply, sinceReset_append_singleton]
    by_cases h : c = .reset
    · rw [if_pos h, if_pos h]
      rfl
    · have htop : ([c].filterMap fun c => s.of? c.top).getLast? = s.of? c.top := by
        cases htop : s.of? c.top <;> simp [htop]
      have hbottom : ([c].filterMap fun c => s.of? c.bottom).head? = s.of? c.bottom := by
        cases hbottom : s.of? c.bottom <;> simp [hbottom]
      rw [if_neg h, if_neg h, ih, List.filterMap_append, List.filterMap_append,
        List.getLast?_append, List.head?_append, htop, hbottom]
      simp only [Option.or_assoc]

/-- A setting ends as if only the changes that concern it had been made. -/
theorem of?_run_filter : s.of? (run (cs.filter (Change.concerns s))) = s.of? (run cs) := by
  induction cs using List.reverseRecOn with
  | nil => rfl
  | append_singleton cs c ih =>
    rw [List.filter_append, run_append_singleton, of?_apply]
    cases hconcerns : c.concerns s with
    | true =>
      rw [List.filter_cons_of_pos hconcerns, List.filter_nil, run_append_singleton, of?_apply, ih]
    | false =>
      simp only [Change.concerns, Bool.or_eq_false_iff, decide_eq_false_iff_not,
        Option.isSome_eq_false_iff, Option.isNone_iff_eq_none] at hconcerns
      obtain ⟨⟨hreset, htop⟩, hbottom⟩ := hconcerns
      rw [List.filter_cons_of_neg (by simp [Change.concerns, hreset, htop, hbottom]),
        List.filter_nil, List.append_nil, ih, if_neg hreset, htop, hbottom, Option.none_or,
        Option.or_none]

theorem isEmpty_iff : e.isEmpty = true ↔ ∀ s : Setting, s.of? e = none := by
  simp only [isEmpty, Bool.and_eq_true, Option.isNone_iff_eq_none]
  constructor
  · rintro ⟨⟨⟨huser, hsshKey⟩, hpython⟩, hbecome⟩ s
    cases s with
    | user => exact huser
    | sshKey => exact hsshKey
    | python => exact hpython
    | become => exact hbecome
  · intro h
    exact ⟨⟨⟨h .user, h .sshKey⟩, h .python⟩, h .become⟩

theorem isEmpty_run_iff : (run cs).isEmpty = true ↔
    ∀ c ∈ sinceReset cs, ∀ s : Setting, s.of? c.top = none ∧ s.of? c.bottom = none := by
  rw [isEmpty_iff]
  simp only [of?_run, Option.or_eq_none_iff, List.getLast?_eq_none_iff, List.head?_eq_none_iff,
    List.filterMap_eq_nil_iff]
  constructor
  · intro h c hc s
    exact ⟨(h s).1 c hc, (h s).2 c hc⟩
  · intro h s
    exact ⟨fun c hc => (h c hc s).1, fun c hc => (h c hc s).2⟩

/-- What any sequence of changes leaves: each setting by itself has the last value that was laid on
top of it since the environment was cleared, else the first that was laid beneath it, else none. -/
theorem run_settles (cs : List Change) :
    (∀ s : Setting, s.of? (run cs) =
      ((sinceReset cs).filterMap fun c => s.of? c.top).getLast?.or
        ((sinceReset cs).filterMap fun c => s.of? c.bottom).head?) ∧
    (∀ s : Setting, s.of? (run (cs.filter (Change.concerns s))) = s.of? (run cs)) ∧
    ((run cs).isEmpty = true ↔
      ∀ c ∈ sinceReset cs, ∀ s : Setting, s.of? c.top = none ∧ s.of? c.bottom = none) ∧
    (∀ a b c : Environment, (a.overlay b).overlay c = a.overlay (b.overlay c)) ∧
    ∀ e : Environment, empty.overlay e = e ∧ e.overlay empty = e := by
  refine ⟨fun s => of?_run s cs, fun s => of?_run_filter s cs, isEmpty_run_iff cs, overlay_assoc, ?_⟩
  intro e
  exact ⟨empty_overlay e, overlay_empty e⟩

/-- The empty text and `false` are values: neither is filled from beneath. -/
example : run [.underlay { user := "root", become := true }, .become false, .user "",
      .underlay { user := "web", python := "/usr/bin/python3" }] =
    { user := "", python := "/usr/bin/python3", become := false } := by
  decide

end Runbooks.Environment
