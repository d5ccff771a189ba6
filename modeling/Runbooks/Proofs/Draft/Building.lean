import Mathlib.Data.List.Induction
import Runbooks.Playbook.Task
import Runbooks.Proofs.Draft.Acceptance

namespace Runbooks

namespace Step

/-- What a step that has begun can be given. -/
inductive Addition where
  | become (value : Bool)
  | loop (expression : String)
  deriving DecidableEq

namespace Addition

def apply : Addition → Step → Step
  | become value, s => s.withBecome value
  | loop expression, s => s.withLoop expression

def become? : Addition → Option Bool
  | become value => some value
  | loop _ => none

def loop? : Addition → Option String
  | become _ => none
  | loop expression => some expression

end Addition

/-- How a step begins: as a message or a command, with its texts and nothing else. -/
inductive Opening where
  | message (text : String)
  | stdinCommand (command stdin : String)
  | shell (command : String)
  deriving DecidableEq

namespace Opening

def isMessage : Opening → Bool
  | message _ => true
  | _ => false

def step (name : String) : Opening → Step
  | message text => Step.message name text
  | stdinCommand command stdin => Step.stdinCommand name command stdin
  | shell command => Step.shell name command

/-- The draft that gives the same texts. -/
def draft (name : String) (become : Option Bool) (loop : Option String) : Opening → StepDraft
  | message text => { name := some name, become, loop, message := some text }
  | stdinCommand command stdin =>
    { name := some name, become, loop, command := some command, stdin := some stdin }
  | shell command => { name := some name, become, loop, command := some command }

end Opening

/-- How a step is put together: its name, its beginning and what it is given, in order. -/
structure Plan where
  name : String
  opening : Opening
  additions : List Addition := []
  deriving DecidableEq

namespace Plan

def step (p : Plan) : Step :=
  p.additions.foldl (fun s a => a.apply s) (p.opening.step p.name)

def become (p : Plan) : Option Bool :=
  (p.additions.filterMap Addition.become?).getLast?

def loop (p : Plan) : Option String :=
  (p.additions.filterMap Addition.loop?).getLast?

/-- The draft of the step: its texts, and the last that it was given of each sort. -/
def draft (p : Plan) : StepDraft :=
  p.opening.draft p.name p.become p.loop

end Plan

theorem withBecome_withLoop (s : Step) (value : Bool) (expression : String) :
    (s.withBecome value).withLoop expression = (s.withLoop expression).withBecome value := by
  obtain ⟨name, kind, loop⟩ := s
  cases kind <;> rfl

end Step

namespace StepDraft

variable (index : Nat) (d : StepDraft)

theorem step?_become (value : Bool) :
    step? index { d with become := some value } = (d.step? index).map (Step.withBecome value) := by
  obtain ⟨name, command, become, stdin, message, loop⟩ := d
  cases name with
  | none => rfl
  | some name => cases message <;> cases command <;> cases stdin <;> rfl

theorem step?_loop (expression : String) :
    step? index { d with loop := some expression } =
      (d.step? index).map (Step.withLoop expression) := by
  obtain ⟨name, command, become, stdin, message, loop⟩ := d
  cases name with
  | none => rfl
  | some name => cases message <;> cases command <;> cases stdin <;> rfl

theorem Becomes.step?_eq {d : StepDraft} {s : Step} (h : d.Becomes s) : d.step? index = .ok s := by
  obtain ⟨name, kind, loop⟩ := s
  obtain ⟨hname, hkind, rfl⟩ := h
  have hread : d.kind? = some kind := by
    cases hkind with
    | message hmessage => simp only [kind?, hmessage]
    | stdinCommand hmessage hcommand hstdin => simp only [kind?, hmessage, hcommand, hstdin]
    | shell hmessage hcommand hstdin => simp only [kind?, hmessage, hcommand, hstdin]
  simp only [step?, hname, hread]

end StepDraft

namespace Step

section Openings

variable (o : Opening) (name : String) (become : Option Bool) (loop : Option String)

theorem Opening.step?_draft (index : Nat) :
    (o.draft name none none).step? index = .ok (o.step name) := by
  cases o <;> rfl

theorem Opening.step?_draft_of_isMessage (h : o.isMessage = true) (become' : Option Bool)
    (index : Nat) :
    (o.draft name become loop).step? index = (o.draft name become' loop).step? index := by
  cases o with
  | message text => rfl
  | stdinCommand command stdin => cases h
  | shell command => cases h

theorem Opening.draft_become (value : Bool) :
    o.draft name (some value) loop = { o.draft name become loop with become := some value } := by
  cases o <;> rfl

theorem Opening.draft_loop (expression : String) :
    o.draft name become (some expression) =
      { o.draft name become loop with loop := some expression } := by
  cases o <;> rfl

end Openings

namespace Plan

variable (name : String) (o : Opening) (additions : List Addition)

theorem step_append_singleton (a : Addition) :
    step ⟨name, o, additions ++ [a]⟩ = a.apply (step ⟨name, o, additions⟩) := by
  simp only [step, List.foldl_append, List.foldl_cons, List.foldl_nil]

theorem become_append_singleton (a : Addition) :
    become ⟨name, o, additions ++ [a]⟩ = a.become?.or (become ⟨name, o, additions⟩) := by
  simp only [become, List.filterMap_append, List.getLast?_append]
  cases a <;> rfl

theorem loop_append_singleton (a : Addition) :
    loop ⟨name, o, additions ++ [a]⟩ = a.loop?.or (loop ⟨name, o, additions⟩) := by
  simp only [loop, List.filterMap_append, List.getLast?_append]
  cases a <;> rfl

theorem step?_draft (p : Plan) (index : Nat) : p.draft.step? index = .ok p.step := by
  obtain ⟨name, o, additions⟩ := p
  induction additions using List.reverseRecOn with
  | nil => exact o.step?_draft name index
  | append_singleton additions a ih =>
    rw [draft, step_append_singleton, become_append_singleton, loop_append_singleton]
    rw [draft] at ih
    cases a with
    | become value =>
      calc (o.draft name (some value) (loop ⟨name, o, additions⟩)).step? index
          = ((o.draft name (become ⟨name, o, additions⟩) (loop ⟨name, o, additions⟩)).step?
              index).map (Step.withBecome value) := by
            rw [o.draft_become name (become ⟨name, o, additions⟩), StepDraft.step?_become]
        _ = .ok ((step ⟨name, o, additions⟩).withBecome value) := by
            rw [ih]
            rfl
    | loop expression =>
      calc (o.draft name (become ⟨name, o, additions⟩) (some expression)).step? index
          = ((o.draft name (become ⟨name, o, additions⟩) (loop ⟨name, o, additions⟩)).step?
              index).map (Step.withLoop expression) := by
            rw [o.draft_loop name _ (loop ⟨name, o, additions⟩), StepDraft.step?_loop]
        _ = .ok ((step ⟨name, o, additions⟩).withLoop expression) := by
            rw [ih]
            rfl

/-- Plans with the same beginning whose last additions are the same make the same step; the rights
that are given to a message do not count. -/
theorem step_eq_of_last {p q : Plan} (hname : q.name = p.name) (hopening : q.opening = p.opening)
    (hbecome : p.opening.isMessage = true ∨ q.become = p.become) (hloop : q.loop = p.loop) :
    q.step = p.step := by
  have hdraft : q.draft.step? 1 = p.draft.step? 1 := by
    rw [draft, draft, hname, hopening, hloop]
    rcases hbecome with hmessage | hbecome
    · exact p.opening.step?_draft_of_isMessage _ _ _ hmessage _ 1
    · rw [hbecome]
  rw [step?_draft, step?_draft] at hdraft
  exact Except.ok.inj hdraft

end Plan

end Step

def Host.draft (h : Host) : HostDraft :=
  { address := some h.address, environment := h.override }

theorem numbered_map {α β γ : Type} {f : Nat → β → Except Failure γ} {g : α → β} {k : α → γ}
    (h : ∀ i a, f i (g a) = .ok (k a)) (start : Nat) (items : List α) :
    numbered f start (items.map g) = .ok (items.map k) := by
  induction items generalizing start with
  | nil => rfl
  | cons a items ih =>
    rw [List.map_cons, numbered, h, ih]
    rfl

namespace Draft

theorem getElem?_steps {d : Draft} {r : Runbook} (h : d.runbook? = .ok r) {i : Nat}
    {s : StepDraft} (hs : d.steps[i]? = some s) :
    ∃ s' : Step, r.steps[i]? = some s' ∧ s.Becomes s' := by
  have hends := d.ends_objection?
  cases hobjection : d.objection? with
  | some f =>
    rw [hobjection] at hends
    cases h.symm.trans hends
  | none =>
    rw [hobjection] at hends
    obtain ⟨r', hr', hbecomes⟩ := hends
    obtain rfl := Except.ok.inj (h.symm.trans hr')
    obtain ⟨hlength, hall⟩ := List.forall₂_iff_get.mp hbecomes.steps
    obtain ⟨hi, rfl⟩ := List.getElem?_eq_some_iff.mp hs
    exact ⟨r.steps[i], List.getElem?_eq_getElem _, hall i hi (hlength ▸ hi)⟩

theorem runbook?_of_plans (name : String) (description : Option String) (debug : Option Bool)
    (environment : Environment) (hosts : List Host) (plans : List Step.Plan) :
    runbook? { name := some name, description, debug, environment, hosts := hosts.map Host.draft,
               steps := plans.map Step.Plan.draft } =
      (Runbook.create? name environment hosts (plans.map Step.Plan.step)).map fun r =>
        (r.withDescription description).withDebugDefault (debug.getD false) := by
  apply runbook?_of_parts
  · rfl
  · have hhost : ∀ i (h : Host), h.draft.host? i = .ok h := fun _ _ => rfl
    exact (numbered_map hhost 1 hosts).trans (by rw [List.map_id'])
  · have hstep : ∀ i (p : Step.Plan), p.draft.step? i = .ok p.step := fun i p => p.step?_draft i
    exact numbered_map hstep 1 plans

end Draft

namespace Step.Plan

/-- What a plan makes, whatever way its step comes into a runbook. -/
structure Makes (p : Plan) (s : Step) : Prop where
  reads : ∀ index, p.draft.step? index = .ok s
  last : ∀ q : Plan, q.name = p.name → q.opening = p.opening →
    p.opening.isMessage = true ∨ q.become = p.become → q.loop = p.loop → q.step = s
  swaps : ∀ before value expression after,
    p.additions = before ++ Addition.become value :: Addition.loop expression :: after →
      step ⟨p.name, p.opening,
        before ++ Addition.loop expression :: Addition.become value :: after⟩ = s
  compiles : ∀ (d : Draft) (r : Runbook) (i : Nat), d.runbook? = .ok r →
    d.steps[i]? = some p.draft → r.steps[i]? = some s ∧
      ∀ default, (r.steps.map (Task.ofStep default))[i]? = some (Task.ofStep default s)

/-- Steps made in code are the steps that are read from the same texts and the last additions of
each sort. So a runbook of such steps is the one that is read from their drafts, or fails as that
one does. -/
theorem step_makes_and_reads :
    (∀ p : Plan, p.Makes p.step) ∧
    (∀ (s : Step) (value : Bool) (expression : String),
      (s.withBecome value).withLoop expression = (s.withLoop expression).withBecome value) ∧
    ∀ (name : String) (description : Option String) (debug : Option Bool)
      (environment : Environment) (hosts : List Host) (plans : List Plan),
      Draft.runbook? { name := some name, description, debug, environment,
                       hosts := hosts.map Host.draft, steps := plans.map Plan.draft } =
        (Runbook.create? name environment hosts (plans.map Plan.step)).map fun r =>
          (r.withDescription description).withDebugDefault (debug.getD false) := by
  refine ⟨fun p => ⟨p.step?_draft, ?_, ?_, ?_⟩, withBecome_withLoop, Draft.runbook?_of_plans⟩
  · intro q hname hopening hbecome hloop
    exact step_eq_of_last hname hopening hbecome hloop
  · intro before value expression after hadditions
    have hbecome : become ⟨p.name, p.opening,
        before ++ Addition.loop expression :: Addition.become value :: after⟩ = p.become := by
      simp only [become, hadditions, List.filterMap_append, List.filterMap_cons, Addition.become?]
    have hloop : loop ⟨p.name, p.opening,
        before ++ Addition.loop expression :: Addition.become value :: after⟩ = p.loop := by
      simp only [loop, hadditions, List.filterMap_append, List.filterMap_cons, Addition.loop?]
    exact step_eq_of_last rfl rfl (.inr hbecome) hloop
  · intro d r i hr hdraft
    obtain ⟨s, hs, hbecomes⟩ := Draft.getElem?_steps hr hdraft
    obtain rfl : p.step = s :=
      Except.ok.inj ((p.step?_draft 1).symm.trans (hbecomes.step?_eq 1))
    refine ⟨hs, fun default => ?_⟩
    rw [List.getElem?_map, hs, Option.map_some]

/-- The rights given last count, `false` among them, and the loop stays. -/
example : step ⟨"ping", .shell "true", [.become true, .loop "a", .become false]⟩ =
    { name := "ping", kind := .shell "true" (some false), loop := some "a" } := by
  decide

end Step.Plan

end Runbooks
