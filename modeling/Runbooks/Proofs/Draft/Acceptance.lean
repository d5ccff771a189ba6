import Mathlib.Data.List.Forall2
import Mathlib.Data.List.TakeWhile
import Runbooks.Draft

namespace Runbooks

theorem trimBlanks_eq_nil_iff (s : List Char) : trimBlanks s = [] ↔ ∀ c ∈ s, isBlank c := by
  rw [trimBlanks, List.reverse_eq_nil_iff, List.dropWhile_eq_nil_iff]
  simp only [List.mem_reverse]
  constructor
  · intro h c hc
    rw [← List.takeWhile_append_dropWhile (p := isBlank) (l := s), List.mem_append] at hc
    rcases hc with hc | hc
    · exact List.mem_takeWhile_imp hc
    · exact h c hc
  · intro h c hc
    exact h c (List.dropWhile_subset isBlank hc)

theorem trimmed_eq_empty_iff (s : String) : trimmed s = "" ↔ isBlankText s = true := by
  rw [trimmed, isBlankText, List.all_eq_true, String.ofList_eq_empty_iff, trimBlanks_eq_nil_iff]

section Numbered

variable {α β : Type}

/-- The first item with a property and its number, where the first of all items has the number
`start`. -/
def firstFrom? (p : α → Bool) (start : Nat) (items : List α) : Option (α × Nat) :=
  (items.zipIdx start).find? (p ·.1)

theorem firstFrom?_cons (p : α → Bool) (start : Nat) (a : α) (items : List α) :
    firstFrom? p start (a :: items) =
      if p a then some (a, start) else firstFrom? p (start + 1) items := by
  rw [firstFrom?, List.zipIdx_cons, List.find?_cons]
  cases h : p a <;> simp [firstFrom?]

/-- A check of numbered items refuses those that are `bad`, each with its complaint, and turns each
of the others into something that is related to it. -/
structure Checks (f : Nat → α → Except Failure β) (bad : α → Bool) (complaint : Nat → α → Failure)
    (related : α → β → Prop) : Prop where
  refuses : ∀ i a, bad a = true → f i a = .error (complaint i a)
  accepts : ∀ i a, bad a = false → ∃ b, f i a = .ok b ∧ related a b

variable {f : Nat → α → Except Failure β} {bad : α → Bool} {complaint : Nat → α → Failure}
  {related : α → β → Prop}

theorem Checks.numbered_of_some (h : Checks f bad complaint related) {start i : Nat}
    {items : List α} {a : α}
    (hfirst : firstFrom? bad start items = some (a, i)) :
    numbered f start items = .error (complaint i a) := by
  induction items generalizing start with
  | nil => cases hfirst
  | cons b items ih =>
    rw [firstFrom?_cons] at hfirst
    rw [numbered]
    cases hb : bad b with
    | true =>
      rw [hb, if_pos rfl] at hfirst
      cases hfirst
      rw [h.refuses i a hb]
      rfl
    | false =>
      rw [hb, if_neg (by decide)] at hfirst
      obtain ⟨c, hc, -⟩ := h.accepts start b hb
      rw [hc, ih hfirst]
      rfl

theorem Checks.numbered_of_none (h : Checks f bad complaint related) {start : Nat}
    {items : List α} (hfirst : firstFrom? bad start items = none) :
    ∃ bs, numbered f start items = .ok bs ∧ List.Forall₂ related items bs := by
  induction items generalizing start with
  | nil => exact ⟨[], rfl, .nil⟩
  | cons b items ih =>
    rw [firstFrom?_cons] at hfirst
    cases hb : bad b with
    | true =>
      rw [hb, if_pos rfl] at hfirst
      cases hfirst
    | false =>
      rw [hb, if_neg (by decide)] at hfirst
      obtain ⟨c, hc, hrelated⟩ := h.accepts start b hb
      obtain ⟨bs, hbs, hall⟩ := ih hfirst
      refine ⟨c :: bs, ?_, .cons hrelated hall⟩
      rw [numbered, hc, hbs]
      rfl

end Numbered

namespace HostDraft

def lacksAddress (d : HostDraft) : Bool :=
  d.address.isNone

def isBlank (d : HostDraft) : Bool :=
  d.address.any (trimmed · = "")

/-- The host keeps what its draft says. -/
structure Becomes (d : HostDraft) (h : Host) : Prop where
  address : d.address = some h.address
  override : h.override = d.environment

theorem checks_host? :
    Checks host? lacksAddress (fun i _ => .invalid (.missingAddress i)) Becomes where
  refuses i d h := by
    rw [host?, Option.isNone_iff_eq_none.mp h]
  accepts i d h := by
    obtain ⟨address, haddress⟩ : ∃ address, d.address = some address :=
      Option.isSome_iff_exists.mp (Option.isNone_eq_false_iff.mp h)
    refine ⟨{ address, override := d.environment }, ?_, haddress, rfl⟩
    rw [host?, haddress]

theorem firstBlank?_of_becomes {drafts : List HostDraft} {hosts : List Host}
    (h : List.Forall₂ Becomes drafts hosts) (start : Nat) :
    Runbook.firstBlank? start hosts = (firstFrom? isBlank start drafts).map Prod.snd := by
  induction h generalizing start with
  | nil => rfl
  | @cons d h drafts hosts hd _ ih =>
    have hblank : d.isBlank = isBlankText h.address := by
      rw [isBlank, hd.address]
      exact Bool.eq_iff_iff.mpr (by simp [trimmed_eq_empty_iff])
    rw [Runbook.firstBlank?, firstFrom?_cons, hblank, ih]
    split <;> rfl

end HostDraft

namespace StepDraft

/-- Whether a step has no name or nothing to do. -/
def isUnusable (d : StepDraft) : Bool :=
  d.name.isNone || (d.message.isNone && d.command.isNone)

/-- What is said of an unusable step: that it has no name or, where it has one, nothing to do. -/
def complaint (i : Nat) (d : StepDraft) : Failure :=
  match d.name with
  | none => .invalid (.missingStepName i)
  | some name => .idleStep i name

/-- The kind of a step whose draft has this message, command and input. -/
inductive Classified (d : StepDraft) : StepKind → Prop where
  | message {text : String} : d.message = some text → Classified d (.message text)
  | stdinCommand {command stdin : String} : d.message = none → d.command = some command →
      d.stdin = some stdin → Classified d (.stdinCommand command stdin d.become)
  | shell {command : String} : d.message = none → d.command = some command → d.stdin = none →
      Classified d (.shell command d.become)

/-- The step keeps what its draft says, as far as its kind has a use for it. -/
structure Becomes (d : StepDraft) (s : Step) : Prop where
  name : d.name = some s.name
  kind : d.Classified s.kind
  loop : s.loop = d.loop

theorem exists_kind? {d : StepDraft} (h : ¬ (d.message = none ∧ d.command = none)) :
    ∃ kind, d.kind? = some kind ∧ d.Classified kind := by
  unfold kind?
  split
  · rename_i text _ hmessage
    exact ⟨_, rfl, .message hmessage⟩
  · rename_i command stdin hmessage hcommand hstdin
    exact ⟨_, rfl, .stdinCommand hmessage hcommand hstdin⟩
  · rename_i command hmessage hcommand hstdin
    exact ⟨_, rfl, .shell hmessage hcommand hstdin⟩
  · rename_i hmessage hcommand
    exact absurd ⟨hmessage, hcommand⟩ h

theorem checks_step? : Checks step? isUnusable complaint Becomes where
  refuses i d h := by
    rw [step?, complaint]
    cases hname : d.name with
    | none => rfl
    | some name =>
      have hidle : d.message = none ∧ d.command = none := by simpa [isUnusable, hname] using h
      have hkind : d.kind? = none := by rw [kind?, hidle.1, hidle.2]
      rw [hkind]
  accepts i d h := by
    simp only [isUnusable, Bool.or_eq_false_iff, Option.isNone_eq_false_iff] at h
    obtain ⟨name, hname⟩ := Option.isSome_iff_exists.mp h.1
    obtain ⟨kind, hkind, hclassified⟩ := exists_kind? (d := d) fun hidle => by
      simp [hidle] at h
    refine ⟨{ name, kind, loop := d.loop }, ?_, hname, hclassified, rfl⟩
    rw [step?, hname, hkind]

end StepDraft

namespace Runbook

/-- What no runbook goes without. -/
structure Complete (r : Runbook) : Prop where
  name : trimmed r.name ≠ ""
  hosts : r.hosts ≠ []
  addresses : ∀ h ∈ r.hosts, trimmed h.address ≠ ""
  steps : r.steps ≠ []

theorem trimmed_ne_empty {s : String} (h : isBlankText s = false) : trimmed s ≠ "" := by
  rw [Ne, trimmed_eq_empty_iff, h]
  decide

theorem complete (r : Runbook) : r.Complete where
  name := trimmed_ne_empty r.name_not_blank
  hosts := r.hosts_ne_nil
  addresses h hh := trimmed_ne_empty (r.addresses_not_blank h hh)
  steps := r.steps_ne_nil

section Create

variable {name : String} {hosts : List Host} {steps : List Step} (environment : Environment)

theorem create?_of_blank_name (h : isBlankText name = true) :
    create? name environment hosts steps = .error (.invalid .missingName) :=
  dif_pos h

theorem create?_of_no_hosts (hname : isBlankText name = false) :
    create? name environment [] steps = .error (.invalid .noHosts) := by
  rw [create?, dif_neg (Bool.eq_false_iff.mp hname), dif_pos rfl]

theorem create?_of_blank_address {i : Nat} (hname : isBlankText name = false) (hhosts : hosts ≠ [])
    (hblank : firstBlank? 1 hosts = some i) :
    create? name environment hosts steps = .error (.invalid (.missingAddress i)) := by
  rw [create?, dif_neg (Bool.eq_false_iff.mp hname), dif_neg hhosts]
  split <;> simp_all

theorem create?_of_no_steps (hname : isBlankText name = false) (hhosts : hosts ≠ [])
    (hblank : firstBlank? 1 hosts = none) :
    create? name environment hosts [] = .error (.invalid .noSteps) := by
  rw [create?, dif_neg (Bool.eq_false_iff.mp hname), dif_neg hhosts]
  split <;> simp_all

theorem exists_create? (hname : isBlankText name = false) (hhosts : hosts ≠ [])
    (hblank : firstBlank? 1 hosts = none) (hsteps : steps ≠ []) :
    ∃ r, create? name environment hosts steps = .ok r ∧ r.name = name ∧
      r.environment = environment ∧ r.hosts = hosts ∧ r.steps = steps := by
  rw [create?, dif_neg (Bool.eq_false_iff.mp hname), dif_neg hhosts]
  split
  · simp_all
  · rw [dif_neg hsteps]
    exact ⟨_, rfl, rfl, rfl, rfl, rfl⟩

end Create

end Runbook

namespace Draft

/-- The runbook keeps what its draft says. -/
structure Becomes (d : Draft) (r : Runbook) : Prop where
  name : d.name = some r.name
  description : r.description = d.description
  debugDefault : r.debugDefault = d.debug.getD false
  environment : r.environment = d.environment
  hosts : List.Forall₂ HostDraft.Becomes d.hosts r.hosts
  steps : List.Forall₂ StepDraft.Becomes d.steps r.steps

/-- What there is to object to absent fields. Hosts and steps are numbered from one. -/
def absences (d : Draft) : List (Option Failure) :=
  [if d.name = none then some (.invalid .missingName) else none,
    (firstFrom? HostDraft.lacksAddress 1 d.hosts).map fun (_, i) => .invalid (.missingAddress i),
    (firstFrom? StepDraft.isUnusable 1 d.steps).map fun (s, i) => s.complaint i]

/-- What there is to object to fields that are there and say nothing. -/
def blanks (d : Draft) : List (Option Failure) :=
  [if d.name.any (trimmed · = "") then some (.invalid .missingName) else none,
    if d.hosts = [] then some (.invalid .noHosts) else none,
    (firstFrom? HostDraft.isBlank 1 d.hosts).map fun (_, i) => .invalid (.missingAddress i),
    if d.steps = [] then some (.invalid .noSteps) else none]

/-- The first objection to a draft, if there is any. -/
def objection? (d : Draft) : Option Failure :=
  (d.absences ++ d.blanks).findSome? id

theorem runbook?_of_parts {d : Draft} {name : String} {hosts : List Host} {steps : List Step}
    (hname : d.name = some name) (hhosts : numbered HostDraft.host? 1 d.hosts = .ok hosts)
    (hsteps : numbered StepDraft.step? 1 d.steps = .ok steps) :
    d.runbook? = (Runbook.create? name d.environment hosts steps).map fun r =>
      (r.withDescription d.description).withDebugDefault (d.debug.getD false) := by
  rw [runbook?, hname, hhosts, hsteps]
  change (Runbook.create? name d.environment hosts steps).bind _ = _
  cases Runbook.create? name d.environment hosts steps <;> rfl

/-- The draft fails with an objection or, for want of one, becomes a runbook. -/
def Ends (d : Draft) : Option Failure → Prop
  | some f => d.runbook? = .error f
  | none => ∃ r, d.runbook? = .ok r ∧ d.Becomes r

theorem ends_cons {d : Draft} {objection : Option Failure} {others : List (Option Failure)}
    (hsome : ∀ f, objection = some f → d.runbook? = .error f)
    (hnone : objection = none → d.Ends (others.findSome? id)) :
    d.Ends ((objection :: others).findSome? id) := by
  cases objection with
  | none => exact hnone rfl
  | some f => exact hsome f rfl

/-- Of a draft with all that it needs, the parts of the runbook are looked at. -/
theorem ends_blanks {d : Draft} {name : String} {hosts : List Host} {steps : List Step}
    (hname : d.name = some name) (hhosts : numbered HostDraft.host? 1 d.hosts = .ok hosts)
    (hsteps : numbered StepDraft.step? 1 d.steps = .ok steps)
    (hostsBecome : List.Forall₂ HostDraft.Becomes d.hosts hosts)
    (stepsBecome : List.Forall₂ StepDraft.Becomes d.steps steps) :
    d.Ends (d.blanks.findSome? id) := by
  have hrunbook := runbook?_of_parts hname hhosts hsteps
  rw [blanks, hname]
  refine ends_cons ?blank fun hnotBlank => ?_
  case blank =>
    intro f hf
    obtain ⟨hblank, rfl⟩ : trimmed name = "" ∧ .invalid .missingName = f := by simpa using hf
    rw [hrunbook, Runbook.create?_of_blank_name _ ((trimmed_eq_empty_iff name).mp hblank)]
    rfl
  have hnotBlank : isBlankText name = false := by simpa [trimmed_eq_empty_iff] using hnotBlank
  refine ends_cons ?hostless fun hhosted => ?_
  case hostless =>
    intro f hf
    obtain ⟨hnone, rfl⟩ : d.hosts = [] ∧ .invalid .noHosts = f := by simpa using hf
    rw [hnone, List.forall₂_nil_left_iff] at hostsBecome
    rw [hrunbook, hostsBecome, Runbook.create?_of_no_hosts _ hnotBlank]
    rfl
  have hhosted : hosts ≠ [] := by
    rintro rfl
    simp [List.forall₂_nil_right_iff.mp hostsBecome] at hhosted
  have hfirst := HostDraft.firstBlank?_of_becomes hostsBecome 1
  refine ends_cons ?blankAddress fun haddresses => ?_
  case blankAddress =>
    intro f hf
    obtain ⟨p, hp, rfl⟩ := Option.map_eq_some_iff.mp hf
    rw [hp] at hfirst
    rw [hrunbook, Runbook.create?_of_blank_address _ hnotBlank hhosted hfirst]
    rfl
  rw [Option.map_eq_none_iff.mp haddresses] at hfirst
  refine ends_cons ?stepless fun hstepped => ?_
  case stepless =>
    intro f hf
    obtain ⟨hnone, rfl⟩ : d.steps = [] ∧ .invalid .noSteps = f := by simpa using hf
    rw [hnone, List.forall₂_nil_left_iff] at stepsBecome
    rw [hrunbook, stepsBecome, Runbook.create?_of_no_steps _ hnotBlank hhosted hfirst]
    rfl
  have hstepped : steps ≠ [] := by
    rintro rfl
    simp [List.forall₂_nil_right_iff.mp stepsBecome] at hstepped
  obtain ⟨r, hr, rname, renvironment, rhosts, rsteps⟩ :=
    Runbook.exists_create? d.environment hnotBlank hhosted hfirst hstepped
  refine ⟨_, by rw [hrunbook, hr]; rfl, ?_⟩
  exact ⟨by rw [hname, ← rname]; rfl, rfl, rfl, renvironment, rhosts ▸ hostsBecome,
    rsteps ▸ stepsBecome⟩

theorem ends_objection? (d : Draft) : d.Ends d.objection? := by
  refine ends_cons ?unnamed fun hnamed => ?_
  case unnamed =>
    intro f hf
    obtain ⟨hname, rfl⟩ : d.name = none ∧ .invalid .missingName = f := by simpa using hf
    rw [runbook?, hname]
    rfl
  obtain ⟨name, hname⟩ : ∃ name, d.name = some name :=
    Option.ne_none_iff_exists'.mp (by simpa using hnamed)
  refine ends_cons ?unaddressed fun haddressed => ?_
  case unaddressed =>
    intro f hf
    obtain ⟨p, hp, rfl⟩ := Option.map_eq_some_iff.mp hf
    rw [runbook?, hname, HostDraft.checks_host?.numbered_of_some hp]
    rfl
  obtain ⟨hosts, hhosts, hostsBecome⟩ :=
    HostDraft.checks_host?.numbered_of_none (Option.map_eq_none_iff.mp haddressed)
  refine ends_cons ?unusable fun husable => ?_
  case unusable =>
    intro f hf
    obtain ⟨p, hp, rfl⟩ := Option.map_eq_some_iff.mp hf
    rw [runbook?, hname, hhosts, StepDraft.checks_step?.numbered_of_some hp]
    rfl
  obtain ⟨steps, hsteps, stepsBecome⟩ :=
    StepDraft.checks_step?.numbered_of_none (Option.map_eq_none_iff.mp husable)
  exact ends_blanks hname hhosts hsteps hostsBecome stepsBecome

theorem isStructural_of_objection? {d : Draft} {f : Failure} (h : d.objection? = some f) :
    f.isStructural = true := by
  obtain ⟨objection, hmem, rfl⟩ := List.exists_of_findSome?_eq_some h
  have hcomplaint (s : StepDraft) (i : Nat) : (s.complaint i).isStructural = true := by
    rw [StepDraft.complaint]
    split <;> rfl
  simp only [absences, blanks, List.cons_append, List.nil_append, List.mem_cons, List.not_mem_nil,
    or_false, eq_comm (a := some f), Option.map_eq_some_iff, Option.ite_none_right_eq_some,
    Option.some.injEq] at hmem
  rcases hmem with ⟨-, rfl⟩ | ⟨p, -, rfl⟩ | ⟨p, -, rfl⟩ | ⟨-, rfl⟩ | ⟨-, rfl⟩ | ⟨p, -, rfl⟩ | ⟨-, rfl⟩
  · rfl
  · rfl
  · exact hcomplaint p.1 p.2
  · rfl
  · rfl
  · rfl
  · rfl

end Draft

theorem Failure.exitStatus_of_isStructural {f : Failure} (h : f.isStructural = true) :
    f.exitStatus = 4 := by
  cases f with
  | invalid _ => rfl
  | idleStep _ _ => rfl
  | _ => cases h

namespace Draft

/-- A draft fails with the first objection to it, and then the draft is at fault. Without any it
becomes a runbook that keeps what the draft says and lacks nothing. -/
theorem runbook?_first_objection (d : Draft) :
    (∀ f, d.objection? = some f →
      d.runbook? = .error f ∧ f.isStructural = true ∧ f.exitStatus = 4) ∧
    (d.objection? = none → ∃ r, d.runbook? = .ok r ∧ d.Becomes r ∧ r.Complete ∧
      ∀ debug, (r.withDebugDefault debug).Complete) := by
  have hends := d.ends_objection?
  constructor
  · intro f hf
    have hstructural := isStructural_of_objection? hf
    rw [hf] at hends
    exact ⟨hends, hstructural, Failure.exitStatus_of_isStructural hstructural⟩
  · intro hnone
    rw [hnone] at hends
    obtain ⟨r, hr, hbecomes⟩ := hends
    exact ⟨r, hr, hbecomes, r.complete, fun debug => Runbook.complete _⟩

/-- A blank address is found after an absent one behind it. -/
example : objection? { name := some " ", hosts := [{ address := some "" }, {}] } =
    some (.invalid (.missingAddress 2)) := by
  decide

end Draft

end Runbooks
