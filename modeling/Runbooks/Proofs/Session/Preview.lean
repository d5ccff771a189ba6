import Runbooks.Proofs.Playbook.Decoding
import Runbooks.Proofs.Session.Pipeline

namespace Runbooks

open CommandLine (CompileArgs)

/-- The module of the task that a step of this kind becomes, by the label of the kind. -/
def StepKind.modules : List (String × String) :=
  [("message", "debug"), ("stdin-command", "command"), ("shell", "shell")]

theorem Task.Does.mem_modules {default : Option Bool} {s : Step} {t : Task}
    (h : Task.Does default s t) : (s.kind.label, t.action.moduleName) ∈ StepKind.modules := by
  have hkind : t.step.kind.label = s.kind.label := by
    rw [h.step]
    obtain ⟨name, kind, loop⟩ := s
    cases kind <;> rfl
  rw [← hkind]
  obtain ⟨name, become, action, loop, register, ignoreErrors⟩ := t
  cases action with
  | debug text => exact List.mem_cons_self
  | command line stdin => exact List.mem_cons_of_mem _ List.mem_cons_self
  | shell line => exact List.mem_cons_of_mem _ (List.mem_cons_of_mem _ List.mem_cons_self)

namespace Context

variable {x : Context} {a : CompileArgs} {print : Bool} {r : Runbook} {art : Artifacts}

section Courses

variable {delivery : Delivery} {d : Disk} {f : Failure}

def announcing (x : Context) (a : CompileArgs) (r : Runbook) (delivery : Delivery) : List Event :=
  x.voice.info ("Inventory: " ++ delivery.inventoryPath) ++
    x.voice.info ("Playbook: " ++ delivery.playbookPath) ++
    x.voice.generated delivery (x.compile a r).debug ++
    x.voice.hint ("Run it with: ansible-playbook -i " ++ delivery.inventoryPath ++ " " ++
      delivery.playbookPath)

theorem generate_of_unloaded (loads : x.load a.runbook = .error f) :
    x.generate a = ⟨x.sayAll (x.loadLines a.runbook), some f, x.machine.disk⟩ :=
  compileAndDeliver_of_unloaded _ loads

theorem generate_of_undelivered (loads : x.load a.runbook = .ok r)
    (delivers : x.deliver a (x.compile a r) = (.error f, d)) :
    x.generate a = ⟨x.preparing a r, some f, d⟩ :=
  compileAndDeliver_of_undelivered _ loads delivers

theorem generate_of_arrives (arrives : x.Arrives a r delivery d) :
    x.generate a =
      ⟨x.preparing a r ++ x.say (Log.delivered delivery.outputDir) ++ x.announcing a r delivery,
        none, d⟩ :=
  compileAndDeliver_of_arrives _ arrives

def validating (x : Context) (a : CompileArgs) (print : Bool) (r : Runbook) : List Event :=
  let texts := if print then some (x.compile a r).render else none
  if x.voice.json then x.voice.result (summary r (a.modeIn x.config) texts)
  else report x.voice r (a.modeIn x.config) texts

theorem validate_of_unloaded (print : Bool) (loads : x.load a.runbook = .error f) :
    x.validate a print = ⟨x.sayAll (x.loadLines a.runbook), some f, x.machine.disk⟩ := by
  simp only [validate, loads]

theorem validate_of_loaded (print : Bool) (loads : x.load a.runbook = .ok r) :
    x.validate a print =
      ⟨x.preparing a r ++ x.validating a print r, none, x.machine.disk⟩ := by
  rw [validate, loads]
  rfl

end Courses

def printedTitle (v : Voice) (title : String) : String :=
  "\n" ++ v.paint "1;36" title ++ "\n" ++
    v.paint "36" (String.ofList (List.replicate title.utf8ByteSize '-')) ++ "\n"

/-- A list as it is printed for people, an item a line. -/
def printedList (v : Voice) (title : String) (items : List String) : String :=
  "\n" ++ v.paint "1;97" title ++ ":\n" ++
    String.join (items.map fun item => "  " ++ v.paint "90" "-" ++ " " ++ item ++ "\n")

def printedLists (v : Voice) (r : Runbook) : List String :=
  [printedList v "Hosts" (r.hosts.map Host.address),
    printedList v "Steps" (r.steps.map fun s => s.name ++ " (" ++ s.kind.label ++ ")")]

/-- The two texts as they are printed for people, each as it is and under a title. -/
def printedTexts (v : Voice) (mode : InventoryMode) (t : Rendered) : List String :=
  [printedTitle v ("Inventory (" ++ mode.name ++ ")"), t.inventory, printedTitle v "Playbook",
    t.playbook]

/-- What is printed for people when a runbook is valid. -/
def printed (v : Voice) (r : Runbook) (mode : InventoryMode) (texts : Option Rendered) :
    List String :=
  [printedTitle v ("Runbook: " ++ r.name)] ++ prints (r.description.elim [] v.info) ++
    printedLists v r ++ texts.elim [] (printedTexts v mode) ++
    ["\n" ++ v.paint "1;32" ("Runbook '" ++ r.name ++ "' is valid") ++ "\n"]

/-- The members of the summary of a runbook that tell of it and of its texts. -/
structure Summarizes (r : Runbook) (texts : Option Rendered) (members : List (String × Json)) :
    Prop where
  distinct : (members.map Prod.fst).Nodup
  hosts : members.lookup "hosts" = some (.texts (r.hosts.map Host.address))
  steps : members.lookup "steps" = some (.array (r.steps.map fun s =>
    .object [("kind", .string s.kind.label), ("name", .string s.name)]))
  inventory : members.lookup "inventory" = texts.map fun t => .string t.inventory
  playbook : members.lookup "playbook" = texts.map fun t => .string t.playbook

/-- What validating shows of a runbook and its artifacts, for programs or for people. -/
structure Shows (x : Context) (a : CompileArgs) (print : Bool) (r : Runbook) (art : Artifacts) :
    Prop where
  kinds : List.Forall₂ (fun (s : Step) (t : Task) =>
    (s.kind.label, t.action.moduleName) ∈ StepKind.modules) r.steps art.playbook.tasks
  programs : x.voice.json = true → ∃ line members,
    prints (x.validate a print).events = [line] ∧ HoldsObject line members ∧
      Summarizes r (if print then some art.render else none) members
  people : x.voice.json = false → prints (x.validate a print).events =
    printed x.voice r (a.modeIn x.config) (if print then some art.render else none)

/-- What generating makes of a runbook: an attempt to deliver the texts of `art`, which decides
whether it fails and what it leaves on the disk. -/
structure Makes (x : Context) (a : CompileArgs) (r : Runbook) (art : Artifacts) : Prop where
  loads : x.load a.runbook = .ok r
  compiles : art = (x.attempt a r).artifacts
  failure : ∀ f, (x.generate a).failure = some f ↔
    ((x.attempt a r).run x.machine.disk).1 = .error f
  disk : (x.generate a).disk = ((x.attempt a r).run x.machine.disk).2
  inPlace : ∀ delivery, ((x.attempt a r).run x.machine.disk).1 = .ok delivery →
    x.InPlace a r delivery (x.generate a).disk

/-- What validating comes to, beside what generating comes to. -/
structure Previews (x : Context) (a : CompileArgs) (print : Bool) : Prop where
  disk : (x.validate a print).disk = x.machine.disk
  succeeds : (x.validate a print).failure = none ↔ ∃ r art, (x.prepare a).2 = .ok (r, art)
  fails : ∀ f, (x.validate a print).failure = some f ↔ (x.prepare a).2 = .error f
  alike : ∀ f, (x.prepare a).2 = .error f → x.generate a = x.validate a print
  shows : ∀ r art, (x.prepare a).2 = .ok (r, art) → x.Shows a print r art ∧ x.Makes a r art

theorem summarizes_summary (r : Runbook) (mode : InventoryMode) (texts : Option Rendered) :
    ∃ members, summary r mode texts = .object members ∧ Summarizes r texts members := by
  cases texts with
  | none =>
    have hkeys : ["hosts", "inventory_mode", "runbook", "steps", "type", "valid"].Nodup := by decide
    exact ⟨_, rfl, hkeys, rfl, rfl, rfl, rfl⟩
  | some t =>
    have hkeys : ["hosts", "inventory", "inventory_mode", "playbook", "runbook", "steps", "type",
      "valid"].Nodup := by decide
    exact ⟨_, rfl, hkeys, rfl, rfl, rfl, rfl⟩

section Report

variable {v : Voice} (h : v.json = false)

include h

theorem human_of_people (events : List Event) : v.human events = events := by
  rw [Voice.human, h]
  rfl

theorem prints_sectionTitle (title : String) :
    prints (v.sectionTitle title) = [printedTitle v title] := by
  rw [Voice.sectionTitle, human_of_people h]
  rfl

theorem prints_list (title : String) (items : List String) :
    prints (v.list title items) = [printedList v title items] := by
  rw [Voice.list, human_of_people h]
  rfl

theorem prints_valid (runbook : String) : prints (v.valid runbook) =
    ["\n" ++ v.paint "1;32" ("Runbook '" ++ runbook ++ "' is valid") ++ "\n"] := by
  rw [Voice.valid, human_of_people h]
  rfl

theorem prints_report (r : Runbook) (mode : InventoryMode) (texts : Option Rendered) :
    prints (report v r mode texts) = printed v r mode texts := by
  have hwarning : prints (if reachesLocalhost r mode then v.warning sshWarning else []) = [] := by
    split
    · exact prints_warning v sshWarning
    · rfl
  have hraw : ∀ text, prints (Voice.raw text) = [text] := fun _ => rfl
  unfold report printed
  cases texts <;> cases r.description <;>
    simp only [prints_append, prints_sectionTitle h, prints_list h, prints_valid h, hraw, hwarning,
      printedLists, printedTexts, Option.elim_none, Option.elim_some, prints_nil,
      List.append_assoc, List.cons_append, List.nil_append, List.append_nil]

end Report

theorem shows_of_loaded (loads : x.load a.runbook = .ok r) :
    x.Shows a print r (x.compile a r) where
  kinds := (Play.tasks_ofRunbook r _).imp fun _ _ h => h.mem_modules
  programs h := by
    obtain ⟨members, hsummary, hmembers⟩ := summarizes_summary r (a.modeIn x.config)
      (if print then some (x.compile a r).render else none)
    refine ⟨_, members, ?_, holdsObject_jsonLine members, hmembers⟩
    rw [validate_of_loaded print loads]
    simp only [prints_append, prints_preparing, List.nil_append, validating, if_pos h,
      hsummary, Voice.result_of_json h]
    rfl
  people h := by
    rw [validate_of_loaded print loads]
    simp only [prints_append, prints_preparing, List.nil_append, validating, h,
      Bool.false_eq_true, if_false, prints_report h]

theorem makes_of_loaded (loads : x.load a.runbook = .ok r) : x.Makes a r (x.compile a r) := by
  have hrun : x.deliver a (x.compile a r) = (x.attempt a r).run x.machine.disk := rfl
  rcases delivers : x.deliver a (x.compile a r) with ⟨f | delivery, d⟩
  · have hgenerate := generate_of_undelivered loads delivers
    rw [hrun] at delivers
    exact {
      loads
      compiles := rfl
      failure := by simp [hgenerate, delivers]
      disk := by rw [hgenerate, delivers]
      inPlace := by simp [delivers] }
  · have harrives : x.Arrives a r delivery d := ⟨loads, delivers⟩
    have hgenerate := generate_of_arrives harrives
    rw [hrun] at delivers
    exact {
      loads
      compiles := rfl
      failure := by simp [hgenerate, delivers]
      disk := by rw [hgenerate, delivers]
      inPlace := by
        rw [hgenerate, delivers]
        intro delivery' h
        obtain rfl := Except.ok.inj h
        exact harrives.inPlace }

/-- Validating refuses what generating refuses before it delivers anything, shows what generating
delivers, and leaves the disk as it is. -/
theorem validate_previews (x : Context) (a : CompileArgs) (print : Bool) :
    x.Previews a print := by
  -- Nothing but loading can fail before a delivery, and both commands load from the same path.
  cases loads : x.load a.runbook with
  | error f =>
    have hvalidate := validate_of_unloaded print loads
    have hprepare := prepare_of_unloaded loads
    exact {
      disk := by rw [hvalidate]
      succeeds := by simp [hvalidate, hprepare]
      fails := by simp [hvalidate, hprepare]
      alike := by
        rw [hvalidate, generate_of_unloaded loads, hprepare]
        simp
      shows := by simp [hprepare] }
  | ok r =>
    have hvalidate := validate_of_loaded print loads
    have hprepare := prepare_of_loaded loads
    exact {
      disk := by rw [hvalidate]
      succeeds := by simp [hvalidate, hprepare]
      fails := by simp [hvalidate, hprepare]
      alike := by simp [hprepare]
      shows := by
        rw [hprepare]
        intro r' art h
        obtain ⟨rfl, rfl⟩ := Prod.mk.inj (Except.ok.inj h)
        exact ⟨shows_of_loaded loads, makes_of_loaded loads⟩ }

end Context

end Runbooks
