import Runbooks.Proofs.Artifacts.Delivery
import Runbooks.Proofs.Draft.Acceptance
import Runbooks.Proofs.Failure.Status
import Runbooks.Proofs.Session.Speech

/-!
How a run goes through its stages: the runbook is loaded, its artifacts are delivered, the engine is
looked for and called. Each stage is reached through the one before it only, and where a run stops
can be told from its status.
-/

namespace Runbooks

open CommandLine (CompileArgs)

section Statuses

theorem exitStatus_of_load_error {d : Disk} {cwd : Place} {path : String} {f : Failure}
    (h : Runbook.load d cwd path = .error f) : f.exitStatus = 4 := by
  unfold Runbook.load at h
  split at h
  · cases h
    rfl
  · unfold Runbook.parse at h
    split at h
    · rename_i draft _
      have hends := draft.ends_objection?
      cases hobjection : draft.objection? with
      | none =>
        rw [hobjection] at hends
        obtain ⟨r, hr, -⟩ := hends
        rw [hr] at h
        cases h
      | some f' =>
        rw [hobjection] at hends
        have hf : draft.runbook? = .error f' := hends
        rw [hf] at h
        cases h
        exact Failure.exitStatus_of_isStructural (Draft.isStructural_of_objection? hobjection)
    · cases h
      rfl

theorem Attempt.Halts.exitStatus_eq {a : Attempt} {d d' : Disk} {halt : Attempt.Halt} {f : Failure}
    (h : a.Halts d halt f d') : f.exitStatus = 1 := by
  cases h <;> rfl

end Statuses

/-- What an engine that is to be talkative is told: a letter for each degree, or nothing where the
configuration asks for none. -/
def Config.talk (c : Config) : List String :=
  if 0 < c.debugVerbosity.toNat then
    [String.ofList ('-' :: List.replicate c.debugVerbosity.toNat 'v')]
  else []

namespace Context

variable {x : Context} {a : CompileArgs} {executable : Option String} {extraArgs : List String}
variable {r : Runbook} {delivery : Delivery} {d : Disk} {program : String}

def attempt (x : Context) (a : CompileArgs) (r : Runbook) : Attempt where
  obstacle := x.machine.obstacle
  cwd := x.machine.cwd
  dir := a.outputDirIn x.config
  names := x.config.artifactNames
  artifacts := x.compile a r

/-- The runbook is loaded and its artifacts arrive on the disk `d`. -/
structure Arrives (x : Context) (a : CompileArgs) (r : Runbook) (delivery : Delivery) (d : Disk) :
    Prop where
  loads : x.load a.runbook = .ok r
  delivers : x.deliver a (x.compile a r) = (.ok delivery, d)

/-- The engine's program on the disk that a delivery leaves. -/
def program? (x : Context) (executable : Option String) (extraArgs : List String) (d : Disk) :
    Option String :=
  (x.engine executable extraArgs).program? { x.machine with disk := d }

/-- Whether a run debugs: an argument, the configuration or the runbook says so. -/
def debugs (x : Context) (a : CompileArgs) (r : Runbook) : Bool :=
  a.debug || x.config.debug || r.debugDefault

def arguments (x : Context) (a : CompileArgs) (executable : Option String) (extraArgs : List String)
    (r : Runbook) (delivery : Delivery) : List String :=
  (x.engine executable extraArgs).arguments delivery.inventoryPath delivery.playbookPath
    (x.compile a r).debug

def called (x : Context) (a : CompileArgs) (executable : Option String) (extraArgs : List String)
    (r : Runbook) (delivery : Delivery) (d : Disk) (program : String) : Launch :=
  x.machine.launch d program (x.arguments a executable extraArgs r delivery)

/-- A run of the command, with its failure told and turned into a status. -/
def outcome (x : Context) (a : CompileArgs) (executable : Option String) (extraArgs : List String) :
    Outcome :=
  Session.finish x (x.perform (.run a executable extraArgs))

/-- The same surroundings with other engines. -/
def withLaunch (x : Context) (launch : Disk → String → List String → Launch) : Context :=
  { x with machine := { x.machine with launch } }

/-- How far a run gets. -/
inductive Reaches (x : Context) (a : CompileArgs) (executable : Option String)
    (extraArgs : List String) : Prop
  | unloaded {f : Failure} (loads : x.load a.runbook = .error f)
  | undelivered {r : Runbook} {f : Failure} {d : Disk} (loads : x.load a.runbook = .ok r)
      (delivers : x.deliver a (x.compile a r) = (.error f, d))
  | missing {r : Runbook} {delivery : Delivery} {d : Disk} (arrives : x.Arrives a r delivery d)
      (missing : x.program? executable extraArgs d = none)
  | unstarted {r : Runbook} {delivery : Delivery} {d : Disk} {program : String} {s : SystemError}
      (arrives : x.Arrives a r delivery d)
      (found : x.program? executable extraArgs d = some program)
      (ending : (x.called a executable extraArgs r delivery d program).ending = .error s)
  | ended {r : Runbook} {delivery : Delivery} {d : Disk} {program : String} {status : Option Int}
      (arrives : x.Arrives a r delivery d)
      (found : x.program? executable extraArgs d = some program)
      (ending : (x.called a executable extraArgs r delivery d program).ending = .ok status)

theorem arguments_eq (x : Context) (a : CompileArgs) (executable : Option String)
    (extraArgs : List String) (r : Runbook) (delivery : Delivery) :
    x.arguments a executable extraArgs r delivery =
      (if x.debugs a r then x.config.talk else []) ++
        ["-i", delivery.inventoryPath, delivery.playbookPath] ++ x.config.extraArgs ++
          extraArgs := by
  have htalk : (if x.debugs a r && 0 < x.config.debugVerbosity.toNat then
      [(x.engine executable extraArgs).verbosityFlag] else []) =
      if x.debugs a r then x.config.talk else [] := by
    unfold Config.talk
    cases x.debugs a r with
    | false => rfl
    | true =>
      simp only [Bool.true_and, decide_eq_true_eq, if_true]
      rfl
  rw [← htalk, List.append_assoc _ x.config.extraArgs]
  rfl

theorem reaches (x : Context) (a : CompileArgs) (executable : Option String)
    (extraArgs : List String) : x.Reaches a executable extraArgs := by
  cases loads : x.load a.runbook with
  | error f => exact .unloaded loads
  | ok r =>
    rcases delivers : x.deliver a (x.compile a r) with ⟨f | delivery, d⟩
    · exact .undelivered loads delivers
    have harrives : x.Arrives a r delivery d := ⟨loads, delivers⟩
    cases found : x.program? executable extraArgs d with
    | none => exact .missing harrives found
    | some program =>
      cases ending : (x.called a executable extraArgs r delivery d program).ending with
      | error s => exact .unstarted harrives found ending
      | ok status => exact .ended harrives found ending

/-- What is said before a delivery. -/
def preparing (x : Context) (a : CompileArgs) (r : Runbook) : List Event :=
  x.sayAll (x.loadLines a.runbook) ++
    x.sayAll (compileLines r (x.compile a r) (a.modeIn x.config))

/-- What is said from the delivery to the search for the engine. -/
def handing (x : Context) (a : CompileArgs) (r : Runbook) (delivery : Delivery) : List Event :=
  x.say (Log.delivered delivery.outputDir) ++
    (x.voice.generated delivery (x.compile a r).debug ++
      x.say (Log.handing (x.compile a r).debug))

section Courses

variable {f : Failure}

theorem prepare_of_unloaded (loads : x.load a.runbook = .error f) :
    x.prepare a = (x.sayAll (x.loadLines a.runbook), .error f) := by
  rw [prepare, loads]

theorem prepare_of_loaded (loads : x.load a.runbook = .ok r) :
    x.prepare a = (x.preparing a r, .ok (r, x.compile a r)) := by
  rw [prepare, loads]
  rfl

section Delivering

variable (further : Artifacts → Delivery → Disk → Course)

theorem compileAndDeliver_of_unloaded (loads : x.load a.runbook = .error f) :
    x.compileAndDeliver a further =
      ⟨x.sayAll (x.loadLines a.runbook), some f, x.machine.disk⟩ := by
  rw [compileAndDeliver, prepare_of_unloaded loads]

theorem compileAndDeliver_of_undelivered (loads : x.load a.runbook = .ok r)
    (delivers : x.deliver a (x.compile a r) = (.error f, d)) :
    x.compileAndDeliver a further = ⟨x.preparing a r, some f, d⟩ := by
  rw [compileAndDeliver, prepare_of_loaded loads]
  simp only [delivers]

theorem compileAndDeliver_of_arrives (arrives : x.Arrives a r delivery d) :
    x.compileAndDeliver a further =
      let c := further (x.compile a r) delivery d
      { c with
        events := x.preparing a r ++ x.say (Log.delivered delivery.outputDir) ++ c.events } := by
  rw [compileAndDeliver, prepare_of_loaded arrives.loads]
  simp only [arrives.delivers]

end Delivering

theorem run_of_unloaded (loads : x.load a.runbook = .error f) :
    x.run a executable extraArgs = ⟨x.sayAll (x.loadLines a.runbook), some f, x.machine.disk⟩ :=
  compileAndDeliver_of_unloaded _ loads

theorem run_of_undelivered (loads : x.load a.runbook = .ok r)
    (delivers : x.deliver a (x.compile a r) = (.error f, d)) :
    x.run a executable extraArgs = ⟨x.preparing a r, some f, d⟩ :=
  compileAndDeliver_of_undelivered _ loads delivers

theorem run_of_missing (arrives : x.Arrives a r delivery d)
    (missing : x.program? executable extraArgs d = none) :
    x.run a executable extraArgs =
      ⟨x.preparing a r ++ x.handing a r delivery ++
          x.say (Log.lookupFailed (x.engine executable extraArgs).executable),
        some (x.engine executable extraArgs).missing, d⟩ := by
  have hmissing : (x.engine executable extraArgs).program? { x.machine with disk := d } = none :=
    missing
  rw [run, compileAndDeliver_of_arrives _ arrives]
  simp only [launch, hmissing, handing, List.append_assoc]

/-- How a run goes on whose engine is found and comes to `l`. -/
def concluding (x : Context) (a : CompileArgs) (executable : Option String)
    (extraArgs : List String) (r : Runbook) (delivery : Delivery) (d : Disk) (program : String)
    (l : Launch) : Course :=
  let arguments := x.arguments a executable extraArgs r delivery
  let before := x.preparing a r ++ x.handing a r delivery ++ x.say (Log.running program arguments)
  match l.ending with
  | .error s => ⟨before, some (.system s.message), d⟩
  | .ok status =>
    let started := before ++ [.launched program arguments l.output]
    let name := (x.engine executable extraArgs).executable
    if status = some 0 then ⟨started ++ x.voice.completed name x.machine.elapsed, none, d⟩
    else ⟨started, some (.failedEngine name status), d⟩

theorem run_of_found (arrives : x.Arrives a r delivery d)
    (found : x.program? executable extraArgs d = some program) :
    x.run a executable extraArgs =
      x.concluding a executable extraArgs r delivery d program
        (x.called a executable extraArgs r delivery d program) := by
  have hfound :
      (x.engine executable extraArgs).program? { x.machine with disk := d } = some program := found
  have hcalled : x.machine.launch d program ((x.engine executable extraArgs).arguments
      delivery.inventoryPath delivery.playbookPath (x.compile a r).debug) =
      x.called a executable extraArgs r delivery d program := rfl
  rw [run, compileAndDeliver_of_arrives _ arrives]
  simp only [launch, hfound, hcalled, Engine.verdict]
  generalize x.called a executable extraArgs r delivery d program = l
  unfold concluding
  rcases l with ⟨output, s | status⟩
  · simp only [handing, arguments, List.append_assoc, List.append_nil]
  · by_cases hstatus : status = some 0
    · simp only [if_pos hstatus, handing, arguments, List.append_assoc]
    · simp only [if_neg hstatus, handing, arguments, List.append_assoc]

end Courses

section Traces

@[simp] theorem launches_preparing : launches (x.preparing a r) = [] := by
  simp only [preparing, launches_append, launches_sayAll, List.append_nil]

@[simp] theorem prints_preparing : prints (x.preparing a r) = [] := by
  simp only [preparing, prints_append, prints_sayAll, List.append_nil]

@[simp] theorem messages_preparing : messages (x.preparing a r) = [] := by
  simp only [preparing, messages_append, messages_sayAll, List.append_nil]

@[simp] theorem launches_handing : launches (x.handing a r delivery) = [] := by
  simp only [handing, launches_append, launches_say, launches_generated, List.append_nil]

/-- What is left of an outcome: the engines that were started, the status and the disk. -/
def trace (x : Context) (a : CompileArgs) (executable : Option String) (extraArgs : List String) :
    List (String × List String) × Int × Disk :=
  let o := x.outcome a executable extraArgs
  (launches o.events, o.status, o.disk)

theorem trace_eq (x : Context) (a : CompileArgs) (executable : Option String)
    (extraArgs : List String) :
    x.trace a executable extraArgs =
      let c := x.run a executable extraArgs
      (launches c.events, (c.failure.map Failure.exitStatus).getD 0, c.disk) := by
  have houtcome : x.outcome a executable extraArgs =
    Session.finish x (x.run a executable extraArgs) := rfl
  simp only [trace, houtcome]
  generalize x.run a executable extraArgs = c
  unfold Session.finish
  cases c.failure with
  | none => rfl
  | some f =>
    simp only [launches_append, launches_say, launches_error, List.append_nil]
    rfl

theorem trace_of_unloaded {f : Failure} (loads : x.load a.runbook = .error f) :
    x.trace a executable extraArgs = ([], 4, x.machine.disk) := by
  have hstatus : f.exitStatus = 4 := exitStatus_of_load_error loads
  rw [trace_eq, run_of_unloaded loads]
  simp only [launches_sayAll, Option.map_some, Option.getD_some, hstatus]

theorem trace_of_undelivered {f : Failure} (loads : x.load a.runbook = .ok r)
    (delivers : x.deliver a (x.compile a r) = (.error f, d)) :
    x.trace a executable extraArgs = ([], 1, d) := by
  have hends := (x.attempt a r).run_ends x.machine.disk
  rw [show (x.attempt a r).run x.machine.disk = (.error f, d) from delivers] at hends
  have hstatus : f.exitStatus = 1 := by
    cases hends with
    | halts h => exact h.exitStatus_eq
  rw [trace_eq, run_of_undelivered loads delivers]
  simp only [launches_preparing, Option.map_some, Option.getD_some, hstatus]

theorem trace_of_missing (arrives : x.Arrives a r delivery d)
    (missing : x.program? executable extraArgs d = none) :
    x.trace a executable extraArgs = ([], 127, d) := by
  rw [trace_eq, run_of_missing arrives missing]
  simp only [launches_append, launches_preparing, launches_handing, launches_say, List.append_nil]
  rfl

theorem trace_of_unstarted {s : SystemError} (arrives : x.Arrives a r delivery d)
    (found : x.program? executable extraArgs d = some program)
    (ending : (x.called a executable extraArgs r delivery d program).ending = .error s) :
    x.trace a executable extraArgs = ([], 1, d) := by
  rw [trace_eq, run_of_found arrives found]
  simp only [concluding, ending, launches_append, launches_preparing, launches_handing,
    launches_say, List.append_nil]
  rfl

/-- The status of a run whose engine was started: a signal counts as two. -/
theorem trace_of_ended {status : Option Int} (arrives : x.Arrives a r delivery d)
    (found : x.program? executable extraArgs d = some program)
    (ending : (x.called a executable extraArgs r delivery d program).ending = .ok status) :
    x.trace a executable extraArgs =
      ([(program, x.arguments a executable extraArgs r delivery)], status.getD 2, d) := by
  rw [trace_eq, run_of_found arrives found]
  simp only [concluding, ending]
  by_cases hstatus : status = some 0
  · simp only [if_pos hstatus, launches_append, launches_preparing, launches_handing, launches_say,
      launches_completed, List.append_nil, List.nil_append]
    rw [hstatus]
    rfl
  · simp only [if_neg hstatus, launches_append, launches_preparing, launches_handing, launches_say,
      List.append_nil, List.nil_append, Option.map_some, Option.getD_some,
      Failure.exitStatus_failedEngine hstatus]
    rfl

end Traces

section Stages

/-- Both paths of a delivery lead to its files; under one name the two are one file, the playbook. -/
structure InPlace (x : Context) (a : CompileArgs) (r : Runbook) (delivery : Delivery) (d : Disk) :
    Prop where
  named : delivery = .ofNames (a.outputDirIn x.config) x.config.artifactNames
  playbook : d.read x.machine.cwd delivery.playbookPath = .ok (x.compile a r).render.playbook
  inventory : d.read x.machine.cwd delivery.inventoryPath =
    .ok (if (x.attempt a r).inventoryPlace = (x.attempt a r).playbookPlace
      then (x.compile a r).render.playbook else (x.compile a r).render.inventory)

theorem Arrives.inPlace (h : x.Arrives a r delivery d) : x.InPlace a r delivery d := by
  have hends := (x.attempt a r).run_ends x.machine.disk
  rw [show (x.attempt a r).run x.machine.disk = (.ok delivery, d) from h.delivers] at hends
  cases hends with
  | arrives readies moves moves' =>
    have hdelivers := readies.delivers moves moves'
    refine ⟨rfl, hdelivers.playbook, ?_⟩
    split
    · rename_i heq
      exact hdelivers.overwritten heq
    · rename_i hne
      exact hdelivers.inventory hne

/-- A run loads first and delivers next, and only then looks for its engine and calls it. -/
structure Staged (x : Context) (a : CompileArgs) (executable : Option String)
    (extraArgs : List String) : Prop where
  once : (launches (x.outcome a executable extraArgs).events).length ≤ 1
  delivered : ∀ program arguments,
    (program, arguments) ∈ launches (x.outcome a executable extraArgs).events →
      ∃ r delivery, x.Arrives a r delivery (x.outcome a executable extraArgs).disk ∧
        x.InPlace a r delivery (x.outcome a executable extraArgs).disk ∧
        arguments = (if x.debugs a r then x.config.talk else []) ++
          ["-i", delivery.inventoryPath, delivery.playbookPath] ++ x.config.extraArgs ++ extraArgs
  called : ∀ r delivery d program, x.called a executable extraArgs r delivery d program =
    x.machine.launch d program ((if x.debugs a r then x.config.talk else []) ++
      ["-i", delivery.inventoryPath, delivery.playbookPath] ++ x.config.extraArgs ++ extraArgs)
  /-- The run asks nothing of engines but what comes of the one call on what was delivered. -/
  calling : ∀ launch : Disk → String → List String → Launch,
    (∀ r delivery d program, x.Arrives a r delivery d →
      x.program? executable extraArgs d = some program →
      launch d program (x.arguments a executable extraArgs r delivery) =
        x.called a executable extraArgs r delivery d program) →
      (x.withLaunch launch).outcome a executable extraArgs = x.outcome a executable extraArgs
  unloaded : ∀ f, x.load a.runbook = .error f →
    x.trace a executable extraArgs = ([], 4, x.machine.disk)
  undelivered : ∀ r f d, x.load a.runbook = .ok r →
    x.deliver a (x.compile a r) = (.error f, d) → x.trace a executable extraArgs = ([], 1, d)
  missing : ∀ r delivery d, x.Arrives a r delivery d → x.program? executable extraArgs d = none →
    x.trace a executable extraArgs = ([], 127, d) ∧ x.InPlace a r delivery d
  ended : ∀ r delivery d program status, x.Arrives a r delivery d →
    x.program? executable extraArgs d = some program →
    (x.called a executable extraArgs r delivery d program).ending = .ok status →
      x.trace a executable extraArgs =
        ([(program, (if x.debugs a r then x.config.talk else []) ++
          ["-i", delivery.inventoryPath, delivery.playbookPath] ++ x.config.extraArgs ++
            extraArgs)], status.getD 2, d)
  success : (x.outcome a executable extraArgs).status = 0 ↔
    ∃ r delivery d program, x.Arrives a r delivery d ∧
      x.program? executable extraArgs d = some program ∧
      (x.called a executable extraArgs r delivery d program).ending = .ok (some 0)

theorem launches_length_le_one (x : Context) (a : CompileArgs) (executable : Option String)
    (extraArgs : List String) : (x.trace a executable extraArgs).1.length ≤ 1 := by
  cases x.reaches a executable extraArgs with
  | unloaded loads => simp [trace_of_unloaded loads]
  | undelivered loads delivers => simp [trace_of_undelivered loads delivers]
  | missing arrives missing => simp [trace_of_missing arrives missing]
  | unstarted arrives found ending => simp [trace_of_unstarted arrives found ending]
  | ended arrives found ending => simp [trace_of_ended arrives found ending]

theorem arrives_of_mem_launches {call : String × List String}
    (h : call ∈ (x.trace a executable extraArgs).1) :
    ∃ r delivery, x.Arrives a r delivery (x.trace a executable extraArgs).2.2 ∧
      call.2 = x.arguments a executable extraArgs r delivery := by
  cases x.reaches a executable extraArgs with
  | unloaded loads => simp [trace_of_unloaded loads] at h
  | undelivered loads delivers => simp [trace_of_undelivered loads delivers] at h
  | missing arrives missing => simp [trace_of_missing arrives missing] at h
  | unstarted arrives found ending => simp [trace_of_unstarted arrives found ending] at h
  | @ended r delivery d program status arrives found ending =>
    rw [trace_of_ended arrives found ending] at h ⊢
    rw [List.mem_singleton.mp h]
    exact ⟨r, delivery, arrives, rfl⟩

theorem Arrives.withLaunch (h : x.Arrives a r delivery d)
    (launch : Disk → String → List String → Launch) : (x.withLaunch launch).Arrives a r delivery d :=
  ⟨h.loads, h.delivers⟩

theorem run_withLaunch {launch : Disk → String → List String → Launch}
    (h : ∀ r delivery d program, x.Arrives a r delivery d →
      x.program? executable extraArgs d = some program →
      launch d program (x.arguments a executable extraArgs r delivery) =
        x.called a executable extraArgs r delivery d program) :
    (x.withLaunch launch).run a executable extraArgs = x.run a executable extraArgs := by
  -- Whether a run gets to its call does not depend on what engines would do.
  have hfound : ∀ {r delivery d program}, x.Arrives a r delivery d →
      x.program? executable extraArgs d = some program →
      (x.withLaunch launch).run a executable extraArgs = x.run a executable extraArgs := by
    intro r delivery d program arrives found
    have hcalled : (x.withLaunch launch).called a executable extraArgs r delivery d program =
      x.called a executable extraArgs r delivery d program := h r delivery d program arrives found
    rw [run_of_found arrives found, run_of_found (arrives.withLaunch launch) found, hcalled]
    rfl
  cases x.reaches a executable extraArgs with
  | unloaded loads =>
    rw [run_of_unloaded loads, run_of_unloaded (x := x.withLaunch launch) loads]
    rfl
  | undelivered loads delivers =>
    rw [run_of_undelivered loads delivers,
      run_of_undelivered (x := x.withLaunch launch) loads delivers]
    rfl
  | missing arrives missing =>
    rw [run_of_missing arrives missing, run_of_missing (arrives.withLaunch launch) missing]
    rfl
  | unstarted arrives found ending => exact hfound arrives found
  | ended arrives found ending => exact hfound arrives found

theorem status_eq_zero_iff (x : Context) (a : CompileArgs) (executable : Option String)
    (extraArgs : List String) :
    (x.trace a executable extraArgs).2.1 = 0 ↔
      ∃ r delivery d program, x.Arrives a r delivery d ∧
        x.program? executable extraArgs d = some program ∧
        (x.called a executable extraArgs r delivery d program).ending = .ok (some 0) := by
  refine ⟨fun hstatus => ?_, ?_⟩
  · cases x.reaches a executable extraArgs with
    | unloaded loads => simp [trace_of_unloaded loads] at hstatus
    | undelivered loads delivers => simp [trace_of_undelivered loads delivers] at hstatus
    | missing arrives missing => simp [trace_of_missing arrives missing] at hstatus
    | unstarted arrives found ending => simp [trace_of_unstarted arrives found ending] at hstatus
    | @ended r delivery d program status arrives found ending =>
      have hzero : status.getD 2 = 0 := by
        rwa [trace_of_ended arrives found ending] at hstatus
      have hsome : status = some 0 := by
        rcases status with _ | n
        · cases hzero
        · exact congrArg some hzero
      exact ⟨r, delivery, d, program, arrives, found, hsome ▸ ending⟩
  · rintro ⟨r, delivery, d, program, arrives, found, ending⟩
    rw [trace_of_ended arrives found ending]
    rfl

/-- Every run of the command keeps to its stages. -/
theorem run_staged (x : Context) (a : CompileArgs) (executable : Option String)
    (extraArgs : List String) : x.Staged a executable extraArgs where
  once := launches_length_le_one x a executable extraArgs
  delivered program arguments hcall := by
    obtain ⟨r, delivery, harrives, harguments⟩ := arrives_of_mem_launches hcall
    exact ⟨r, delivery, harrives, harrives.inPlace,
      harguments.trans (arguments_eq x a executable extraArgs r delivery)⟩
  called r delivery d program := by
    rw [called, arguments_eq]
  calling launch hcalled := by
    calc (x.withLaunch launch).outcome a executable extraArgs
        = Session.finish (x.withLaunch launch)
            ((x.withLaunch launch).run a executable extraArgs) := rfl
      _ = Session.finish (x.withLaunch launch) (x.run a executable extraArgs) := by
          rw [run_withLaunch hcalled]
      _ = x.outcome a executable extraArgs := rfl
  unloaded f loads := trace_of_unloaded loads
  undelivered r f d loads delivers := trace_of_undelivered loads delivers
  missing r delivery d arrives missing := ⟨trace_of_missing arrives missing, arrives.inPlace⟩
  ended r delivery d program status arrives found ending := by
    rw [← arguments_eq x a executable extraArgs]
    exact trace_of_ended arrives found ending
  success := status_eq_zero_iff x a executable extraArgs

/-- A runbook whose one step prints a message. -/
def greet : String :=
  "\x7b\"name\":\"greet\",\"hosts\":[\x7b\"addr\":\"web\"\x7d]," ++
    "\"steps\":[\x7b\"name\":\"hello\",\"msg\":\"hi\"\x7d]\x7d"

/-- A project with that runbook, beside an engine that ends well. -/
def greeter : Context where
  machine := {
    disk := ⟨[(["greet.json"], .ofText greet), (["bin"], .directory),
      (["bin", "ansible-playbook"], .file .empty true)]⟩
    cwd := []
    vars := fun _ => none
    launch := fun _ _ _ => ⟨"", .ok (some 0)⟩ }
  config := {}

/-- An engine that is named by its path is found, and its status is the run's; there is none of the
usual name to be found. -/
theorem run_staged_greeter :
    let x := greeter.withLaunch fun _ _ _ => ⟨"", .ok (some 3)⟩
    let a : CompileArgs := { runbook := "greet.json", debug := true }
    let engine : Option String := some "bin/ansible-playbook"
    let arguments := ["-vv", "-i", "./generated/hosts", "./generated/playbook.yml", "--check"]
    (x.Staged a engine ["--check"] ∧
      launches (x.outcome a engine ["--check"]).events = [("/bin/ansible-playbook", arguments)] ∧
      (x.outcome a engine ["--check"]).status = 3) ∧
    (greeter.outcome a engine ["--check"]).status = 0 ∧
    (x.Staged a none [] ∧ launches (x.outcome a none []).events = [] ∧
      (x.outcome a none []).status = 127) := by
  intro x a engine arguments
  refine ⟨⟨run_staged x a engine ["--check"], ?_⟩, ?_, run_staged x a none [], ?_⟩
  all_goals decide +kernel

end Stages

end Context

end Runbooks
