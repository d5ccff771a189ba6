import Runbooks.Proofs.CommandLine.Flags
import Runbooks.Proofs.Config.Precedence
import Runbooks.Proofs.Config.Search
import Runbooks.Session.Program

namespace Runbooks

namespace Config

variable {d : Disk} {cwd : Place} {vars vars' : Variables} {files : List String} {path : String}

theorem settled_of_not_set {k : Key} {before after : List String}
    (h : k.inFile? d cwd path = none) :
    k.settled d cwd vars (before ++ path :: after) = k.settled d cwd vars (before ++ after) := by
  unfold Key.settled
  rw [List.filterMap_append, List.filterMap_cons_none h, ← List.filterMap_append]

theorem settled_of_variables {k : Key}
    (h : ∀ v, k.setting.override? = some v → vars' v.name = vars v.name) :
    k.settled d cwd vars' files = k.settled d cwd vars files := by
  have hvaried : k.varied? vars' = k.varied? vars := by
    unfold Key.varied?
    cases hv : k.setting.override? with
    | none => rfl
    | some v => rw [Option.bind_some, Option.bind_some, h v hv]
  unfold Key.settled
  rw [hvaried]

theorem load_error_of_mem {explicit home : Option String}
    (hmem : path ∈ present d cwd (paths vars explicit home)) (h : layer? d cwd path = none) :
    ∃ f, load d cwd vars explicit home = .error f := by
  cases hload : load d cwd vars explicit home with
  | error f => exact ⟨f, rfl⟩
  | ok c =>
    have hsome := (load_eq_ok_iff.mp hload).1 path hmem
    rw [h] at hsome
    cases hsome

/-- An engine that its variable names is the one that the configuration names. -/
theorem executable_of_load {explicit home : Option String} {c : Config} {name : String}
    (h : load d cwd vars explicit home = .ok c) (hname : vars "RUNBOOK_ANSIBLE_PLAYBOOK" = some name) :
    c.executable = name := by
  have hsettled := (load_eq_ok_iff.mp h).2.2 .executable
  have hvaried : Key.executable.varied? vars = some name := by
    rw [← hname]
    exact Option.bind_fun_some _
  rw [Key.settled, hvaried] at hsettled
  exact hsettled

end Config

namespace CommandLine

/-- What a request asks of compilation, if it asks for any. -/
def Request.compileArgs? : Request → Option CompileArgs
  | .generate a => some a
  | .run a _ _ => some a
  | .validate a _ => some a
  | .completions _ _ => none

namespace Call

variable {c : Call} {a : CompileArgs} {executable : Option String} {extraArgs : List String}

theorem eq_compileArgs (h : c.request.compileArgs? = some a) : a = c.compileArgs := by
  unfold request at h
  split at h
  · exact (Option.some.inj h).symm
  · exact (Option.some.inj h).symm
  · exact (Option.some.inj h).symm
  · cases h

theorem of_request_run (h : c.request = .run a executable extraArgs) :
    c.spec.name = Spec.run.name ∧ a = c.compileArgs ∧
      executable = c.value? "ansible-playbook" ∧ extraArgs = c.values "extra_args" := by
  unfold request at h
  split at h
  · cases h
  · rename_i hname
    obtain ⟨rfl, rfl, rfl⟩ := Request.run.inj h
    exact ⟨hname, rfl, rfl, rfl⟩
  · cases h
  · cases h

end Call

theorem eq_run_of_mem_commands :
    ∀ spec ∈ Spec.commands, spec.name = Spec.run.name → spec = Spec.run := by
  decide

theorem eq_ok_of_toOption {ε α : Type} {x : Except ε α} {a : α} (h : x.toOption = some a) :
    x = .ok a := by
  cases x with
  | error e => cases h
  | ok a' => exact congrArg Except.ok (Option.some.inj h)

theorem isSome_mode_of_checkValue (argument v : String)
    (h : checkValue .mode argument v = .ok ()) : (InventoryMode.ofText? v).toOption.isSome := by
  unfold checkValue at h
  cases hmode : InventoryMode.ofText? v with
  | ok mode => rfl
  | error f =>
    simp only [hmode] at h
    cases h

end CommandLine

namespace Session

open CommandLine

def files (m : Machine) (i : Invocation) : List String :=
  Config.present m.disk m.cwd (Config.paths m.vars i.globals.config m.home)

/-- Where artifacts go and how they are compiled: as the words of the command line say, else as the
configuration does. -/
structure Chosen (bare : Call) (c : Config) (dir : String) (mode : InventoryMode) (debug : Bool) :
    Prop where
  dir : bare.Chooses "output" some c.outputDir dir
  mode : bare.Chooses "inventory-mode" (fun s => (InventoryMode.ofText? s).toOption) c.mode mode
  debug : debug = (bare.has "debug" || c.debug)

/-- Where the settings of a session come from; `bare` is what its words alone say. -/
structure Settings (m : Machine) (i : Invocation) (bare : Call) : Prop where
  path : i.globals.config = (bare.value? "config").or (m.vars "RUNBOOK_CONFIG")
  searched : ∃ names, Config.Searched m.vars m.home i.globals.config names ∧
    files m i = names.filter (m.disk.exists? m.cwd)
  loads : ∀ c, Config.load m.disk m.cwd m.vars i.globals.config m.home = .ok c ↔
    (∀ path ∈ files m i, (Config.layer? m.disk m.cwd path).isSome) ∧
      Config.ValidVariables m.vars ∧
      ∀ k : Config.Key, k.setting.inConfig c = k.settled m.disk m.cwd m.vars (files m i)
  fails : ∀ path ∈ files m i, Config.layer? m.disk m.cwd path = none →
    ∃ f, Config.load m.disk m.cwd m.vars i.globals.config m.home = .error f
  otherFiles : ∀ (k : Config.Key) (before after : List String) (path : String),
    k.inFile? m.disk m.cwd path = none →
      k.settled m.disk m.cwd m.vars (before ++ path :: after) =
        k.settled m.disk m.cwd m.vars (before ++ after)
  otherVariables : ∀ (k : Config.Key) (vars : Variables),
    (∀ v, k.setting.override? = some v → vars v.name = m.vars v.name) →
      k.settled m.disk m.cwd vars (files m i) = k.settled m.disk m.cwd m.vars (files m i)
  compiles : ∀ c a, Config.load m.disk m.cwd m.vars i.globals.config m.home = .ok c →
    i.request.compileArgs? = some a → ∃ dir mode debug, Chosen bare c dir mode debug ∧
      (∀ r, (context m i c).compile a r = Artifacts.compile mode r debug) ∧
      ∀ art, (context m i c).deliver a art =
        art.render.deliver m.obstacle m.cwd dir ⟨c.inventoryName, c.playbookName⟩ m.disk
  runs : ∀ c a executable extraArgs,
    Config.load m.disk m.cwd m.vars i.globals.config m.home = .ok c →
    i.request = .run a executable extraArgs →
      bare.Chooses "ansible-playbook" some c.executable
          ((context m i c).engine executable extraArgs).executable ∧
        ((context m i c).engine executable extraArgs).extraArgs =
          c.extraArgs ++ bare.values "extra_args"

variable {m : Machine} {words : List String} {i : Invocation} {bare call : Call} {c : Config}
variable {a : CompileArgs} {executable : Option String} {extraArgs : List String}

theorem chosen_of_bare (hbare : Bare words bare) (hfills : Fills m.vars bare call)
    (c : Config) : Chosen bare c (call.compileArgs.outputDirIn c) (call.compileArgs.modeIn c)
      (call.compileArgs.debugIn c) := by
  have hfind : ∀ key, FilledBy key none → call.find? key = bare.find? key :=
    fun key => hfills.find?_eq_of_none hbare
  have houtput : call.compileArgs.output = (bare.value? "output").bind some := by
    rw [Option.bind_fun_some]
    exact congrArg (·.bind fun g => g.values.head?) (hfind "output" (by decide))
  have hmode : call.compileArgs.mode =
      (bare.value? "inventory-mode").bind fun s => (InventoryMode.ofText? s).toOption := by
    rw [Call.value?, ← hfind "inventory-mode" (by decide)]
    rfl
  have hdebug : call.compileArgs.debug = bare.has "debug" :=
    congrArg Option.isSome (hfind "debug" (by decide))
  refine ⟨?_, ?_, ?_⟩
  · rw [CompileArgs.outputDirIn, houtput]
    exact hbare.chooses (by decide : Takes "output" .path) (fun _ _ _ => rfl) c.outputDir
  · rw [CompileArgs.modeIn, hmode]
    exact hbare.chooses (by decide : Takes "inventory-mode" .mode) isSome_mode_of_checkValue c.mode
  · rw [CompileArgs.debugIn, hdebug]

theorem config_eq_or (hbare : Bare words bare) (hfills : Fills m.vars bare call) :
    call.globals.config = (bare.value? "config").or (m.vars "RUNBOOK_CONFIG") := by
  have htakes : Takes "config" .path := by decide
  have hfilled : FilledBy "config" (some "RUNBOOK_CONFIG") := by decide
  obtain ⟨s, hs, hlong, hname, hvalue⟩ : ∃ s ∈ Spec.program.switches, s.long = "config" ∧
      s.variableName = some "RUNBOOK_CONFIG" ∧ s.valueName?.isSome := by decide
  exact hfills.value?_eq_or hbare htakes hfilled (List.mem_append_right _ hs) hlong hname hvalue

/-- The engine's variable speaks for the option and for the configuration alike. -/
theorem engine_of_bare (hbare : Bare words bare) (hfills : Fills m.vars bare call)
    (hload : Config.load m.disk m.cwd m.vars i.globals.config m.home = .ok c)
    (hrequest : call.request = .run a executable extraArgs) :
    bare.Chooses "ansible-playbook" some c.executable
        ((context m i c).engine executable extraArgs).executable ∧
      ((context m i c).engine executable extraArgs).extraArgs =
        c.extraArgs ++ bare.values "extra_args" := by
  obtain ⟨hname, -, rfl, rfl⟩ := Call.of_request_run hrequest
  have hspec : call.spec = Spec.run :=
    eq_run_of_mem_commands call.spec (hfills.spec_eq ▸ hbare.spec_mem) hname
  have htakes : Takes "ansible-playbook" .text := by decide
  have hvalue : call.value? "ansible-playbook" =
      (bare.value? "ansible-playbook").or (m.vars "RUNBOOK_ANSIBLE_PLAYBOOK") := by
    have hfilled : FilledBy "ansible-playbook" (some "RUNBOOK_ANSIBLE_PLAYBOOK") := by decide
    obtain ⟨s, hs, hlong, hname, hvalue⟩ : ∃ s ∈ Spec.run.switches,
        s.long = "ansible-playbook" ∧ s.variableName = some "RUNBOOK_ANSIBLE_PLAYBOOK" ∧
          s.valueName?.isSome := by decide
    exact hfills.value?_eq_or hbare htakes hfilled
      (List.mem_append_left _ (hspec ▸ hs)) hlong hname hvalue
  have hexecutable : (call.value? "ansible-playbook").getD c.executable =
      ((bare.value? "ansible-playbook").bind some).getD c.executable := by
    rw [hvalue, Option.bind_fun_some]
    -- Without the option the variable speaks, and then the configuration says the same.
    cases bare.value? "ansible-playbook" with
    | some name => rfl
    | none =>
      cases hset : m.vars "RUNBOOK_ANSIBLE_PLAYBOOK" with
      | none => rfl
      | some name => exact (Config.executable_of_load hload hset).symm
  refine ⟨?_, ?_⟩
  · change bare.Chooses _ _ _ ((call.value? "ansible-playbook").getD c.executable)
    rw [hexecutable]
    exact hbare.chooses htakes (fun _ _ _ => rfl) c.executable
  · change c.extraArgs ++ call.values "extra_args" = _
    have hfind := hfills.find?_eq_of_none hbare (by decide : FilledBy "extra_args" none)
    rw [Call.values, hfind, ← Call.values]

/-- Every key of the configuration is settled by its variable, else by the last file that sets it,
else by its default, and the words of the command line go before. -/
theorem settings_take_precedence (m : Machine) (words : List String) {i : Invocation}
    (h : Invocation.read m.vars words = .ok i) :
    ∃ bare, Call.read noVariables words = .ok bare ∧ Settings m i bare := by
  obtain ⟨call, hcall, h⟩ := bind_eq_ok h
  obtain rfl := Except.ok.inj h
  obtain ⟨bare, hbare, hfills⟩ := exists_bare hcall
  refine ⟨bare, hbare.reads, ?_⟩
  exact {
    path := config_eq_or hbare hfills
    searched := ⟨_, Config.searched_paths m.vars m.home _, rfl⟩
    loads := fun _ => Config.load_eq_ok_iff
    fails := fun _ hmem hlayer => Config.load_error_of_mem hmem hlayer
    otherFiles := fun _ _ _ _ hunset => Config.settled_of_not_set hunset
    otherVariables := fun _ _ hsame => Config.settled_of_variables hsame
    compiles := fun c a _ hargs => by
      obtain rfl := Call.eq_compileArgs hargs
      exact ⟨_, _, _, chosen_of_bare hbare hfills c, fun _ => rfl, fun _ => rfl⟩
    runs := fun _ _ _ _ hload hrequest => engine_of_bare hbare hfills hload hrequest }

/-- A machine with a file in each place that is looked in, and one that can be named. -/
def workshop : Machine where
  disk := Disk.provide ["etc", "runbook-cli", "config.toml"]
      (.ofText "[defaults]\noutput_dir = \"/srv\"\ndebug = true\n") <|
    Disk.provide ["home", "ann", ".config", "runbook-cli", "config.toml"]
      (.ofText "[defaults]\ndebug = false\n[execution]\nexecutable = \"slow\"\n") <|
    Disk.provide [".runbook-cli.toml"] (.ofText "[logging]\nlevel = \"info\"\n") <|
    Disk.provide ["special.toml"] (.ofText "[defaults]\noutput_dir = \"special\"\n") {}
  cwd := []
  vars name :=
    if name = "HOME" then some "/home/ann"
    else if name = "RUNBOOK_ANSIBLE_PLAYBOOK" then some "fast" else none
  launch _ _ _ := ⟨"", .ok (some 0)⟩

theorem settings_take_precedence_workshop :
    let request : Request :=
      .run { runbook := "site.toml", output := some "out" } (some "fast") ["--check"]
    let words := ["run", "-o", "out", "site.toml", "--", "--check"]
    let named := ["--config", "special.toml"]
    let special : Invocation := ⟨{ config := some "special.toml" }, request⟩
    (Invocation.read workshop.vars words = .ok ⟨{}, request⟩ ∧
      files workshop ⟨{}, request⟩ = ["/etc/runbook-cli/config.toml",
        "/home/ann/.config/runbook-cli/config.toml", ".runbook-cli.toml"] ∧
      Config.load workshop.disk workshop.cwd workshop.vars none =
        .ok { outputDir := "/srv", executable := "fast", logLevel := "info" } ∧
      ∃ bare, Call.read noVariables words = .ok bare ∧ Settings workshop ⟨{}, request⟩ bare) ∧
    (Invocation.read workshop.vars (named ++ words) = .ok special ∧
      files workshop special = ["special.toml"] ∧
      Config.load workshop.disk workshop.cwd workshop.vars (some "special.toml") =
        .ok { outputDir := "special", executable := "fast" } ∧
      ∃ bare, Call.read noVariables (named ++ words) = .ok bare ∧
        Settings workshop special bare) := by
  intro request words named special
  have hread : Invocation.read workshop.vars words = .ok ⟨{}, request⟩ :=
    eq_ok_of_toOption (by decide +kernel)
  have hload : Config.load workshop.disk workshop.cwd workshop.vars none =
      .ok { outputDir := "/srv", executable := "fast", logLevel := "info" } :=
    eq_ok_of_toOption (by decide +kernel)
  have hnamed : Invocation.read workshop.vars (named ++ words) = .ok special :=
    eq_ok_of_toOption (by decide +kernel)
  have hspecial : Config.load workshop.disk workshop.cwd workshop.vars (some "special.toml") =
      .ok { outputDir := "special", executable := "fast" } :=
    eq_ok_of_toOption (by decide +kernel)
  exact ⟨⟨hread, by decide +kernel, hload, settings_take_precedence workshop words hread⟩,
    ⟨hnamed, by decide +kernel, hspecial,
      settings_take_precedence workshop (named ++ words) hnamed⟩⟩

end Session

end Runbooks
