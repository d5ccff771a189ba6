import Runbooks.Proofs.Session.Preview
import Runbooks.Proofs.Session.Settings

namespace Runbooks

open CommandLine (Invocation eq_ok_of_toOption)

section Courses

/-- A course that tells of its success in one object and leaves its failure to be told. -/
structure Course.Terse (c : Course) : Prop where
  unsaid : messages c.events = []
  succeeds : c.failure = none → ∃ members, prints c.events = [Voice.jsonLine (.object members)]
  fails : ∀ f, c.failure = some f → prints c.events = []

variable {events : List Event} {d : Disk}

theorem Course.terse_of_success {members : List (String × Json)} (hunsaid : messages events = [])
    (hprints : prints events = [Voice.jsonLine (.object members)]) :
    Terse ⟨events, none, d⟩ where
  unsaid := hunsaid
  succeeds _ := ⟨members, hprints⟩
  fails _ h := nomatch h

theorem Course.terse_of_failure {f : Failure} (hunsaid : messages events = [])
    (hprints : prints events = []) : Terse ⟨events, some f, d⟩ where
  unsaid := hunsaid
  succeeds h := nomatch h
  fails _ _ := hprints

namespace Context

variable {x : Context}

open CommandLine (CompileArgs)

theorem generate_terse (h : x.voice.json = true) (a : CompileArgs) : (x.generate a).Terse := by
  cases loads : x.load a.runbook with
  | error f =>
    rw [generate_of_unloaded loads]
    exact Course.terse_of_failure (messages_sayAll _ _) (prints_sayAll _ _)
  | ok r =>
    rcases delivers : x.deliver a (x.compile a r) with ⟨f | delivery, d⟩
    · rw [generate_of_undelivered loads delivers]
      exact Course.terse_of_failure messages_preparing prints_preparing
    · have hannouncing : x.announcing a r delivery = [.out (Voice.jsonLine
          (Voice.generatedJson delivery (x.compile a r).debug))] := by
        simp only [announcing, Voice.info_of_json h, Voice.generated_of_json h, Voice.hint,
          Voice.human_of_json h, List.nil_append, List.append_nil]
      rw [generate_of_arrives ⟨loads, delivers⟩, hannouncing]
      apply Course.terse_of_success
      · simp only [messages_append, messages_preparing, messages_say, List.nil_append]
        rfl
      · simp only [prints_append, prints_preparing, prints_say, List.nil_append]
        rfl

theorem validate_terse (h : x.voice.json = true) (a : CompileArgs) (print : Bool) :
    (x.validate a print).Terse := by
  cases loads : x.load a.runbook with
  | error f =>
    rw [validate_of_unloaded print loads]
    exact Course.terse_of_failure (messages_sayAll _ _) (prints_sayAll _ _)
  | ok r =>
    have hvalidating : x.validating a print r = [.out (Voice.jsonLine (summary r (a.modeIn x.config)
        (if print then some (x.compile a r).render else none)))] := by
      rw [validating, if_pos h, Voice.result_of_json h]
    rw [validate_of_loaded print loads, hvalidating]
    apply Course.terse_of_success
    · simp only [messages_append, messages_preparing, List.nil_append]
      rfl
    · simp only [prints_append, prints_preparing, List.nil_append]
      rfl

end Context

end Courses

namespace Session

variable {m : Machine} {words : List String} {i : Invocation} {c : Config}

/-- The parts of the configured log level that no filter can be made of, as the operator is told of
them. -/
def notices (m : Machine) (i : Invocation) (c : Config) : List String :=
  (Log.filterFor m.vars i.globals.verbosity c.logLevel).2.map Log.passedOver

/-- How a session answers the program that asks for it. -/
structure Answers (m : Machine) (words : List String) (i : Invocation) : Prop where
  misconfigured : ∀ f, Config.load m.disk m.cwd m.vars i.globals.config m.home = .error f →
    run m words = ⟨f.exitStatus, [.err ("ERROR: " ++ f.describe ++ "\n")], m.disk⟩ ∧
      f.exitStatus ≠ 0 ∧ ∀ members, ¬HoldsObject ("ERROR: " ++ f.describe ++ "\n") members
  succeeds : ∀ c, Config.load m.disk m.cwd m.vars i.globals.config m.home = .ok c →
    ((context m i c).perform i.request).failure = none →
      (run m words).status = 0 ∧ (∃ members, HoldsObject (run m words).stdout members) ∧
        messages (run m words).events = notices m i c
  fails : ∀ c f, Config.load m.disk m.cwd m.vars i.globals.config m.home = .ok c →
    ((context m i c).perform i.request).failure = some f →
      (run m words).status = f.exitStatus ∧ f.exitStatus ≠ 0 ∧ (run m words).stdout = "" ∧
        ∃ line, messages (run m words).events = notices m i c ++ [line] ∧
          HoldsObject line [("message", .string f.describe), ("type", .string "error")]

theorem prints_preamble (m : Machine) (i : Invocation) (c : Config) :
    prints (preamble m i c) = [] := by
  have hnotices : ∀ others : List String,
      prints (others.map (.err <| Log.passedOver ·)) = [] := by
    intro others
    rw [prints, List.filterMap_map, List.filterMap_eq_nil_iff]
    exact fun _ _ => rfl
  rw [preamble, prints_append, hnotices]
  split <;> rfl

theorem messages_preamble (h : i.globals.verbosity = 0) (c : Config) :
    messages (preamble m i c) = notices m i c := by
  have hnotices : ∀ others : List String,
      messages (others.map (.err <| Log.passedOver ·)) = others.map Log.passedOver := by
    intro others
    rw [messages, List.filterMap_map]
    exact congrFun List.filterMap_eq_map others
  have hterse : ¬2 ≤ i.globals.verbosity := by
    rw [h]
    decide
  rw [preamble, messages_append, hnotices, if_neg hterse]
  exact List.append_nil _

theorem holdsObject_not_plain (text : String) (members : List (String × Json)) :
    ¬HoldsObject ("ERROR: " ++ text) members := by
  intro h
  have hhead := congrArg (fun line => line.toList.head?) h.ending
  simp [Json.text, Json.render] at hhead

theorem run_of_configured (h : Invocation.read m.vars words = .ok i)
    (hload : Config.load m.disk m.cwd m.vars i.globals.config m.home = .ok c) :
    run m words =
      let o := finish (context m i c) ((context m i c).perform i.request)
      { o with events := preamble m i c ++ o.events } := by
  simp only [run, h, carryOut, hload]

theorem run_of_misconfigured {f : Failure} (h : Invocation.read m.vars words = .ok i)
    (hload : Config.load m.disk m.cwd m.vars i.globals.config m.home = .error f) :
    run m words = ⟨f.exitStatus, [.err ("ERROR: " ++ f.describe ++ "\n")], m.disk⟩ := by
  simp only [run, h, carryOut, hload]

theorem stdout_of_configured (h : Invocation.read m.vars words = .ok i)
    (hload : Config.load m.disk m.cwd m.vars i.globals.config m.home = .ok c) :
    (run m words).stdout = String.join (prints ((context m i c).perform i.request).events) := by
  rw [run_of_configured h hload, Outcome.stdout, join_stdout, prints_append, prints_preamble,
    List.nil_append, prints_finish]

theorem answers_of_terse (h : Invocation.read m.vars words = .ok i)
    (hjson : i.globals.json = true) (hquiet : i.globals.verbosity = 0)
    (hterse : ∀ c, ((context m i c).perform i.request).Terse) : Answers m words i where
  misconfigured f hload := by
    refine ⟨run_of_misconfigured h hload, f.exitStatus_ne_zero, fun members => ?_⟩
    rw [String.append_assoc]
    exact holdsObject_not_plain _ members
  succeeds c hload hfailure := by
    obtain ⟨members, hprints⟩ := (hterse c).succeeds hfailure
    have hstdout : (run m words).stdout = Voice.jsonLine (.object members) := by
      rw [stdout_of_configured h hload, hprints, String.join_cons, String.join_nil,
        String.append_empty]
    refine ⟨?_, ⟨members, hstdout ▸ holdsObject_jsonLine members⟩, ?_⟩
    · simp only [run_of_configured h hload, finish, hfailure]
    · simp only [run_of_configured h hload, finish, hfailure, messages_append,
        messages_preamble hquiet, (hterse c).unsaid, List.append_nil]
  fails c f hload hfailure := by
    have hjson' : (context m i c).voice.json = true := hjson
    have hstdout : (run m words).stdout = "" := by
      rw [stdout_of_configured h hload, (hterse c).fails f hfailure]
      rfl
    refine ⟨?_, f.exitStatus_ne_zero, hstdout, _, ?_, holdsObject_jsonLine _⟩
    · simp only [run_of_configured h hload, finish, hfailure]
      rfl
    · simp only [run_of_configured h hload, finish, hfailure, messages_append,
        messages_preamble hquiet, (hterse c).unsaid, messages_say, Voice.error_of_json hjson',
        List.nil_append]
      rfl

/-- For a program that asks for artifacts or for a validation, and not for more words, all that goes
wrong once the configuration is loaded is told in one object, and so is every success; what is wrong
with the configuration is told in a line that holds none. -/
theorem run_answers (m : Machine) (words : List String) (h : Invocation.read m.vars words = .ok i)
    (hjson : i.globals.json = true) (hquiet : i.globals.verbosity = 0)
    (hrequest : (∃ a, i.request = .generate a) ∨ ∃ a print, i.request = .validate a print) :
    Answers m words i := by
  apply answers_of_terse h hjson hquiet
  intro c
  have hjson' : (context m i c).voice.json = true := hjson
  rcases hrequest with ⟨a, hrequest⟩ | ⟨a, print, hrequest⟩
  · rw [hrequest]
    exact Context.generate_terse hjson' a
  · rw [hrequest]
    exact Context.validate_terse hjson' a print

/-- A runbook with one host and one step. -/
def ping : String :=
  "\x7b\"name\":\"ping\",\"hosts\":[\x7b\"addr\":\"web\"\x7d]," ++
    "\"steps\":[\x7b\"name\":\"ping\",\"command\":\"echo pong\"\x7d]\x7d"

/-- A machine with that runbook and no configuration files; a variable may speak of debugging. -/
def bench (debug : Option String) : Machine where
  disk := ⟨[(["ping.json"], .ofText ping)]⟩
  cwd := []
  vars name := if name = "RUNBOOK_DEBUG" then debug else none
  launch _ _ _ := ⟨"", .error .notSupported⟩

/-- The words by which a program has that runbook validated. -/
def asking : List String :=
  ["validate", "ping.json", "--format", "json"]

def asked : Invocation :=
  ⟨{ json := true }, .validate { runbook := "ping.json" } false⟩

theorem run_answers_bench :
    Invocation.read (bench none).vars asking = .ok asked ∧
    asked.globals.json = true ∧ asked.globals.verbosity = 0 ∧
    (run (bench none) asking).status = 0 ∧
    ∃ members, HoldsObject (run (bench none) asking).stdout members := by
  have hread : Invocation.read (bench none).vars asking = .ok asked :=
    eq_ok_of_toOption (by decide +kernel)
  have hload : Config.load (bench none).disk (bench none).cwd (bench none).vars none = .ok {} :=
    eq_ok_of_toOption (by decide +kernel)
  have hfailure : ((context (bench none) asked {}).perform asked.request).failure = none := by
    decide +kernel
  have hanswers := run_answers (bench none) asking hread rfl rfl (.inr ⟨_, _, rfl⟩)
  obtain ⟨hstatus, hobject, -⟩ := hanswers.succeeds {} hload hfailure
  exact ⟨hread, rfl, rfl, hstatus, hobject⟩

/-- A variable that says nothing of use is told of in plain words, though a program asks. -/
theorem misconfiguration_told_in_words :
    let told := "ERROR: " ++
      "Invalid configuration value for 'RUNBOOK_DEBUG': expected a boolean, got 'maybe'\n"
    Invocation.read (bench (some "maybe")).vars asking = .ok asked ∧
    (run (bench (some "maybe")) asking).status = 1 ∧
    messages (run (bench (some "maybe")) asking).events = [told] ∧
    ∀ members, ¬HoldsObject told members := by
  have hread : Invocation.read (bench (some "maybe")).vars asking = .ok asked :=
    eq_ok_of_toOption (by decide +kernel)
  exact ⟨hread, by decide +kernel, by decide +kernel, holdsObject_not_plain _⟩

end Session

end Runbooks
