import Runbooks.Proofs.Playbook.Debugging
import Runbooks.Proofs.Session.Pipeline

namespace Runbooks

open CommandLine (CompileArgs)

namespace Context

variable {x : Context} {a : CompileArgs} {r : Runbook} {delivery : Delivery} {d : Disk}

/-- What the artifacts, the report and the call of a run have of debugging. -/
structure Agrees (x : Context) (a : CompileArgs) (executable : Option String)
    (extraArgs : List String) : Prop where
  playbook : ∀ r delivery d, x.Arrives a r delivery d →
    d.read x.machine.cwd delivery.playbookPath = .ok (Play.write [(x.compile a r).playbook]) ∧
      (x.compile a r).playbook.Carries (x.debugs a r)
  report : ∀ r delivery d, x.Arrives a r delivery d → ∃ line later,
    prints (x.outcome a executable extraArgs).events = line :: later ∧
      (x.voice.json = true → HoldsObject line [("debug", .bool (x.debugs a r)),
        ("inventory", .string delivery.inventoryPath), ("output_dir", .string delivery.outputDir),
        ("playbook", .string delivery.playbookPath), ("type", .string "generated")]) ∧
      (x.voice.json = false → line =
        x.voice.paint "32" ("Generated inventory and playbook in " ++ delivery.outputDir) ++ "\n")
  calls : ∀ program arguments,
    (program, arguments) ∈ launches (x.outcome a executable extraArgs).events →
      ∃ r delivery, x.Arrives a r delivery (x.outcome a executable extraArgs).disk ∧
        arguments = (if x.debugs a r then x.config.talk else []) ++
          ["-i", delivery.inventoryPath, delivery.playbookPath] ++ x.config.extraArgs ++ extraArgs
  started : ∀ r delivery d program status, x.Arrives a r delivery d →
    x.program? executable extraArgs d = some program →
    (x.called a executable extraArgs r delivery d program).ending = .ok status →
      launches (x.outcome a executable extraArgs).events = [(program,
        (if x.debugs a r then x.config.talk else []) ++
          ["-i", delivery.inventoryPath, delivery.playbookPath] ++ x.config.extraArgs ++ extraArgs)]
  brief : x.config.talk.length ≤ 1

theorem debug_compile (x : Context) (a : CompileArgs) (r : Runbook) :
    (x.compile a r).debug = x.debugs a r :=
  rfl

theorem carries_compile (x : Context) (a : CompileArgs) (r : Runbook) :
    (x.compile a r).playbook.Carries (x.debugs a r) :=
  Artifacts.compile_carries _ r _

theorem prints_handing (x : Context) (a : CompileArgs) (r : Runbook) (delivery : Delivery) :
    prints (x.handing a r delivery) = prints (x.voice.generated delivery (x.debugs a r)) := by
  simp only [handing, prints_append, prints_say, List.nil_append, List.append_nil, debug_compile]

theorem handing_prefix_run (executable : Option String) (extraArgs : List String)
    (arrives : x.Arrives a r delivery d) : x.preparing a r ++ x.handing a r delivery <+:
      (x.run a executable extraArgs).events := by
  cases found : x.program? executable extraArgs d with
  | none =>
    rw [run_of_missing arrives found]
    exact List.prefix_append _ _
  | some program =>
    rw [run_of_found arrives found]
    have hrunning : ∀ events, x.preparing a r ++ x.handing a r delivery <+:
        x.preparing a r ++ x.handing a r delivery ++
          x.say (Log.running program (x.arguments a executable extraArgs r delivery)) ++ events :=
      fun events => (List.prefix_append _ _).trans (List.prefix_append _ events)
    unfold concluding
    generalize x.called a executable extraArgs r delivery d program = l
    rcases l.ending with s | status
    · exact List.prefix_append _ _
    · by_cases hstatus : status = some 0
      · simp only [if_pos hstatus]
        exact (hrunning _).trans (List.prefix_append _ _)
      · simp only [if_neg hstatus]
        exact hrunning _

theorem prints_outcome_of_arrives (executable : Option String) (extraArgs : List String)
    (arrives : x.Arrives a r delivery d) : ∃ later,
      prints (x.outcome a executable extraArgs).events =
        prints (x.voice.generated delivery (x.debugs a r)) ++ later := by
  obtain ⟨after, hafter⟩ := handing_prefix_run executable extraArgs arrives
  have hrun : x.perform (.run a executable extraArgs) = x.run a executable extraArgs := rfl
  refine ⟨prints after, ?_⟩
  rw [outcome, prints_finish, hrun, ← hafter, prints_append, prints_append, prints_preparing,
    List.nil_append, prints_handing]

/-- All that a run makes, tells and calls goes by one answer to the question whether it debugs. -/
theorem run_agrees (x : Context) (a : CompileArgs) (executable : Option String)
    (extraArgs : List String) : x.Agrees a executable extraArgs where
  playbook r delivery d arrives := ⟨arrives.inPlace.playbook, carries_compile x a r⟩
  report r delivery d arrives := by
    obtain ⟨later, hprints⟩ := prints_outcome_of_arrives executable extraArgs arrives
    cases hjson : x.voice.json with
    | true =>
      rw [Voice.generated_of_json hjson] at hprints
      exact ⟨_, later, hprints, fun _ => holdsObject_jsonLine _, nofun⟩
    | false =>
      refine ⟨_, later, ?_, nofun, fun _ => rfl⟩
      rw [hprints, Voice.generated, hjson]
      rfl
  calls program arguments hcall := by
    obtain ⟨r, delivery, harrives, harguments⟩ := arrives_of_mem_launches hcall
    exact ⟨r, delivery, harrives, harguments.trans (arguments_eq x a executable extraArgs r _)⟩
  started r delivery d program status arrives found ending := by
    have htrace := congrArg Prod.fst (trace_of_ended arrives found ending)
    rw [arguments_eq] at htrace
    exact htrace
  brief := by
    unfold Config.talk
    split
    · exact Nat.le_refl 1
    · exact Nat.zero_le 1

/-- With debugging the engine is called to be talkative, but no task keeps a result, and people are
told the same as without. -/
theorem debugging_unseen_in_report :
    let engine : Option String := some "bin/ansible-playbook"
    let asked : CompileArgs := { runbook := "greet.json", debug := true }
    let unasked : CompileArgs := { runbook := "greet.json" }
    let call : List String := ["-i", "./generated/hosts", "./generated/playbook.yml"]
    launches (greeter.outcome asked engine []).events =
      [("/bin/ansible-playbook", "-vv" :: call)] ∧
    launches (greeter.outcome unasked engine []).events = [("/bin/ansible-playbook", call)] ∧
    ((greeter.load "greet.json").toOption.map fun r =>
      (greeter.debugs asked r, (greeter.compile asked r).playbook.tasks.map Task.register)) =
        some (true, [none]) ∧
    (greeter.outcome asked engine []).stdout = (greeter.outcome unasked engine []).stdout := by
  decide +kernel

end Context

end Runbooks
