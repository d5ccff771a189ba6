import Runbooks.Proofs.Inventory.Meaning
import Runbooks.Proofs.Session.Answers

namespace Runbooks

open CommandLine (CompileArgs Invocation eq_ok_of_toOption)

/-- Some host is the local machine, and it is connected to nevertheless. -/
def Runbook.OverSsh (mode : InventoryMode) (r : Runbook) : Prop :=
  mode = .uniform ∧ ∃ h ∈ r.hosts, h.address = "localhost"

theorem HostLine.connects_to_localhost_iff (mode : InventoryMode) (h : Host) (env : Environment) :
    (ofHost mode h env).address = "localhost" ∧
        (ofHost mode h env).get? connectionVar ≠ some "local" ↔
      mode = .uniform ∧ h.address = "localhost" := by
  have hline := ofHost_describes mode h env
  rw [hline.address]
  by_cases hlocal : mode.IsLocal h
  · have hfirst : (ofHost mode h env).get? connectionVar = some "local" := by
      rw [get?, hline.local_vars hlocal, localVars, List.lookup_cons_self]
    constructor
    · rintro ⟨-, hconnects⟩
      exact absurd hfirst hconnects
    · rintro ⟨hmode, -⟩
      cases hlocal.1.symm.trans hmode
  · have hsilent := hline.remote_silent hlocal
    have hmode : h.address = "localhost" → mode = .uniform := by
      intro haddress
      cases mode with
      | uniform => rfl
      | addressAware => exact absurd ⟨rfl, haddress⟩ hlocal
    rw [hsilent]
    constructor
    · rintro ⟨haddress, -⟩
      exact ⟨hmode haddress, haddress⟩
    · rintro ⟨-, haddress⟩
      exact ⟨haddress, (Option.some_ne_none _).symm⟩

theorem Inventory.exists_line_iff_overSsh (mode : InventoryMode) (r : Runbook) (debug : Bool) :
    (∃ l ∈ (Artifacts.compile mode r debug).inventory.hosts,
        l.address = "localhost" ∧ l.get? HostLine.connectionVar ≠ some "local") ↔
      r.OverSsh mode := by
  constructor
  · rintro ⟨l, hl, hconnects⟩
    obtain ⟨h, hh, rfl⟩ := List.mem_map.mp hl
    obtain ⟨hmode, haddress⟩ := (HostLine.connects_to_localhost_iff mode h _).mp hconnects
    exact ⟨hmode, h, hh, haddress⟩
  · rintro ⟨hmode, h, hh, haddress⟩
    refine ⟨_, List.mem_map_of_mem hh, ?_⟩
    exact (HostLine.connects_to_localhost_iff mode h _).mpr ⟨hmode, haddress⟩

section Voices

variable {v : Voice} {r : Runbook} {mode : InventoryMode}

/-- A warning as a line: an object for programs, plain words for people. -/
def Voice.warningLine (v : Voice) (message : String) : String :=
  if v.json then jsonLine (.object [("message", .string message), ("type", .string "warning")])
  else v.paint "1;33" "WARNING:" ++ " " ++ message ++ "\n"

theorem Voice.messages_warning (v : Voice) (message : String) :
    messages (v.warning message) = [v.warningLine message] := by
  unfold warning diagnostic warningLine
  split <;> rfl

theorem Voice.messages_human_out (v : Voice) (text : String) :
    messages (v.human [.out text]) = [] := by
  unfold human
  split <;> rfl

theorem Voice.messages_info (v : Voice) (message : String) : messages (v.info message) = [] := by
  unfold info
  split
  · rfl
  · exact messages_human_out v _

namespace Context

theorem reachesLocalhost_iff : reachesLocalhost r mode = true ↔ r.OverSsh mode := by
  simp only [reachesLocalhost, Host.isLocalhost, Runbook.OverSsh, Bool.and_eq_true,
    List.any_eq_true, decide_eq_true_eq]
  exact and_comm

theorem messages_report (v : Voice) (r : Runbook) (mode : InventoryMode)
    (texts : Option Rendered) :
    messages (report v r mode texts) =
      if reachesLocalhost r mode then messages (v.warning sshWarning) else [] := by
  have htitle (title : String) : messages (v.sectionTitle title) = [] :=
    v.messages_human_out _
  have hlist (title : String) (items : List String) : messages (v.list title items) = [] :=
    v.messages_human_out _
  have hvalid : messages (v.valid r.name) = [] := v.messages_human_out _
  have hraw (text : String) : messages (Voice.raw text) = [] := rfl
  have hwarning : messages (if reachesLocalhost r mode then v.warning sshWarning else []) =
      if reachesLocalhost r mode then messages (v.warning sshWarning) else [] := by
    split <;> rfl
  unfold report
  cases texts <;> cases r.description <;>
    simp only [messages_append, htitle, hlist, hvalid, hraw, hwarning, v.messages_info,
      List.nil_append, List.append_nil]

end Context

end Voices

namespace Session

variable {m : Machine} {words : List String} {i : Invocation} {a : CompileArgs} {print : Bool}
  {c : Config} {r : Runbook}

/-- The warning about the local machine, in the form that the session is asked for. -/
def sshLine (m : Machine) (i : Invocation) (c : Config) : String :=
  (context m i c).voice.warningLine Context.sshWarning

/-- What a session that validates the runbook `r` tells the operator, behind what it begins with. -/
structure Warns (m : Machine) (words : List String) (i : Invocation) (a : CompileArgs) (c : Config)
    (r : Runbook) : Prop where
  programs : i.globals.json = true →
    messages (run m words).events = messages (preamble m i c)
  overSsh : i.globals.json = false → r.OverSsh (a.modeIn c) →
    messages (run m words).events = messages (preamble m i c) ++ [sshLine m i c]
  otherwise : i.globals.json = false → ¬r.OverSsh (a.modeIn c) →
    messages (run m words).events = messages (preamble m i c)
  warned : sshLine m i c ∈ messages (run m words).events ↔
    i.globals.json = false ∧ r.OverSsh (a.modeIn c)
  inventory : r.OverSsh (a.modeIn c) ↔ ∃ l ∈ ((context m i c).compile a r).inventory.hosts,
    l.address = "localhost" ∧ l.get? HostLine.connectionVar ≠ some "local"

theorem head?_of_mem_preamble {s : String} (h : s ∈ messages (preamble m i c)) :
    s.toList.head? = some 'i' ∨ s.toList.head? = some 'r' := by
  rw [preamble, messages_append, List.mem_append] at h
  rcases h with hnotice | hversion
  · rw [messages, List.filterMap_map] at hnotice
    obtain ⟨directive, -, heq⟩ := List.mem_filterMap.mp hnotice
    apply Or.inl
    rw [← Option.some.inj heq]
    simp [Log.passedOver]
  · split at hversion
    · apply Or.inr
      rw [List.mem_singleton.mp hversion]
      decide
    · cases hversion

theorem warningLine_not_mem_preamble (v : Voice) (message : String) :
    v.warningLine message ∉ messages (preamble m i c) := by
  have hfirst : (v.warningLine message).toList.head? ≠ some 'i' ∧
      (v.warningLine message).toList.head? ≠ some 'r' := by
    unfold Voice.warningLine Voice.paint
    split
    · simp [Voice.jsonLine, Json.text, Json.render]
    · split <;> simp [Log.styled]
  intro hmem
  rcases head?_of_mem_preamble hmem with hi | hr
  · exact hfirst.1 hi
  · exact hfirst.2 hr

theorem messages_validating (m : Machine) (i : Invocation) (c : Config) (a : CompileArgs)
    (print : Bool) (r : Runbook) :
    messages ((context m i c).validating a print r) =
      if i.globals.json = false ∧ Context.reachesLocalhost r (a.modeIn c) = true then
        [sshLine m i c]
      else [] := by
  have hvoice : (context m i c).voice.json = i.globals.json := rfl
  have hmode : (context m i c).config = c := rfl
  rw [Context.validating, hvoice, hmode]
  cases hjson : i.globals.json with
  | true =>
    have hresult := Voice.result_of_json (hvoice.trans hjson)
    simp only [if_true, hresult]
    rfl
  | false =>
    simp only [Bool.false_eq_true, if_false, Context.messages_report, Voice.messages_warning,
      true_and]
    rfl

theorem exists_loaded_of_status (h : Invocation.read m.vars words = .ok i)
    (hrequest : i.request = .validate a print) (hstatus : (run m words).status = 0) :
    ∃ c r, Config.load m.disk m.cwd m.vars i.globals.config m.home = .ok c ∧
      (context m i c).load a.runbook = .ok r := by
  cases hload : Config.load m.disk m.cwd m.vars i.globals.config m.home with
  | error f =>
    rw [run_of_misconfigured h hload] at hstatus
    exact absurd hstatus f.exitStatus_ne_zero
  | ok c =>
    cases loads : (context m i c).load a.runbook with
    | error f =>
      have hvalidate := Context.validate_of_unloaded print loads
      simp only [run_of_configured h hload, hrequest, Context.perform, hvalidate, finish] at hstatus
      exact absurd hstatus f.exitStatus_ne_zero
    | ok r => exact ⟨c, r, rfl, loads⟩

theorem warns_of_loaded (h : Invocation.read m.vars words = .ok i)
    (hrequest : i.request = .validate a print)
    (hload : Config.load m.disk m.cwd m.vars i.globals.config m.home = .ok c)
    (loads : (context m i c).load a.runbook = .ok r) : Warns m words i a c r := by
  have htold : messages (run m words).events = messages (preamble m i c) ++
      if i.globals.json = false ∧ Context.reachesLocalhost r (a.modeIn c) = true then
        [sshLine m i c]
      else [] := by
    have hvalidate := Context.validate_of_loaded print loads
    simp only [run_of_configured h hload, hrequest, Context.perform, hvalidate, finish,
      messages_append, Context.messages_preparing, List.nil_append, messages_validating]
  have hreaches : Context.reachesLocalhost r (a.modeIn c) = true ↔ r.OverSsh (a.modeIn c) :=
    Context.reachesLocalhost_iff
  have hprograms : i.globals.json = true →
      messages (run m words).events = messages (preamble m i c) := by
    intro hjson
    rw [htold, if_neg fun hboth => Bool.noConfusion (hjson.symm.trans hboth.1), List.append_nil]
  have hoverSsh : i.globals.json = false → r.OverSsh (a.modeIn c) →
      messages (run m words).events = messages (preamble m i c) ++ [sshLine m i c] := by
    intro hjson hssh
    rw [htold, if_pos ⟨hjson, hreaches.mpr hssh⟩]
  have hotherwise : i.globals.json = false → ¬r.OverSsh (a.modeIn c) →
      messages (run m words).events = messages (preamble m i c) := by
    intro hjson hssh
    rw [htold, if_neg fun hboth => hssh (hreaches.mp hboth.2), List.append_nil]
  refine ⟨hprograms, hoverSsh, hotherwise, ⟨fun hmem => ?_, fun hboth => ?_⟩, ?_⟩
  · have hnew : sshLine m i c ∉ messages (preamble m i c) := warningLine_not_mem_preamble _ _
    cases hjson : i.globals.json with
    | true =>
      rw [hprograms hjson] at hmem
      exact absurd hmem hnew
    | false =>
      refine ⟨rfl, ?_⟩
      by_contra hssh
      rw [hotherwise hjson hssh] at hmem
      exact hnew hmem
  · rw [hoverSsh hboth.1 hboth.2]
    exact List.mem_append_right _ List.mem_cons_self
  · exact (Inventory.exists_line_iff_overSsh _ r _).symm

/-- Whoever validates a runbook with success is warned in one line that the local machine will be
reached over SSH exactly if it is people who ask, the mode is uniform and `localhost` is a host, which
is to say that it has a line in the inventory without a local connection. No program is warned. -/
theorem validation_warns (m : Machine) (words : List String) (i : Invocation) (a : CompileArgs)
    (print : Bool) (h : Invocation.read m.vars words = .ok i)
    (hrequest : i.request = .validate a print) (hstatus : (run m words).status = 0) :
    ∃ c r, Config.load m.disk m.cwd m.vars i.globals.config m.home = .ok c ∧
      (context m i c).load a.runbook = .ok r ∧ Warns m words i a c r := by
  obtain ⟨c, r, hload, loads⟩ := exists_loaded_of_status h hrequest hstatus
  exact ⟨c, r, hload, loads, warns_of_loaded h hrequest hload loads⟩

def alone : String :=
  "\x7b\"name\":\"local\",\"hosts\":[\x7b\"addr\":\"localhost\"\x7d]," ++
    "\"steps\":[\x7b\"name\":\"ping\",\"command\":\"echo pong\"\x7d]\x7d"

def desk : Machine where
  disk := ⟨[(["local.json"], .ofText alone)]⟩
  cwd := []
  vars _ := none
  launch _ _ _ := ⟨"", .error .notSupported⟩

/-- The words that ask for it to be validated where addresses do not count. -/
def uniformly : List String :=
  ["validate", "local.json", "--inventory-mode", "uniform"]

def asksUniformly (json : Bool) : Invocation :=
  ⟨{ json }, .validate { runbook := "local.json", mode := some .uniform } false⟩

theorem exists_load_desk (json : Bool) :
    ∃ r, (context desk (asksUniformly json) {}).load "local.json" = .ok r ∧ r.OverSsh .uniform := by
  have hhosts : (Runbook.load desk.disk desk.cwd "local.json").toOption.map
      (fun r => r.hosts.map Host.address) = some ["localhost"] := by decide +kernel
  obtain ⟨r, hr, haddresses⟩ := Option.map_eq_some_iff.mp hhosts
  have hmem : "localhost" ∈ r.hosts.map Host.address := haddresses ▸ List.mem_cons_self
  obtain ⟨h, hh, haddress⟩ := List.mem_map.mp hmem
  exact ⟨r, eq_ok_of_toOption hr, rfl, h, hh, haddress⟩

theorem validation_warns_desk :
    let line := "WARNING: localhost will be reached over SSH in uniform inventory mode\n"
    Invocation.read desk.vars uniformly = .ok (asksUniformly false) ∧
    (run desk uniformly).status = 0 ∧
    messages (run desk uniformly).events =
      messages (preamble desk (asksUniformly false) {}) ++ [line] := by
  intro line
  have hread : Invocation.read desk.vars uniformly = .ok (asksUniformly false) :=
    eq_ok_of_toOption (by decide +kernel)
  have hload : Config.load desk.disk desk.cwd desk.vars none = .ok {} :=
    eq_ok_of_toOption (by decide +kernel)
  have hstatus : (run desk uniformly).status = 0 := by decide +kernel
  obtain ⟨c, r, hc, hr, hwarns⟩ := validation_warns desk uniformly _ _ _ hread rfl hstatus
  obtain rfl := Except.ok.inj (hload.symm.trans hc)
  obtain ⟨r', hr', hssh⟩ := exists_load_desk false
  obtain rfl := Except.ok.inj (hr'.symm.trans hr)
  exact ⟨hread, hstatus, hwarns.overSsh rfl hssh⟩

/-- A program that has the same runbook validated is told nothing of it. -/
theorem localhost_unmentioned_to_programs :
    let words := uniformly ++ ["--format", "json"]
    Invocation.read desk.vars words = .ok (asksUniformly true) ∧
    (run desk words).status = 0 ∧
    (∃ r, (context desk (asksUniformly true) {}).load "local.json" = .ok r ∧ r.OverSsh .uniform) ∧
    ∀ v : Voice, v.warningLine Context.sshWarning ∉ messages (run desk words).events := by
  intro words
  have hread : Invocation.read desk.vars words = .ok (asksUniformly true) :=
    eq_ok_of_toOption (by decide +kernel)
  have hload : Config.load desk.disk desk.cwd desk.vars none = .ok {} :=
    eq_ok_of_toOption (by decide +kernel)
  obtain ⟨r, hr, hssh⟩ := exists_load_desk true
  refine ⟨hread, by decide +kernel, ⟨r, hr, hssh⟩, fun v => ?_⟩
  rw [(warns_of_loaded hread rfl hload hr).programs rfl]
  exact warningLine_not_mem_preamble v _

end Session

end Runbooks
