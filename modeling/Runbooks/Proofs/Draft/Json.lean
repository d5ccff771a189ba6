import Runbooks.Draft.Json
import Runbooks.Proofs.Document.Json
import Runbooks.Proofs.Document.Members
import Runbooks.Proofs.Draft.Acceptance
import Runbooks.Source

namespace Runbooks

open Record (Reads reads_text reads_flag)

namespace Environment

/-- The settings by the names under which they are written. -/
def fields (e : Environment) : List (String × Option Json) :=
  [("user", e.user.map .string), ("ssh_key", e.sshKey.map .string),
    ("python", e.python.map .string), ("become", e.become.map .bool)]

theorem json_eq_present (e : Environment) : e.json = .object (Json.present e.fields) := by
  obtain ⟨user, sshKey, python, become⟩ := e
  cases user <;> cases sshKey <;> cases python <;> cases become <;> rfl

theorem reads_json : Reads ofTree? json where
  present h := h.object_present
  value {t e} h := by
    rw [json_eq_present] at h
    have hnames := Json.names_present_sublist e.fields
    have hnodup : (e.fields.map Prod.fst).Nodup := by
      change ["user", "ssh_key", "python", "become"].Nodup
      decide
    have hknown : ∀ name ∈ e.fields.map Prod.fst, schema.canonical? name = some name := by
      change ∀ name ∈ ["user", "ssh_key", "python", "become"], schema.canonical? name = some name
      decide
    obtain ⟨r, hr, hholds⟩ := Record.exists_holds h (fun name hname =>
      hknown name (hnames.subset hname)) (hnames.nodup hnodup)
    have hmember {name : String} {o : Option Json} (hmem : (name, o) ∈ e.fields) :
        (Json.present e.fields).lookup name = o := Json.lookup_present hnodup hmem
    have huser := hholds.optional?_leftOut "user" reads_text (hmember (.head _))
    have hsshKey := hholds.optional?_leftOut "ssh_key" reads_text (hmember (.tail _ (.head _)))
    have hpython := hholds.optional?_leftOut "python" reads_text
      (hmember (.tail _ (.tail _ (.head _))))
    have hbecome := hholds.optional?_leftOut "become" reads_flag
      (hmember (.tail _ (.tail _ (.tail _ (.head _)))))
    simp only [ofTree?, hr, huser, hsshKey, hpython, hbecome, Option.bind_eq_bind, Option.bind_some]
    rfl

end Environment

theorem HostDraft.reads_json : Reads ofTree? json where
  present h := h.object_present
  value {t d} h := by
    obtain ⟨r, hr, hholds⟩ := Record.exists_holds_of_names schema h rfl (by decide) (by decide)
    have haddress := hholds.optional?_null "addr" reads_text rfl
    have henvironment := hholds.optional?_null "env" Environment.reads_json rfl
    simp only [ofTree?, hr, haddress, henvironment, Option.bind_eq_bind, Option.bind_some]
    rfl

theorem StepDraft.reads_json : Reads ofTree? json where
  present h := h.object_present
  value {t d} h := by
    obtain ⟨r, hr, hholds⟩ := Record.exists_holds_of_names schema h rfl (by decide) (by decide)
    have hname := hholds.optional?_null "name" reads_text rfl
    have hcommand := hholds.optional?_null "command" reads_text rfl
    have hbecome := hholds.optional?_null "become" reads_flag rfl
    have hstdin := hholds.optional?_null "stdin" reads_text rfl
    have hmessage := hholds.optional?_null "msg" reads_text rfl
    have hloop := hholds.optional?_null "loop" reads_text rfl
    simp only [ofTree?, hr, hname, hcommand, hbecome, hstdin, hmessage, hloop, Option.bind_eq_bind,
      Option.bind_some]
    rfl

namespace Draft

theorem reads_json : Reads ofTree? json where
  present h := h.object_present
  value {t d} h := by
    obtain ⟨r, hr, hholds⟩ := Record.exists_holds_of_names schema h rfl (by decide) (by decide)
    have hname := hholds.optional?_null "name" reads_text rfl
    have hdescription := hholds.optional?_null "description" reads_text rfl
    have hdebug := hholds.optional?_null "debug" reads_flag rfl
    have henvironment : r.withDefault? Environment.ofTree? {} "env" = some d.environment := by
      obtain ⟨u, hu, hsays⟩ := hholds.shows "env" _ rfl
      simp only [Record.withDefault?, hu, Environment.reads_json.value hsays]
    have hhosts := hholds.withDefault?_array "hosts" HostDraft.reads_json [] rfl
    have hsteps := hholds.withDefault?_array "steps" StepDraft.reads_json [] rfl
    simp only [ofTree?, hr, hname, hdescription, hdebug, henvironment, hhosts, hsteps,
      Option.bind_eq_bind, Option.bind_some]
    rfl

theorem parse_json_text (d : Draft) : parse (some .json) d.json.text = .ok d := by
  have hread : (Json.readTree? d.json.text).bind ofTree? = some d := by
    rw [Json.readTree?_text, Option.bind_some]
    exact reads_json.value d.json.says_tree
  change ofText? .json d.json.text = .ok d
  simp only [ofText?, Notation.readTree?, Option.bind_eq_bind, hread]

theorem runbook_parse_of_parse {format : SourceFormat} {source : String} {d : Draft}
    (h : parse format source = .ok d) (origin : String) :
    Runbook.parse format origin source = d.runbook? := by
  simp only [Runbook.parse, h]

theorem isStructural_of_runbook? {d : Draft} {f : Failure} (h : d.runbook? = .error f) :
    f.isStructural = true := by
  have hends := d.ends_objection?
  cases hobjection : d.objection? with
  | some g =>
    rw [hobjection] at hends
    obtain rfl := Except.error.inj (h.symm.trans hends)
    exact isStructural_of_objection? hobjection
  | none =>
    rw [hobjection] at hends
    obtain ⟨r, hr, -⟩ := hends
    cases h.symm.trans hr

/-- Every draft is read back from its JSON text, so that different drafts have different texts; and a
source of any notation comes to the same runbook as the JSON text of its draft, or fails in the same
way because the draft is at fault. -/
theorem json_text_keeps_draft :
    (∀ d : Draft, parse (some .json) d.json.text = .ok d) ∧
    (∀ d d' : Draft, d.json.text = d'.json.text → d = d') ∧
    ∀ (format : SourceFormat) (source : String) (d : Draft), parse format source = .ok d →
      ∀ origin origin' : String,
        Runbook.parse (some .json) origin' d.json.text = Runbook.parse format origin source ∧
        ∀ f, Runbook.parse format origin source = .error f → f.isStructural = true := by
  refine ⟨parse_json_text, ?_, ?_⟩
  · intro d d' htext
    have hd := parse_json_text d
    rw [htext, parse_json_text d'] at hd
    exact (Except.ok.inj hd).symm
  · intro format source d h origin origin'
    have hsource := runbook_parse_of_parse h origin
    have hjson := runbook_parse_of_parse (parse_json_text d) origin'
    refine ⟨hjson.trans hsource.symm, fun f hf => ?_⟩
    exact isStructural_of_runbook? (hsource.symm.trans hf)

/-- A host with an empty environment before one without any, and a step that does nothing. -/
theorem json_text_keeps_draft_toml :
    let source := "name=\"a\"\n[[hosts]]\naddress=\"web\"\nenv=\x7b\x7d\n[[hosts]]\naddr=\"db\"\n" ++
      "[[steps]]\nname=\"s\"\n"
    let d : Draft := { name := some "a"
                       hosts := [{ address := some "web", environment := some {} },
                         { address := some "db" }]
                       steps := [{ name := some "s" }] }
    parse (some .toml) source = .ok d ∧
      Runbook.parse (some .toml) "a.toml" source = .error (.idleStep 1 "s") ∧
      Runbook.parse (some .json) "a.json" d.json.text =
        Runbook.parse (some .toml) "a.toml" source := by
  intro source d
  have hparse : parse (some .toml) source = .ok d := by decide +kernel
  have hfails : Runbook.parse (some .toml) "a.toml" source = .error (.idleStep 1 "s") := by
    rw [runbook_parse_of_parse hparse]
    rfl
  exact ⟨hparse, hfails, (json_text_keeps_draft.2.2 _ _ _ hparse "a.toml" "a.json").1⟩

end Draft

end Runbooks
