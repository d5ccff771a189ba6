import Runbooks.Proofs.Config.Precedence
import Runbooks.Proofs.Document.Json
import Runbooks.Proofs.Document.Records

/-!
Layers and whole configurations. They are read from documents by two readers, and both know the
same keys in the same places: a layer with all keys of a configuration leaves nothing of what it is
merged into, and what is read as a whole configuration is the layer over the defaults.
-/

namespace Runbooks.Config

/-- The layer that sets every key. -/
def layer (c : Config) : Layer where
  outputDir := some c.outputDir
  debug := some c.debug
  mode := some c.mode
  inventoryName := some c.inventoryName
  playbookName := some c.playbookName
  executable := some c.executable
  debugVerbosity := some c.debugVerbosity
  extraArgs := some c.extraArgs
  logLevel := some c.logLevel
  logFormat := some c.logFormat

@[simp] theorem inLayer?_layer (k : Key) (c : Config) :
    k.setting.inLayer? c.layer = some (k.setting.inConfig c) := by
  cases k <;> rfl

@[simp] theorem merge_layer (b c : Config) : b.merge c.layer = c := by
  apply eq_of_inConfig
  intro k
  rw [inConfig_merge, inLayer?_layer, Option.getD_some]

namespace Key

/-- What the value of a key is written as. -/
def written : (k : Key) → k.Value → Json
  | outputDir, s => .string s
  | debug, b => .bool b
  | mode, m => .string m.name
  | inventoryName, s => .string s
  | playbookName, s => .string s
  | executable, s => .string s
  | debugVerbosity, n => .number n.toNat
  | extraArgs, args => .texts args
  | logLevel, s => .string s
  | logFormat, f => .string f.name

/-- What a document that holds a whole configuration says of a key. -/
def inDocument? (k : Key) (t : Tree) : Option k.Value := do
  let r ← Record.ofTree? sections false t
  let s ← section? r k.setting.schema k.setting.group
  s.withDefault? k.setting.read? (k.setting.inConfig {}) k.setting.name

end Key

section Readers

variable {t : Tree} {c : Config} {l : Layer}

theorem inDocument?_of_ofTree? (h : ofTree? t = some c) (k : Key) :
    k.inDocument? t = some (k.setting.inConfig c) := by
  obtain ⟨r, hr, h⟩ := Option.bind_eq_some_iff.mp h
  obtain ⟨defaults, hdefaults, h⟩ := Option.bind_eq_some_iff.mp h
  obtain ⟨inventory, hinventory, h⟩ := Option.bind_eq_some_iff.mp h
  obtain ⟨playbook, hplaybook, h⟩ := Option.bind_eq_some_iff.mp h
  obtain ⟨execution, hexecution, h⟩ := Option.bind_eq_some_iff.mp h
  obtain ⟨logging, hlogging, h⟩ := Option.bind_eq_some_iff.mp h
  obtain ⟨outputDir, houtputDir, h⟩ := Option.bind_eq_some_iff.mp h
  obtain ⟨debug, hdebug, h⟩ := Option.bind_eq_some_iff.mp h
  obtain ⟨mode, hmode, h⟩ := Option.bind_eq_some_iff.mp h
  obtain ⟨inventoryName, hinventoryName, h⟩ := Option.bind_eq_some_iff.mp h
  obtain ⟨playbookName, hplaybookName, h⟩ := Option.bind_eq_some_iff.mp h
  obtain ⟨executable, hexecutable, h⟩ := Option.bind_eq_some_iff.mp h
  obtain ⟨debugVerbosity, hdebugVerbosity, h⟩ := Option.bind_eq_some_iff.mp h
  obtain ⟨extraArgs, hextraArgs, h⟩ := Option.bind_eq_some_iff.mp h
  obtain ⟨logLevel, hlogLevel, h⟩ := Option.bind_eq_some_iff.mp h
  obtain ⟨logFormat, hlogFormat, h⟩ := Option.bind_eq_some_iff.mp h
  obtain rfl := Option.some.inj h
  simp only [Key.inDocument?, hr, Option.bind_eq_bind, Option.bind_some]
  cases k <;> simp only [Key.setting, Option.bind_some, *]

theorem bind_of_eq_some {α β : Type} {o : Option α} {f : α → Option β} {a : α} {b : β}
    (ho : o = some a) (hf : f a = some b) : o.bind f = some b :=
  Option.bind_eq_some_iff.mpr ⟨a, ho, hf⟩

theorem layer_ofTree?_of_inTree? (h : ∀ k : Key, k.inTree? t = some (k.setting.inLayer? l)) :
    Layer.ofTree? t = some l := by
  obtain ⟨r, hr, -⟩ := Option.bind_eq_some_iff.mp (h .outputDir)
  simp only [Key.inTree?, hr, Option.bind_eq_bind, Option.bind_some] at h
  have hkey (k : Key) {s : Record}
      (hs : Layer.section? r k.setting.schema k.setting.group = some s) :
      s.optional? k.setting.read? k.setting.name = some (k.setting.inLayer? l) := by
    have hk := h k
    rw [hs] at hk
    exact hk
  obtain ⟨defaults, hdefaults, -⟩ := Option.bind_eq_some_iff.mp (h .outputDir)
  obtain ⟨inventory, hinventory, -⟩ := Option.bind_eq_some_iff.mp (h .mode)
  obtain ⟨playbook, hplaybook, -⟩ := Option.bind_eq_some_iff.mp (h .playbookName)
  obtain ⟨execution, hexecution, -⟩ := Option.bind_eq_some_iff.mp (h .executable)
  obtain ⟨logging, hlogging, -⟩ := Option.bind_eq_some_iff.mp (h .logLevel)
  exact bind_of_eq_some hr <|
    bind_of_eq_some hdefaults <|
    bind_of_eq_some hinventory <|
    bind_of_eq_some hplaybook <|
    bind_of_eq_some hexecution <|
    bind_of_eq_some hlogging <|
    bind_of_eq_some (hkey .outputDir hdefaults) <|
    bind_of_eq_some (hkey .debug hdefaults) <|
    bind_of_eq_some (hkey .mode hinventory) <|
    bind_of_eq_some (hkey .inventoryName hinventory) <|
    bind_of_eq_some (hkey .playbookName hplaybook) <|
    bind_of_eq_some (hkey .executable hexecution) <|
    bind_of_eq_some (hkey .debugVerbosity hexecution) <|
    bind_of_eq_some (hkey .extraArgs hexecution) <|
    bind_of_eq_some (hkey .logLevel hlogging) <|
    bind_of_eq_some (hkey .logFormat hlogging) rfl

theorem ofTree?_of_inDocument? (h : ∀ k : Key, k.inDocument? t = some (k.setting.inConfig c)) :
    ofTree? t = some c := by
  obtain ⟨r, hr, -⟩ := Option.bind_eq_some_iff.mp (h .outputDir)
  simp only [Key.inDocument?, hr, Option.bind_eq_bind, Option.bind_some] at h
  have hkey (k : Key) {s : Record}
      (hs : section? r k.setting.schema k.setting.group = some s) :
      s.withDefault? k.setting.read? (k.setting.inConfig {}) k.setting.name =
        some (k.setting.inConfig c) := by
    have hk := h k
    rw [hs] at hk
    exact hk
  obtain ⟨defaults, hdefaults, -⟩ := Option.bind_eq_some_iff.mp (h .outputDir)
  obtain ⟨inventory, hinventory, -⟩ := Option.bind_eq_some_iff.mp (h .mode)
  obtain ⟨playbook, hplaybook, -⟩ := Option.bind_eq_some_iff.mp (h .playbookName)
  obtain ⟨execution, hexecution, -⟩ := Option.bind_eq_some_iff.mp (h .executable)
  obtain ⟨logging, hlogging, -⟩ := Option.bind_eq_some_iff.mp (h .logLevel)
  exact bind_of_eq_some hr <|
    bind_of_eq_some hdefaults <|
    bind_of_eq_some hinventory <|
    bind_of_eq_some hplaybook <|
    bind_of_eq_some hexecution <|
    bind_of_eq_some hlogging <|
    bind_of_eq_some (hkey .outputDir hdefaults) <|
    bind_of_eq_some (hkey .debug hdefaults) <|
    bind_of_eq_some (hkey .mode hinventory) <|
    bind_of_eq_some (hkey .inventoryName hinventory) <|
    bind_of_eq_some (hkey .playbookName hplaybook) <|
    bind_of_eq_some (hkey .executable hexecution) <|
    bind_of_eq_some (hkey .debugVerbosity hexecution) <|
    bind_of_eq_some (hkey .extraArgs hexecution) <|
    bind_of_eq_some (hkey .logLevel hlogging) <|
    bind_of_eq_some (hkey .logFormat hlogging) rfl

end Readers

section Schemas

/-- The fields of a schema answer to their own names, and no two of them to one. -/
structure Distinct (schema : Schema) : Prop where
  known : ∀ name ∈ schema.map Field.name, schema.canonical? name = some name
  nodup : (schema.map Field.name).Nodup

theorem distinct_sections : Distinct sections :=
  ⟨by decide, by decide⟩

theorem Key.distinct_schema (k : Key) : Distinct k.setting.schema := by
  cases k <;> exact ⟨by decide, by decide⟩

theorem Distinct.exists_shows {schema : Schema} (h : Distinct schema) {t : Tree}
    {ms : List (String × Json)} (ht : t.Says (.object ms))
    (hnames : ms.map Prod.fst = schema.map Field.name) :
    ∃ r, (∀ complete, Record.ofTree? schema complete t = some r) ∧ r.Shows ms := by
  have hknown := h.known
  have hnodup := h.nodup
  rw [← hnames] at hknown hnodup
  obtain ⟨r, hr, -, hshows⟩ := Record.exists_shows ht hknown hnodup
  exact ⟨r, hr, hshows⟩

end Schemas

section Written

variable {t u : Tree} {c : Config}

theorem exists_fields (k : Key) (c : Config) : ∃ ms fields, c.json = .object ms ∧
    ms.map Prod.fst = sections.map Field.name ∧
    ms.lookup k.setting.group = some (.object fields) ∧
    fields.map Prod.fst = k.setting.schema.map Field.name ∧
    fields.lookup k.setting.name = some (k.written (k.setting.inConfig c)) := by
  cases k <;> exact ⟨_, _, rfl, rfl, rfl, rfl, rfl⟩

theorem Key.written_ne_null (k : Key) (v : k.Value) : k.written v ≠ .null := by
  intro h
  cases k <;> cases h

theorem Key.read?_of_said (k : Key) {v : k.Value} (h : u.Says (k.written v)) :
    k.setting.read? u = some v := by
  cases k with
  | outputDir | inventoryName | playbookName | executable | logLevel => exact h.text?_eq
  | debug => exact h.flag?_eq
  | mode =>
    change u.choice?.bind InventoryMode.named? = some v
    rw [h.choice?_eq]
    cases v <;> rfl
  | debugVerbosity => exact h.byte?_eq
  | extraArgs => exact h.texts?_eq
  | logFormat =>
    change u.choice?.bind LogFormat.named? = some v
    rw [h.choice?_eq]
    cases v <;> rfl

theorem inTree?_of_said (h : t.Says c.json) (k : Key) :
    k.inTree? t = some (some (k.setting.inConfig c)) ∧
      k.inDocument? t = some (k.setting.inConfig c) := by
  obtain ⟨ms, fields, hjson, hgroups, hgroup, hnames, hname⟩ := exists_fields k c
  rw [hjson] at h
  obtain ⟨r, hr, hshows⟩ := distinct_sections.exists_shows h hgroups
  obtain ⟨u, hu, hsection⟩ := hshows _ _ hgroup
  obtain ⟨s, hs, hshows⟩ := k.distinct_schema.exists_shows hsection hnames
  obtain ⟨w, hw, hvalue⟩ := hshows _ _ hname
  have hread := k.read?_of_said hvalue
  have hpresent := hvalue.present (k.written_ne_null _)
  have hlayer : Layer.section? r k.setting.schema k.setting.group = some s := by
    simp only [Layer.section?, Record.optional?, hu, Tree.optional?, hsection.object_present,
      hs true, Option.map_some, Option.getD_some]
  have hdocument : section? r k.setting.schema k.setting.group = some s := by
    simp only [section?, Record.withDefault?, hu, hs false]
  constructor
  · refine bind_of_eq_some (hr true) (bind_of_eq_some hlayer ?_)
    simp only [Record.optional?, hw, Tree.optional?, hpresent, hread, Option.map_some]
  · refine bind_of_eq_some (hr false) (bind_of_eq_some hdocument ?_)
    simp only [Record.withDefault?, hw, hread]

theorem layer_ofTree?_of_said (h : t.Says c.json) : Layer.ofTree? t = some c.layer := by
  apply layer_ofTree?_of_inTree?
  intro k
  rw [inLayer?_layer]
  exact (inTree?_of_said h k).1

theorem ofTree?_of_said (h : t.Says c.json) : ofTree? t = some c :=
  ofTree?_of_inDocument? fun k => (inTree?_of_said h k).2

theorem layer_ofText?_of_said {n : Notation} {source : String} (hread : n.readTree? source = some t)
    (h : t.Says c.json) : Layer.ofText? n source = some c.layer := by
  have hpresent : t.presence = .present := h.object_present
  refine bind_of_eq_some hread ?_
  split
  · simp only [Tree.optional?, hpresent, layer_ofTree?_of_said h, Option.map_some, Option.getD_some]
  · exact layer_ofTree?_of_said h

theorem json_reads_back (c : Config) : (Json.readTree? c.json.text).bind ofTree? = some c := by
  rw [Json.readTree?_text, Option.bind_some]
  exact ofTree?_of_said c.json.says_tree

end Written

section Agreement

variable {t u : Tree} {r s : Record} {c : Config} {l : Layer}

theorem Key.read?_of_unread (k : Key) (h : u.Unread) : k.setting.read? u = none := by
  cases k with
  | outputDir | inventoryName | playbookName | executable | logLevel => exact h.text
  | debug => exact h.flag
  | mode =>
    change u.choice?.bind InventoryMode.named? = none
    rw [h.choice, Option.bind_none]
  | debugVerbosity => exact h.byte
  | extraArgs =>
    change u.items?.bind (List.mapM Tree.text?) = none
    rw [h.items, Option.bind_none]
  | logFormat =>
    change u.choice?.bind LogFormat.named? = none
    rw [h.choice, Option.bind_none]

theorem section?_agree {schema : Schema} {name : String} (hdecided : ∀ e ∈ r.entries, e.2.Decided)
    {s' : Record} (hs : section? r schema name = some s)
    (hs' : Layer.section? r schema name = some s') :
    s = s' ∧ ∀ e ∈ s.entries, e.2.Decided := by
  have habsent : ∀ u, r.get? name = some u → u.presence ≠ .present →
      Record.ofTree? schema false u = none := fun u hu hpresence =>
    (Record.unread_of_get? hdecided hu hpresence).record schema false
  constructor
  · obtain ⟨o, ho, rfl⟩ := Option.map_eq_some_iff.mp hs'
    exact Record.withDefault?_eq_getD habsent Record.ofTree?_of_complete hs ho
  · unfold section? Record.withDefault? at hs
    split at hs
    · obtain rfl := Option.some.inj hs
      exact List.forall_mem_nil _
    · rename_i u hu
      exact Record.decided_of_mem_entries (hdecided _ (Record.mem_entries_of_get? hu)) hs

/-- Both readers say the same of a key, but that one of them puts the default for what is absent. -/
theorem inDocument?_eq_getD (hdecided : t.Decided) (k : Key) {a : k.Value} {o : Option k.Value}
    (ha : k.inDocument? t = some a) (ho : k.inTree? t = some o) :
    a = o.getD (k.setting.inConfig {}) := by
  obtain ⟨r, hr, ha⟩ := Option.bind_eq_some_iff.mp ha
  obtain ⟨r', hr', ho⟩ := Option.bind_eq_some_iff.mp ho
  obtain rfl : r = r' := by
    have h := Record.ofTree?_of_complete t r' hr'
    exact Option.some.inj (hr.symm.trans h)
  obtain ⟨s, hs, ha⟩ := Option.bind_eq_some_iff.mp ha
  obtain ⟨s', hs', ho⟩ := Option.bind_eq_some_iff.mp ho
  obtain ⟨rfl, hentries⟩ := section?_agree (Record.decided_of_mem_entries hdecided hr) hs hs'
  have habsent : ∀ u, s.get? k.setting.name = some u → u.presence ≠ .present →
      k.setting.read? u = none := fun u hu hpresence =>
    k.read?_of_unread (Record.unread_of_get? hentries hu hpresence)
  exact Record.withDefault?_eq_getD habsent (fun _ _ h => h) ha ho

theorem eq_merge_of_ofTree? (hdecided : t.Decided) (hc : ofTree? t = some c)
    (hl : Layer.ofTree? t = some l) : c = ({} : Config).merge l := by
  apply eq_of_inConfig
  intro k
  rw [inConfig_merge]
  exact inDocument?_eq_getD hdecided k (inDocument?_of_ofTree? hc k) (inTree?_of_ofTree? hl k)

end Agreement

/-- Layers and whole configurations agree. What a configuration is written as, as JSON or in a text
of any notation that says the same, is a layer that leaves nothing of what it is merged into; and
of a JSON text that both readers take, the configuration is the layer over the defaults. -/
theorem layers_agree_with_documents :
    (∀ c b : Config, ∃ l, Layer.ofText? .json c.json.text = some l ∧ b.merge l = c) ∧
      (∀ (c b : Config) (n : Notation) (source : String) (t : Tree),
        n.readTree? source = some t → t.Says c.json →
        ∃ l, Layer.ofText? n source = some l ∧ b.merge l = c) ∧
      ∀ (source : String) (c : Config) (l : Layer),
        (Json.readTree? source).bind ofTree? = some c → Layer.ofText? .json source = some l →
        c = ({} : Config).merge l := by
  have hwritten (c b : Config) (n : Notation) (source : String) (t : Tree)
      (hread : n.readTree? source = some t) (h : t.Says c.json) :
      ∃ l, Layer.ofText? n source = some l ∧ b.merge l = c :=
    ⟨c.layer, layer_ofText?_of_said hread h, merge_layer b c⟩
  refine ⟨fun c b => hwritten c b .json _ _ (Json.readTree?_text c.json) c.json.says_tree, hwritten, ?_⟩
  intro source c l hc hl
  obtain ⟨t, ht, hc⟩ := Option.bind_eq_some_iff.mp hc
  obtain ⟨t', ht', hl⟩ := Option.bind_eq_some_iff.mp hl
  obtain rfl : t = t' := Option.some.inj (ht.symm.trans ht')
  exact eq_merge_of_ofTree? (Json.decided_of_readTree? ht) hc hl

/-- A text that leaves out most keys, spells one as its default and has a field that neither knows. -/
theorem layers_agree_with_documents_partial :
    let source := "\x7b\"defaults\":\x7b\"debug\":false\x7d," ++
      "\"logging\":\x7b\"level\":\"debug\"\x7d,\"more\":null\x7d"
    (Json.readTree? source).bind ofTree? = some { logLevel := "debug" } ∧
      Layer.ofText? .json source = some { debug := some false, logLevel := some "debug" } ∧
      ({ logLevel := "debug" } : Config) =
        ({} : Config).merge { debug := some false, logLevel := some "debug" } := by
  intro source
  have hdocument : (Json.readTree? source).bind ofTree? = some { logLevel := "debug" } := by
    decide +kernel
  have hlayer : Layer.ofText? .json source =
      some { debug := some false, logLevel := some "debug" } := by
    decide +kernel
  exact ⟨hdocument, hlayer, layers_agree_with_documents.2.2 _ _ _ hdocument hlayer⟩

end Runbooks.Config
