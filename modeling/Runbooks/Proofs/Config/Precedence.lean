import Mathlib.Data.List.Basic
import Runbooks.Config.Loading

namespace Runbooks.Config

inductive Key where
  | outputDir
  | debug
  | mode
  | inventoryName
  | playbookName
  | executable
  | debugVerbosity
  | extraArgs
  | logLevel
  | logFormat
  deriving DecidableEq

/-- A variable that overrides a key, and how its text is taken. -/
structure Variable (α : Type) where
  name : String
  read? : String → Option α

/-- Where a setting is found: in a document by its section and its name there, in a layer, in a
configuration, and maybe in a variable. -/
structure Setting (α : Type) where
  schema : Schema
  group : String
  name : String
  read? : Tree → Option α
  inLayer? : Layer → Option α
  inConfig : Config → α
  override? : Option (Variable α) := none

namespace Key

abbrev Value : Key → Type
  | outputDir | inventoryName | playbookName | executable | logLevel => String
  | debug => Bool
  | mode => InventoryMode
  | debugVerbosity => UInt8
  | extraArgs => List String
  | logFormat => LogFormat

def setting : (k : Key) → Setting k.Value
  | outputDir => ⟨Section.defaults, "defaults", "output_dir", Tree.text?, Layer.outputDir,
      Config.outputDir, some ⟨"RUNBOOK_OUTPUT_DIR", some⟩⟩
  | debug => ⟨Section.defaults, "defaults", "debug", Tree.flag?, Layer.debug, Config.debug,
      some ⟨"RUNBOOK_DEBUG", fun s => (flagOfText? "RUNBOOK_DEBUG" s).toOption⟩⟩
  | mode => ⟨Section.inventory, "inventory", "mode", modeOf?, Layer.mode, Config.mode,
      some ⟨"RUNBOOK_INVENTORY_MODE", fun s => (InventoryMode.ofText? s).toOption⟩⟩
  | inventoryName => ⟨Section.inventory, "inventory", "file_name", Tree.text?,
      Layer.inventoryName, Config.inventoryName, none⟩
  | playbookName => ⟨Section.playbook, "playbook", "file_name", Tree.text?, Layer.playbookName,
      Config.playbookName, none⟩
  | executable => ⟨Section.execution, "execution", "executable", Tree.text?, Layer.executable,
      Config.executable, some ⟨"RUNBOOK_ANSIBLE_PLAYBOOK", some⟩⟩
  | debugVerbosity => ⟨Section.execution, "execution", "debug_verbosity", Tree.byte?,
      Layer.debugVerbosity, Config.debugVerbosity, none⟩
  | extraArgs => ⟨Section.execution, "execution", "extra_args", Tree.texts?, Layer.extraArgs,
      Config.extraArgs, none⟩
  | logLevel => ⟨Section.logging, "logging", "level", Tree.text?, Layer.logLevel, Config.logLevel,
      some ⟨"RUNBOOK_LOG_LEVEL", some⟩⟩
  | logFormat => ⟨Section.logging, "logging", "format", formatOf?, Layer.logFormat,
      Config.logFormat,
      some ⟨"RUNBOOK_LOG_FORMAT", fun s => (formatOfText? "RUNBOOK_LOG_FORMAT" s).toOption⟩⟩

/-- What a document says of a key, if it says so in the right form. -/
def inTree? (k : Key) (t : Tree) : Option (Option k.Value) := do
  let r ← Record.ofTree? sections true t
  let s ← Layer.section? r k.setting.schema k.setting.group
  s.optional? k.setting.read? k.setting.name

end Key

section Files

variable {d : Disk} {cwd : Place} {path : String} {paths : List String} {c c' : Config} {l : Layer}

/-- The layer that a file holds. -/
def layer? (d : Disk) (cwd : Place) (path : String) : Option Layer :=
  (d.read cwd path).toOption.bind (Layer.ofText? (Layer.formatOf path))

/-- The value that a file sets a key to. -/
def Key.inFile? (k : Key) (d : Disk) (cwd : Place) (path : String) : Option k.Value :=
  ((d.read cwd path).toOption.bind (Layer.formatOf path).readTree?).bind fun t => (k.inTree? t).join

theorem inTree?_of_ofTree? {t : Tree} (h : Layer.ofTree? t = some l) (k : Key) :
    k.inTree? t = some (k.setting.inLayer? l) := by
  obtain ⟨r, hr, h⟩ := Option.bind_eq_some_iff.mp h
  obtain ⟨defaults, hdefaults, h⟩ := Option.bind_eq_some_iff.mp h
  obtain ⟨inventory, hinventory, h⟩ := Option.bind_eq_some_iff.mp h
  obtain ⟨playbook, hplaybook, h⟩ := Option.bind_eq_some_iff.mp h
  obtain ⟨execution, hexecution, h⟩ := Option.bind_eq_some_iff.mp h
  obtain ⟨logging, hlogging, h⟩ := Option.bind_eq_some_iff.mp h
  obtain ⟨outputDir, houtputDir, h⟩ := Option.bind_eq_some_iff.mp h
  obtain ⟨debug, hdebug, h⟩ := Option.bind_eq_some_iff.mp h
  obtain ⟨mode, hmode, h⟩ := Option.bind_eq_some_iff.mp h
  obtain ⟨inventoryName, hinventoryName, h⟩ := Option.bind_eq_some_iff.mp h
  obtain ⟨playbookName, hplaybookName, h⟩ := Option.bind_eq_some_iff.mp h
  obtain ⟨executable, hexecutable, h⟩ := Option.bind_eq_some_iff.mp h
  obtain ⟨debugVerbosity, hdebugVerbosity, h⟩ := Option.bind_eq_some_iff.mp h
  obtain ⟨extraArgs, hextraArgs, h⟩ := Option.bind_eq_some_iff.mp h
  obtain ⟨logLevel, hlogLevel, h⟩ := Option.bind_eq_some_iff.mp h
  obtain ⟨logFormat, hlogFormat, h⟩ := Option.bind_eq_some_iff.mp h
  obtain rfl := Option.some.inj h
  simp only [Key.inTree?, hr, Option.bind_eq_bind, Option.bind_some]
  cases k <;> simp only [Key.setting, Option.bind_some, *]

theorem inTree?_join_of_not_present (k : Key) :
    ∀ t : Tree, t.presence ≠ .present → (k.inTree? t).join = none
  | .leaf _ l, _ => by
    cases hhollow : l.hollow with
    | false => simp [Key.inTree?, Record.ofTree?, hhollow]
    | true =>
      simp [Key.inTree?, Record.ofTree?, hhollow, Layer.section?, Record.optional?, Record.get?]
  | .list .., h => absurd rfl h
  | .table .., h => absurd rfl h
  | .alias t, h => inTree?_join_of_not_present k t h

theorem inFile?_eq (h : layer? d cwd path = some l) (k : Key) :
    k.inFile? d cwd path = k.setting.inLayer? l := by
  obtain ⟨source, hsource, hlayer⟩ := Option.bind_eq_some_iff.mp h
  unfold Layer.ofText? at hlayer
  obtain ⟨t, htree, hlayer⟩ := Option.bind_eq_some_iff.mp hlayer
  have hinFile : k.inFile? d cwd path = (k.inTree? t).join := by
    simp only [Key.inFile?, hsource, Option.bind_some, htree]
  rw [hinFile]
  have hdirect : Layer.ofTree? t = some l → (k.inTree? t).join = k.setting.inLayer? l := by
    intro hl
    rw [inTree?_of_ofTree? hl k]
    rfl
  split at hlayer
  · obtain ⟨o, hoptional, rfl⟩ := Option.map_eq_some_iff.mp hlayer
    unfold Tree.optional? at hoptional
    split at hoptional
    · obtain ⟨l', hl', rfl⟩ := Option.map_eq_some_iff.mp hoptional
      exact hdirect hl'
    · rename_i habsent
      obtain rfl := Option.some.inj hoptional
      rw [inTree?_join_of_not_present k t (by rw [habsent]; nofun)]
      cases k <;> rfl
    · cases hoptional
  · exact hdirect hlayer

theorem inConfig_merge (k : Key) (c : Config) (l : Layer) :
    k.setting.inConfig (c.merge l) = (k.setting.inLayer? l).getD (k.setting.inConfig c) := by
  cases k <;> rfl

theorem mergeFile_eq_ok_iff :
    mergeFile d cwd c path = .ok c' ↔ ∃ l, layer? d cwd path = some l ∧ c.merge l = c' := by
  unfold mergeFile layer?
  cases d.read cwd path with
  | error e => simp [Except.toOption]
  | ok source => cases h : Layer.ofText? (Layer.formatOf path) source <;> simp [Except.toOption, h]

/-- The files that are there. -/
def present (d : Disk) (cwd : Place) (paths : List String) : List String :=
  paths.filter (d.exists? cwd)

theorem mergeFiles_cons_of_exists (h : d.exists? cwd path = true) :
    mergeFiles d cwd (path :: paths) c = .ok c' ↔
      ∃ l, layer? d cwd path = some l ∧ mergeFiles d cwd paths (c.merge l) = .ok c' := by
  simp only [mergeFiles, if_pos h, bind, Except.bind]
  cases hmerge : mergeFile d cwd c path with
  | error f =>
    refine ⟨nofun, fun ⟨l, hl, _⟩ => ?_⟩
    rw [mergeFile_eq_ok_iff.mpr ⟨l, hl, rfl⟩] at hmerge
    cases hmerge
  | ok c₁ =>
    obtain ⟨l, hl, rfl⟩ := mergeFile_eq_ok_iff.mp hmerge
    simp only [hl, Option.some.injEq, exists_eq_left']

theorem mergeFiles_cons_of_not_exists (h : d.exists? cwd path = false) :
    mergeFiles d cwd (path :: paths) c = mergeFiles d cwd paths c := by
  simp only [mergeFiles, h, Bool.false_eq_true, if_false]

/-- A key ends with the value of the last file that sets it. -/
theorem inConfig_of_mergeFiles (k : Key) (h : mergeFiles d cwd paths c = .ok c') :
    k.setting.inConfig c' =
      ((present d cwd paths).filterMap (k.inFile? d cwd)).getLast?.getD (k.setting.inConfig c) := by
  -- What the files before leave is the default of the files behind, hence any `c`.
  induction paths generalizing c with
  | nil =>
    obtain rfl := Except.ok.inj h
    rfl
  | cons path paths ih =>
    cases hexists : d.exists? cwd path with
    | false =>
      rw [mergeFiles_cons_of_not_exists hexists] at h
      rw [ih h, present, present, List.filter_cons_of_neg (by simp [hexists])]
    | true =>
      obtain ⟨l, hl, hrest⟩ := (mergeFiles_cons_of_exists hexists).mp h
      have hpresent : present d cwd (path :: paths) = path :: present d cwd paths :=
        List.filter_cons_of_pos hexists
      calc k.setting.inConfig c'
          = ((present d cwd paths).filterMap (k.inFile? d cwd)).getLast?.getD
              (k.setting.inConfig (c.merge l)) := ih hrest
        _ = ((present d cwd paths).filterMap (k.inFile? d cwd)).getLast?.getD
              ((k.inFile? d cwd path).getD (k.setting.inConfig c)) := by
            rw [inConfig_merge, ← inFile?_eq hl]
        _ = ((present d cwd (path :: paths)).filterMap (k.inFile? d cwd)).getLast?.getD
              (k.setting.inConfig c) := by
            rw [hpresent, List.filterMap_cons]
            cases k.inFile? d cwd path with
            | none => rfl
            | some v => rw [List.getLast?_cons, Option.getD_some, Option.getD_some]

theorem mergeFiles_isOk_iff :
    (∃ c', mergeFiles d cwd paths c = .ok c') ↔
      ∀ path ∈ present d cwd paths, (layer? d cwd path).isSome := by
  induction paths generalizing c with
  | nil => simp [mergeFiles, present]
  | cons path paths ih =>
    cases hexists : d.exists? cwd path with
    | false =>
      rw [mergeFiles_cons_of_not_exists hexists, ih, present, present,
        List.filter_cons_of_neg (by simp [hexists])]
    | true =>
      simp only [mergeFiles_cons_of_exists hexists]
      rw [present, List.filter_cons_of_pos hexists, List.forall_mem_cons, ← present,
        Option.isSome_iff_exists]
      constructor
      · rintro ⟨c', l, hl, hrest⟩
        exact ⟨⟨l, hl⟩, ih.mp ⟨c', hrest⟩⟩
      · rintro ⟨⟨l, hl⟩, hrest⟩
        obtain ⟨c', hc'⟩ := (ih (c := c.merge l)).mpr hrest
        exact ⟨c', l, hl, hc'⟩

end Files

section Overrides

variable {vars : Variables} {c c' : Config}

/-- What the variable of a key says, if the key has one that is set. -/
def Key.varied? (k : Key) (vars : Variables) : Option k.Value :=
  k.setting.override?.bind fun v => (vars v.name).bind v.read?

/-- The variable of a key has a value that the key takes, if it has any. -/
def Key.ValidIn (k : Key) (vars : Variables) : Prop :=
  ∀ v s, k.setting.override? = some v → vars v.name = some s → (v.read? s).isSome

def set (c : Config) : (k : Key) → k.Value → Config
  | .outputDir, v => { c with outputDir := v }
  | .debug, v => { c with debug := v }
  | .mode, v => { c with mode := v }
  | .inventoryName, v => { c with inventoryName := v }
  | .playbookName, v => { c with playbookName := v }
  | .executable, v => { c with executable := v }
  | .debugVerbosity, v => { c with debugVerbosity := v }
  | .extraArgs, v => { c with extraArgs := v }
  | .logLevel, v => { c with logLevel := v }
  | .logFormat, v => { c with logFormat := v }

@[simp] theorem inConfig_set_self (c : Config) (k : Key) (v : k.Value) :
    k.setting.inConfig (c.set k v) = v := by
  cases k <;> rfl

theorem inConfig_set_of_ne (c : Config) {k k' : Key} (h : k' ≠ k) (v : k.Value) :
    k'.setting.inConfig (c.set k v) = k'.setting.inConfig c := by
  cases k <;> cases k' <;> first | rfl | exact absurd rfl h

/-- An override does to a configuration what the variable of a key should. -/
def Override.Sets (o : Override) (k : Key) : Prop :=
  ∃ v, k.setting.override? = some v ∧ v.name = o.name ∧ ∀ s c,
    match v.read? s with
    | some a => o.apply s c = .ok (c.set k a)
    | none => ∃ f, o.apply s c = .error f

theorem Override.sets_of_read {name : String} (k : Key) (read : String → Except Failure k.Value)
    (h : k.setting.override? = some ⟨name, fun s => (read s).toOption⟩) :
    Override.Sets ⟨name, fun s c => do let a ← read s; .ok (c.set k a)⟩ k := by
  refine ⟨_, h, rfl, fun s c => ?_⟩
  cases hread : read s with
  | error f =>
    simp only [hread, Except.toOption]
    exact ⟨f, rfl⟩
  | ok a =>
    simp only [hread, Except.toOption]
    rfl

/-- The keys that have variables, in the order in which these are applied. -/
def overridden : List Key :=
  [.outputDir, .debug, .mode, .executable, .logLevel, .logFormat]

theorem sets_overrides : List.Forall₂ Override.Sets overrides overridden :=
  .cons (Override.sets_of_read .outputDir .ok rfl) <|
  .cons (Override.sets_of_read .debug (flagOfText? "RUNBOOK_DEBUG") rfl) <|
  .cons (Override.sets_of_read .mode InventoryMode.ofText? rfl) <|
  .cons (Override.sets_of_read .executable .ok rfl) <|
  .cons (Override.sets_of_read .logLevel .ok rfl) <|
  .cons (Override.sets_of_read .logFormat (formatOfText? "RUNBOOK_LOG_FORMAT") rfl) .nil

theorem varied?_of_not_mem {k : Key} (h : k ∉ overridden) : k.varied? vars = none := by
  cases k with
  | outputDir | debug | mode | executable | logLevel | logFormat => exact absurd (by decide) h
  | inventoryName | playbookName | debugVerbosity | extraArgs => rfl

theorem validIn_of_not_mem {k : Key} (h : k ∉ overridden) : k.ValidIn vars := by
  intro v s hv
  cases k with
  | outputDir | debug | mode | executable | logLevel | logFormat => exact absurd (by decide) h
  | inventoryName | playbookName | debugVerbosity | extraArgs => cases hv

section Steps

variable {o : Override} {os : List Override} {k : Key} {ks : List Key}

theorem applyAll_cons (h : o.Sets k) (valid : k.ValidIn vars) :
    applyAll vars (o :: os) c = applyAll vars os ((k.varied? vars).elim c (c.set k)) := by
  obtain ⟨v, hv, hname, hsets⟩ := h
  simp only [applyAll, Key.varied?, hv, Option.bind_some, ← hname]
  cases hs : vars v.name with
  | none => rfl
  | some s =>
    obtain ⟨a, ha⟩ := Option.isSome_iff_exists.mp (valid v s hv hs)
    have happly := hsets s c
    simp only [ha] at happly
    simp only [happly, Option.bind_some, ha, Option.elim_some]

theorem applyAll_cons_of_not_valid (h : o.Sets k) (invalid : ¬ k.ValidIn vars)
    (os : List Override) (c : Config) : ∃ f, applyAll vars (o :: os) c = (some f, c) := by
  obtain ⟨v, hv, hname, hsets⟩ := h
  obtain ⟨s, hs, hread⟩ : ∃ s, vars v.name = some s ∧ v.read? s = none := by
    by_contra hnone
    apply invalid
    intro v' s hv' hs
    obtain rfl := Option.some.inj (hv.symm.trans hv')
    cases hread : v.read? s with
    | some a => rfl
    | none => exact absurd ⟨s, hs, hread⟩ hnone
  have happly := hsets s c
  simp only [hread] at happly
  obtain ⟨f, hf⟩ := happly
  exact ⟨f, by simp only [applyAll, ← hname, hs, hf]⟩

theorem inConfig_elim_set (k k' : Key) :
    k'.setting.inConfig ((k.varied? vars).elim c (c.set k)) =
      if k' = k then (k'.varied? vars).getD (k'.setting.inConfig c) else k'.setting.inConfig c := by
  by_cases heq : k' = k
  · subst heq
    rw [if_pos rfl]
    cases k'.varied? vars with
    | none => rfl
    | some a => exact inConfig_set_self c k' a
  · rw [if_neg heq]
    cases k.varied? vars with
    | none => rfl
    | some a => exact inConfig_set_of_ne c heq a

theorem getD_inConfig_elim_set (k k' : Key) (ks : List Key) :
    (if k' ∈ ks then k'.varied? vars else none).getD
        (k'.setting.inConfig ((k.varied? vars).elim c (c.set k))) =
      (if k' ∈ k :: ks then k'.varied? vars else none).getD (k'.setting.inConfig c) := by
  rw [inConfig_elim_set]
  by_cases heq : k' = k
  · rw [if_pos heq, if_pos (List.mem_cons.mpr (.inl heq))]
    split
    · cases k'.varied? vars <;> rfl
    · rfl
  · simp only [List.mem_cons, heq, false_or, if_false]

theorem inConfig_of_applyAll (h : List.Forall₂ Override.Sets os ks)
    (happly : applyAll vars os c = (none, c')) :
    (∀ k ∈ ks, k.ValidIn vars) ∧ ∀ k : Key, k.setting.inConfig c' =
      (if k ∈ ks then k.varied? vars else none).getD (k.setting.inConfig c) := by
  induction h generalizing c with
  | nil =>
    obtain rfl := (Prod.mk.inj happly).2
    exact ⟨nofun, fun k => rfl⟩
  | @cons o k os ks hsets _ ih =>
    by_cases hvalid : k.ValidIn vars
    · rw [applyAll_cons hsets hvalid] at happly
      obtain ⟨hvalids, hconfig⟩ := ih happly
      refine ⟨List.forall_mem_cons.mpr ⟨hvalid, hvalids⟩, fun k' => ?_⟩
      rw [hconfig k', getD_inConfig_elim_set]
    · obtain ⟨f, hf⟩ := applyAll_cons_of_not_valid hsets hvalid os c
      rw [hf] at happly
      cases happly

theorem exists_applyAll (h : List.Forall₂ Override.Sets os ks)
    (valid : ∀ k ∈ ks, k.ValidIn vars) : ∃ c', applyAll vars os c = (none, c') := by
  induction h generalizing c with
  | nil => exact ⟨c, rfl⟩
  | cons hsets _ ih =>
    rw [applyAll_cons hsets (valid _ List.mem_cons_self)]
    exact ih fun k hk => valid k (List.mem_cons_of_mem _ hk)

end Steps

/-- All variables that are set have values for their keys. -/
def ValidVariables (vars : Variables) : Prop :=
  ∀ k : Key, k.ValidIn vars

theorem inConfig_of_applyOverrides (h : applyOverrides vars c = (none, c')) :
    ValidVariables vars ∧
      ∀ k : Key, k.setting.inConfig c' = (k.varied? vars).getD (k.setting.inConfig c) := by
  obtain ⟨hvalid, hconfig⟩ := inConfig_of_applyAll sets_overrides h
  refine ⟨fun k => ?_, fun k => ?_⟩
  · by_cases hmem : k ∈ overridden
    · exact hvalid k hmem
    · exact validIn_of_not_mem hmem
  · rw [hconfig k]
    split
    · rfl
    · rename_i hmem
      rw [varied?_of_not_mem hmem]

end Overrides

section Loading

variable {d : Disk} {cwd : Place} {vars : Variables} {explicit home : Option String} {c c' : Config}

/-- The value that a key ends with: its variable's, else that of the last file that sets it, else
its default. -/
def Key.settled (k : Key) (d : Disk) (cwd : Place) (vars : Variables) (files : List String) :
    k.Value :=
  (k.varied? vars).getD <| (files.filterMap (k.inFile? d cwd)).getLast?.getD <|
    k.setting.inConfig {}

theorem eq_of_inConfig (h : ∀ k : Key, k.setting.inConfig c = k.setting.inConfig c') : c = c' := by
  cases c
  cases c'
  congr
  exacts [h .outputDir, h .debug, h .mode, h .inventoryName, h .playbookName, h .executable,
    h .debugVerbosity, h .extraArgs, h .logLevel, h .logFormat]

theorem load_eq_ok_iff_exists : load d cwd vars explicit home = .ok c ↔
    ∃ merged, mergeFiles d cwd (paths vars explicit home) {} = .ok merged ∧
      applyOverrides vars merged = (none, c) := by
  simp only [load, bind, Except.bind]
  cases hmerge : mergeFiles d cwd (paths vars explicit home) {} with
  | error f => simp
  | ok merged => rcases happly : applyOverrides vars merged with ⟨_ | f, c'⟩ <;> simp [happly]

theorem settled_of_load (h : load d cwd vars explicit home = .ok c) :
    ValidVariables vars ∧ ∀ k : Key,
      k.setting.inConfig c = k.settled d cwd vars (present d cwd (paths vars explicit home)) := by
  obtain ⟨merged, hmerged, happly⟩ := load_eq_ok_iff_exists.mp h
  obtain ⟨hvalid, hconfig⟩ := inConfig_of_applyOverrides happly
  refine ⟨hvalid, fun k => ?_⟩
  rw [hconfig k, inConfig_of_mergeFiles k hmerged]
  rfl

/-- Loading succeeds exactly if every file that is there holds a layer and every variable that is
set is valid, and it leaves every key settled. -/
theorem load_eq_ok_iff : load d cwd vars explicit home = .ok c ↔
    (∀ path ∈ present d cwd (paths vars explicit home), (layer? d cwd path).isSome) ∧
      ValidVariables vars ∧ ∀ k : Key,
        k.setting.inConfig c = k.settled d cwd vars (present d cwd (paths vars explicit home)) := by
  constructor
  · intro h
    obtain ⟨merged, hmerged, -⟩ := load_eq_ok_iff_exists.mp h
    exact ⟨mergeFiles_isOk_iff.mp ⟨merged, hmerged⟩, settled_of_load h⟩
  · rintro ⟨hfiles, hvalid, hc⟩
    obtain ⟨merged, hmerged⟩ := (mergeFiles_isOk_iff (c := {})).mpr hfiles
    obtain ⟨c', hc'⟩ := exists_applyAll (c := merged) sets_overrides fun k _ => hvalid k
    have hloaded := load_eq_ok_iff_exists.mpr ⟨merged, hmerged, hc'⟩
    have heq : c = c' := eq_of_inConfig fun k => (hc k).trans ((settled_of_load hloaded).2 k).symm
    rw [heq]
    exact hloaded

end Loading

end Runbooks.Config
