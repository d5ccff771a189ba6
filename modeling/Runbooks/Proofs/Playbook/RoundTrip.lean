import Runbooks.Artifacts
import Runbooks.Playbook.Reader
import Runbooks.Proofs.Document.Records
import Runbooks.Proofs.Document.Values

/-!
Plays read back from the text that they are written as. Of a task everything but its action belongs
to a field of its own, so that the action is what is left over, whichever fields are absent. What a
text holds as a tree and as a value is taken from the notation.
-/

namespace Runbooks

open Yaml (Value)

namespace Yaml.Value

/-- What the notation promises of a written value: the tree that the text holds is the one of the
value, and the value is found in it. -/
def ReadsBack (v : Value) : Prop :=
  ∃ left left', Yaml.readWithLimit? v.write = some (v.tree, left) ∧
    read? false Yaml.maxDepth left v.tree = some (v, left')

theorem ReadsBack.isRead {v : Value} (h : v.ReadsBack) : IsRead false Yaml.maxDepth v.tree v := by
  obtain ⟨left, left', -, hread⟩ := h
  exact isRead_of_free (free_tree v) hread

theorem items?_sequence (items : List Value) : (sequence items).tree.items? = some (items.map tree) :=
  congrArg some (trees_eq_map items)

section Keyed

/-- A mapping with texts for keys. -/
def keyed (fields : List (String × Value)) : Value :=
  .mapping (fields.map fun f => (.text f.1, f.2))

def fieldTrees (fields : List (String × Value)) : List (String × Tree) :=
  fields.map fun f => (f.1, f.2.tree)

/-- A field where there is a value for it. -/
def present {α : Type} (name : String) (f : α → Value) (a : Option α) : List (String × Value) :=
  a.toList.map fun a => (name, f a)

theorem optionalField_eq {α : Type} (name : String) (f : α → Value) (a : Option α) :
    optionalField name f a = (present name f a).map fun f => (.text f.1, f.2) := by
  cases a <;> rfl

theorem names_present {α : Type} (name : String) (f : α → Value) (a : Option α) :
    (present name f a).map Prod.fst = if a.isSome then [name] else [] := by
  cases a <;> rfl

theorem names_present_sublist {α : Type} (name : String) (f : α → Value) (a : Option α) :
    ((present name f a).map Prod.fst).Sublist [name] := by
  cases a with
  | none => exact List.nil_sublist _
  | some a => exact List.Sublist.refl _

theorem mapM_text?_keyed (fields : List (String × Value)) :
    (entryTrees (fields.map fun f => (.text f.1, f.2))).mapM (fun (k, v) => k.text?.map (·, v)) =
      some (fieldTrees fields) := by
  induction fields with
  | nil => rfl
  | cons f fields ih =>
    rw [List.map_cons, entryTrees, List.mapM_cons, ih]
    rfl

theorem entries?_keyed (fields : List (String × Value)) :
    Task.entries? (keyed fields).tree = some (fieldTrees fields) :=
  mapM_text?_keyed fields

theorem fieldTrees_append (fields fields' : List (String × Value)) :
    fieldTrees (fields ++ fields') = fieldTrees fields ++ fieldTrees fields' :=
  List.map_append

theorem names_fieldTrees (fields : List (String × Value)) :
    (fieldTrees fields).map Prod.fst = fields.map Prod.fst := by
  rw [fieldTrees, List.map_map]
  rfl

theorem ofTree?_keyed {schema : Schema} {complete : Bool} {fields : List (String × Value)}
    (hknown : ∀ name ∈ fields.map Prod.fst, schema.canonical? name = some name)
    (hnodup : (fields.map Prod.fst).Nodup) :
    Record.ofTree? schema complete (keyed fields).tree = some ⟨fieldTrees fields⟩ := by
  rw [← names_fieldTrees] at hknown hnodup
  exact Record.ofTree?_table (mapM_text?_keyed fields) hknown hnodup

theorem get?_append {name : String} (fields fields' : List (String × Value)) :
    Record.get? ⟨fieldTrees (fields ++ fields')⟩ name =
      (Record.get? ⟨fieldTrees fields⟩ name).or (Record.get? ⟨fieldTrees fields'⟩ name) := by
  simp only [Record.get?, fieldTrees_append, List.lookup_append]

theorem get?_present {α : Type} (name key : String) (f : α → Value) (a : Option α) :
    Record.get? ⟨fieldTrees (present key f a)⟩ name =
      if name = key then a.map fun a => (f a).tree else none := by
  cases a with
  | none => simp [Record.get?, fieldTrees, present]
  | some a =>
    by_cases h : name = key
    · rw [if_pos h, h]
      exact List.lookup_cons_self
    · rw [if_neg h]
      exact List.lookup_eq_none_iff.mpr (List.forall_mem_singleton.mpr (bne_iff_ne.mpr h))

theorem optional?_eq {α : Type} {r : Record} {read : Tree → Option α} {f : α → Value}
    {name : String} {a : Option α} (hread : ∀ a, Tree.optional? read (f a).tree = some (some a))
    (hget : r.get? name = a.map fun a => (f a).tree) : r.optional? read name = some a := by
  cases a with
  | none => rw [Record.optional?, hget, Option.map_none]
  | some a =>
    rw [Record.optional?, hget, Option.map_some]
    exact hread a

theorem optional?_text (s : String) : Tree.optional? Tree.text? (text s).tree = some (some s) :=
  rfl

theorem optional?_flag (b : Bool) : Tree.optional? Tree.flag? (bool b).tree = some (some b) :=
  rfl

end Keyed

end Yaml.Value

namespace Task

def leading (t : Task) : List (String × Value) :=
  Value.present "name" Value.text (some t.name) ++ Value.present "become" Value.bool t.become

def trailing (t : Task) : List (String × Value) :=
  Value.present "loop" Value.text t.loop ++ Value.present "register" Value.text t.register ++
    Value.present "ignore_errors" Value.bool t.ignoreErrors

theorem value_eq_keyed (t : Task) :
    t.value = Value.keyed (t.leading ++ (t.action.moduleName, t.action.value) :: t.trailing) := by
  simp only [value, Value.optionalField_eq, Value.keyed, leading, trailing, List.map_append,
    List.map_cons, List.append_assoc, List.cons_append, List.nil_append]
  rfl

theorem names_sublist (t : Task) : ((t.leading ++ t.trailing).map Prod.fst).Sublist fieldNames := by
  simp only [leading, trailing, List.map_append]
  exact ((List.Sublist.refl _).append (Value.names_present_sublist ..)).append
    (((Value.names_present_sublist ..).append (Value.names_present_sublist ..)).append
      (Value.names_present_sublist ..))

theorem fields_known (t : Task) :
    ∀ e ∈ Value.fieldTrees t.leading ++ Value.fieldTrees t.trailing,
      fieldNames.contains e.1 = true := by
  intro e he
  have hname : e.1 ∈ (t.leading ++ t.trailing).map Prod.fst := by
    rw [← Value.names_fieldTrees, Value.fieldTrees_append]
    exact List.mem_map_of_mem he
  exact List.contains_iff_mem.mpr (t.names_sublist.subset hname)

theorem contains_moduleName (a : Action) : fieldNames.contains a.moduleName = false := by
  cases a <;> rfl

theorem otherValues?_append (left : Nat) {entries : List (String × Tree)}
    (rest : List (String × Tree)) (h : ∀ e ∈ entries, fieldNames.contains e.1 = true) :
    otherValues? left (entries ++ rest) = otherValues? left rest := by
  induction entries with
  | nil => rfl
  | cons e entries ih =>
    obtain ⟨he, h⟩ := List.forall_mem_cons.mp h
    rw [List.cons_append, otherValues?, if_pos he, ih h]

theorem otherValues?_fields (left : Nat) {entries : List (String × Tree)}
    (h : ∀ e ∈ entries, fieldNames.contains e.1 = true) :
    otherValues? left entries = some ([], left) := by
  have hnone := otherValues?_append left [] h
  rwa [List.append_nil] at hnone

theorem filter_fields {entries entries' : List (String × Tree)} {e : String × Tree}
    (h : ∀ e ∈ entries, fieldNames.contains e.1 = true)
    (h' : ∀ e ∈ entries', fieldNames.contains e.1 = true) (he : fieldNames.contains e.1 = false) :
    (entries ++ e :: entries').filter (fun e => fieldNames.contains e.1) = entries ++ entries' := by
  rw [List.filter_append, List.filter_cons, if_neg (Bool.eq_false_iff.mp he),
    List.filter_eq_self.mpr h, List.filter_eq_self.mpr h']

theorem read?_action (left : Nat) (a : Action) :
    Value.read? true valueDepth left a.value.tree = some (a.value, left) := by
  cases a <;> rfl

theorem ofValue?_value (a : Action) : Action.ofValue? a.moduleName a.value = some a := by
  cases a <;> rfl

def fields (t : Task) : Record := ⟨Value.fieldTrees (t.leading ++ t.trailing)⟩

theorem required?_name (t : Task) : t.fields.required? Tree.text? "name" = some t.name := by
  rfl

theorem optional?_become (t : Task) : t.fields.optional? Tree.flag? "become" = some t.become := by
  refine Value.optional?_eq Value.optional?_flag ?_
  simp [fields, leading, trailing, Value.get?_append, Value.get?_present]

theorem optional?_loop (t : Task) : t.fields.optional? Tree.text? "loop" = some t.loop := by
  refine Value.optional?_eq Value.optional?_text ?_
  simp [fields, leading, trailing, Value.get?_append, Value.get?_present]

theorem optional?_register (t : Task) :
    t.fields.optional? Tree.text? "register" = some t.register := by
  refine Value.optional?_eq Value.optional?_text ?_
  simp [fields, leading, trailing, Value.get?_append, Value.get?_present]

theorem optional?_ignoreErrors (t : Task) :
    t.fields.optional? Tree.flag? "ignore_errors" = some t.ignoreErrors := by
  refine Value.optional?_eq Value.optional?_flag ?_
  simp [fields, leading, trailing, Value.get?_append, Value.get?_present]

theorem ofTree?_value (left : Nat) (t : Task) : ofTree? left t.value.tree = some (t, left) := by
  have hentries : entries? t.value.tree = some (Value.fieldTrees t.leading ++
      (t.action.moduleName, t.action.value.tree) :: Value.fieldTrees t.trailing) := by
    rw [value_eq_keyed, Value.entries?_keyed, Value.fieldTrees_append]
    rfl
  obtain ⟨hleading, htrailing⟩ := List.forall_mem_append.mp t.fields_known
  have hunknown := contains_moduleName t.action
  have hothers : otherValues? left (Value.fieldTrees t.leading ++
      (t.action.moduleName, t.action.value.tree) :: Value.fieldTrees t.trailing) =
        some ([(t.action.moduleName, t.action.value)], left) := by
    rw [otherValues?_append left _ hleading, otherValues?, if_neg (Bool.eq_false_iff.mp hunknown)]
    simp only [read?_action, otherValues?_fields left htrailing, Option.bind_eq_bind, Option.bind_some]
  have hfields : (Value.fieldTrees t.leading ++ (t.action.moduleName, t.action.value.tree) ::
      Value.fieldTrees t.trailing).filter (fun e => fieldNames.contains e.1) = t.fields.entries :=
    (filter_fields hleading htrailing hunknown).trans (Value.fieldTrees_append ..).symm
  have hnodup : (t.fields.entries.map Prod.fst).Nodup := by
    rw [fields, Value.names_fieldTrees]
    exact t.names_sublist.nodup (by decide)
  have hmodule : Action.moduleNames.contains t.action.moduleName = true := by
    cases t.action <;> rfl
  have hname := t.required?_name
  have hbecome := t.optional?_become
  have hloop := t.optional?_loop
  have hregister := t.optional?_register
  have hignore := t.optional?_ignoreErrors
  rw [ofTree?, hentries]
  simp only [Option.bind_eq_bind, Option.bind_some, hothers, hfields, List.find?_cons, hmodule,
    if_pos hnodup, hname, hbecome, hloop, hregister, hignore, ofValue?_value]

def keys (t : Task) : List String :=
  ["name"] ++ (if t.become.isSome then ["become"] else []) ++ [t.action.moduleName] ++
    (if t.loop.isSome then ["loop"] else []) ++ (if t.register.isSome then ["register"] else []) ++
    (if t.ignoreErrors.isSome then ["ignore_errors"] else [])

/-- A table that has the keys of a task and no others. -/
def Shows (node : Tree) (t : Task) : Prop :=
  ∃ entries, entries? node = some entries ∧ entries.map Prod.fst = t.keys

theorem shows_value (t : Task) : Shows t.value.tree t := by
  refine ⟨_, (congrArg (entries? ·.tree) t.value_eq_keyed).trans (Value.entries?_keyed _), ?_⟩
  simp only [Value.names_fieldTrees, leading, trailing, keys, List.map_append, List.map_cons,
    Value.names_present, Option.isSome_some, if_true, List.append_assoc, List.cons_append,
    List.nil_append]

end Task

namespace Play

section Variables

/-- Variables that are found again: no name is given twice, and each value reads back. -/
structure Settled (vars : List (String × Value)) : Prop where
  distinct : (vars.map Prod.fst).Nodup
  read : ∀ e ∈ vars, Value.IsRead false valueDepth e.2.tree e.2

theorem putVar_of_new {name : String} (value : Value) {acc : List (String × Value)}
    (h : name ∉ acc.map Prod.fst) : putVar name value acc = acc ++ [(name, value)] := by
  induction acc with
  | nil => rfl
  | cons e acc ih =>
    rw [List.map_cons, List.mem_cons, not_or] at h
    rw [putVar, if_neg (Ne.symm h.1), ih h.2, List.cons_append]

theorem vars?_fieldTrees (left : Nat) {acc vars : List (String × Value)}
    (hdistinct : ((acc ++ vars).map Prod.fst).Nodup)
    (hread : ∀ e ∈ vars, Value.IsRead false valueDepth e.2.tree e.2) :
    vars? left acc (Value.fieldTrees vars) = some (acc ++ vars, left) := by
  induction vars generalizing acc with
  | nil => rw [List.append_nil]; rfl
  | cons e vars ih =>
    obtain ⟨he, hread⟩ := List.forall_mem_cons.mp hread
    have hassoc : acc ++ e :: vars = acc ++ [e] ++ vars := (List.append_assoc acc [e] vars).symm
    have hnew : e.1 ∉ acc.map Prod.fst := by
      rw [List.map_append, List.map_cons] at hdistinct
      exact fun h => (List.nodup_append.mp hdistinct).2.2 _ h _ List.mem_cons_self rfl
    rw [Value.fieldTrees, List.map_cons, vars?, he left, Option.bind_eq_bind, Option.bind_some,
      hassoc]
    show vars? left (putVar e.1 e.2 acc) (Value.fieldTrees vars) = _
    rw [putVar_of_new e.2 hnew]
    exact ih (hassoc ▸ hdistinct) hread

theorem settled_of_isRead {vars : List (String × Value)}
    (h : Value.IsRead false (valueDepth + 1) (varsValue vars).tree (varsValue vars)) :
    Settled vars := by
  obtain ⟨hread, hdiffer⟩ := Value.isRead_mapping h
  refine ⟨List.pairwise_map.mpr ?_, fun e he => hread _ (List.mem_map_of_mem he)⟩
  refine (List.pairwise_map.mp hdiffer).imp fun {e e'} hdiffer hname => ?_
  simp [Value.Differ, Value.text, Value.same, Value.sameAtom, hname] at hdiffer

end Variables

def fields (p : Play) : List (String × Value) :=
  Value.present "name" Value.text (some p.name) ++ Value.present "hosts" Value.text (some p.hosts) ++
    Value.present "gather_facts" Value.bool (some p.gatherFacts) ++
    Value.present "become" Value.bool p.become ++ Value.present "vars" varsValue p.vars ++
    Value.present "tasks" (fun tasks => .sequence (tasks.map Task.value)) (some p.tasks)

theorem value_eq_keyed (p : Play) : p.value = Value.keyed p.fields := by
  simp only [value, Value.optionalField_eq, Value.keyed, fields, List.map_append]
  rfl

theorem names_sublist (p : Play) : (p.fields.map Prod.fst).Sublist (schema.map Field.name) := by
  simp only [fields, List.map_append]
  exact (((((Value.names_present_sublist ..).append (Value.names_present_sublist ..)).append
    (Value.names_present_sublist ..)).append (Value.names_present_sublist ..)).append
      (Value.names_present_sublist ..)).append (Value.names_present_sublist ..)

theorem ofTree?_fields (p : Play) :
    Record.ofTree? schema false p.value.tree = some ⟨Value.fieldTrees p.fields⟩ := by
  have hknown : ∀ name ∈ schema.map Field.name, schema.canonical? name = some name := by decide
  have hnodup : (schema.map Field.name).Nodup := by decide
  rw [value_eq_keyed]
  exact Value.ofTree?_keyed (fun name hname => hknown name (p.names_sublist.subset hname))
    (p.names_sublist.nodup hnodup)

theorem readAll?_map {α : Type} {read : Nat → Tree → Option (α × Nat)} {f : α → Tree}
    (left : Nat) (items : List α) (h : ∀ a ∈ items, ∀ left, read left (f a) = some (a, left)) :
    readAll? read left (items.map f) = some (items, left) := by
  induction items with
  | nil => rfl
  | cons a items ih =>
    obtain ⟨ha, h⟩ := List.forall_mem_cons.mp h
    simp only [List.map_cons, readAll?, ha left, ih h, Option.bind_eq_bind, Option.bind_some]

theorem get?_vars (p : Play) : Record.get? ⟨Value.fieldTrees p.fields⟩ "vars" =
    p.vars.map fun vars => (varsValue vars).tree := by
  simp [fields, Value.get?_append, Value.get?_present]

theorem get?_tasks (p : Play) : Record.get? ⟨Value.fieldTrees p.fields⟩ "tasks" =
    some (Value.sequence (p.tasks.map Task.value)).tree := by
  simp [fields, Value.get?_append, Value.get?_present]

theorem optionalVars?_fields (left : Nat) {p : Play} (h : ∀ vars ∈ p.vars, Settled vars) :
    optionalVars? left ⟨Value.fieldTrees p.fields⟩ = some (p.vars, left) := by
  rw [optionalVars?, get?_vars]
  cases hvars : p.vars with
  | none => rfl
  | some vars =>
    have hsettled := h vars (Option.mem_def.mpr hvars)
    have hentries : Task.entries? (varsValue vars).tree = some (Value.fieldTrees vars) :=
      Value.entries?_keyed vars
    have hread : vars? left [] (Value.fieldTrees vars) = some (vars, left) :=
      vars?_fieldTrees left hsettled.distinct hsettled.read
    have hpresence : (varsValue vars).tree.presence = .present := rfl
    simp only [Option.map_some, hpresence, hentries, hread, Option.bind_eq_bind, Option.bind_some]

theorem ofTree?_value {p : Play} (h : ∀ vars ∈ p.vars, Settled vars) (left : Nat) :
    ofTree? left p.value.tree = some (p, left) := by
  have hrecord := p.ofTree?_fields
  have hvars := optionalVars?_fields left h
  have hitems : (Value.sequence (p.tasks.map Task.value)).tree.items? =
      some (p.tasks.map fun t => t.value.tree) := by
    rw [Value.items?_sequence, List.map_map]
    rfl
  have htasks := readAll?_map left p.tasks fun t _ left => Task.ofTree?_value left t
  have hname : Record.required? ⟨Value.fieldTrees p.fields⟩ Tree.text? "name" = some p.name := rfl
  have hhosts : Record.required? ⟨Value.fieldTrees p.fields⟩ Tree.text? "hosts" = some p.hosts :=
    rfl
  have hgather : Record.required? ⟨Value.fieldTrees p.fields⟩ Tree.flag? "gather_facts" =
    some p.gatherFacts := rfl
  have hbecome : Record.optional? ⟨Value.fieldTrees p.fields⟩ Tree.flag? "become" =
      some p.become := by
    refine Value.optional?_eq Value.optional?_flag ?_
    simp [fields, Value.get?_append, Value.get?_present]
  simp only [ofTree?, hrecord, hvars, get?_tasks, hitems, htasks, hname, hhosts, hgather, hbecome,
    Option.bind_eq_bind, Option.bind_some]

/-- What the document of plays reads back as says how their variables do. -/
theorem settled_of_readsBack {plays : List Play} (h : (document plays).ReadsBack) :
    ∀ p ∈ plays, ∀ vars ∈ p.vars, Settled vars := by
  intro p hp vars hvars
  -- The document, the play and its variables each take one level of the depth.
  have hplay : Value.IsRead false (Yaml.maxDepth - 1) p.value.tree p.value :=
    Value.isRead_sequence h.isRead _ (List.mem_map_of_mem hp)
  have hfields := (Value.isRead_mapping hplay).1
  refine settled_of_isRead (hfields (.text "vars", varsValue vars) ?_)
  simp [Value.optionalField, Option.mem_def.mp hvars]

theorem readList?_write {plays : List Play} (h : (document plays).ReadsBack) :
    readList? (write plays) = some plays := by
  obtain ⟨left, -, htext, -⟩ := id h
  have hitems : (document plays).tree.items? = some (plays.map fun p => p.value.tree) := by
    rw [document, Value.items?_sequence, List.map_map]
    rfl
  have hplays := readAll?_map left plays fun p hp => ofTree?_value (settled_of_readsBack h p hp)
  rw [readList?, write, htext]
  simp only [hitems, hplays, Option.bind_eq_bind, Option.bind_some]

def keys (p : Play) : List String :=
  ["name", "hosts", "gather_facts"] ++ (if p.become.isSome then ["become"] else []) ++
    (if p.vars.isSome then ["vars"] else []) ++ ["tasks"]

/-- A table that has the keys of a play and no others, and shows its tasks. -/
def Shows (node : Tree) (p : Play) : Prop :=
  ∃ entries nodes, Task.entries? node = some entries ∧ entries.map Prod.fst = p.keys ∧
    (entries.lookup "tasks").bind Tree.items? = some nodes ∧ List.Forall₂ Task.Shows nodes p.tasks

theorem shows_value (p : Play) : Shows p.value.tree p := by
  refine ⟨Value.fieldTrees p.fields, p.tasks.map fun t => t.value.tree, ?_, ?_, ?_, ?_⟩
  · rw [value_eq_keyed, Value.entries?_keyed]
  · simp only [Value.names_fieldTrees, fields, keys, List.map_append, Value.names_present,
      Option.isSome_some, if_true, List.append_assoc, List.cons_append, List.nil_append]
  · have htasks := p.get?_tasks
    rw [Record.get?] at htasks
    rw [htasks, Option.bind_some, Value.items?_sequence, List.map_map]
    rfl
  · exact List.forall₂_map_left_iff.mpr (List.forall₂_same.mpr fun t _ => t.shows_value)

/-- Plays are read back from the text that they are written as, and the text has a key for each
field that is there and for no other. -/
theorem write_reads_back (plays : List Play) (h : (document plays).ReadsBack) :
    readList? (write plays) = some plays ∧
      (∃ t left nodes, Yaml.readWithLimit? (write plays) = some (t, left) ∧
        t.items? = some nodes ∧ List.Forall₂ Shows nodes plays) ∧
      ∀ mode r debug, plays = [(Artifacts.compile mode r debug).playbook] →
        readList? (Artifacts.compile mode r debug).render.playbook = some plays := by
  have hread := readList?_write h
  obtain ⟨left, -, htext, -⟩ := h
  refine ⟨hread, ⟨_, left, _, htext, Value.items?_sequence _, ?_⟩, ?_⟩
  · rw [List.map_map]
    exact List.forall₂_map_left_iff.mpr (List.forall₂_same.mpr fun p _ => p.shows_value)
  · rintro mode r debug rfl
    exact hread

/-- A runbook whose names would be read as something else if they were not quoted. -/
def greeting : Runbook where
  name := "null"
  environment := Environment.empty
  hosts := [{ address := "localhost" }]
  steps := [.shell "" "a\nb"]
  name_not_blank := by decide
  hosts_ne_nil := by decide
  addresses_not_blank := by decide
  steps_ne_nil := by decide

def greetingText : String :=
  "- name: 'null'\n  hosts: managed\n  gather_facts: false\n  vars:\n    ansible_verbosity: 2\n" ++
    "  tasks:\n  - name: ''\n    shell: |-\n      a\n      b\n    register: result\n" ++
    "    ignore_errors: false\n"

theorem tokens?_greetingText : Yaml.tokens? greetingText = some [.blockSequence, .blockEntry,
    .blockMapping,
      .key, .scalar .plain "name", .value, .scalar .single "null",
      .key, .scalar .plain "hosts", .value, .scalar .plain "managed",
      .key, .scalar .plain "gather_facts", .value, .scalar .plain "false",
      .key, .scalar .plain "vars", .value, .blockMapping,
        .key, .scalar .plain "ansible_verbosity", .value, .scalar .plain "2", .blockEnd,
      .key, .scalar .plain "tasks", .value, .blockEntry, .blockMapping,
        .key, .scalar .plain "name", .value, .scalar .single "",
        .key, .scalar .plain "shell", .value, .scalar .literal "a\nb",
        .key, .scalar .plain "register", .value, .scalar .plain "result",
        .key, .scalar .plain "ignore_errors", .value, .scalar .plain "false", .blockEnd,
    .blockEnd, .blockEnd, .streamEnd] := by
  decide +kernel

theorem write_greeting :
    write [(Artifacts.compile .uniform greeting true).playbook] = greetingText := by
  decide +kernel

theorem greeting_readsBack :
    (document [(Artifacts.compile .uniform greeting true).playbook]).ReadsBack := by
  obtain ⟨left, htree⟩ : ∃ left, Yaml.readWithLimit? greetingText =
      some ((document [(Artifacts.compile .uniform greeting true).playbook]).tree, left) := by
    -- Cutting the text into tokens is the long part, and is done on its own.
    rw [Yaml.readWithLimit?, Yaml.Node.ofText?, tokens?_greetingText]
    exact ⟨_, rfl⟩
  rw [← write_greeting] at htree
  exact ⟨left, left, htree, rfl⟩

theorem write_reads_back_greeting :
    (document [(Artifacts.compile .uniform greeting true).playbook]).ReadsBack ∧
      readList? (Artifacts.compile .uniform greeting true).render.playbook =
        some [(Artifacts.compile .uniform greeting true).playbook] :=
  have hback := write_reads_back _ greeting_readsBack
  ⟨greeting_readsBack, hback.2.2 _ _ _ rfl⟩

end Play

end Runbooks
