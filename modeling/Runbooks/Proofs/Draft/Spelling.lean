import Mathlib.Logic.Relation
import Runbooks.Proofs.Document.Fields
import Runbooks.Proofs.Document.Json
import Runbooks.Source

/-!
How a source may be spelt. The records of a runbook source stand in one another, and each has its own
aliases. None of them depends on how it is spelt, and so neither does the draft that they make up; a
record that is given one of its fields twice leaves no draft, wherever it stands.
-/

namespace Runbooks

namespace Draft

inductive Part where
  | runbook
  | environment
  | hosts
  | host
  | steps
  | step
  deriving DecidableEq, Repr

namespace Part

def Value : Part → Type
  | runbook => Draft
  | environment => Environment
  | hosts => List HostDraft
  | host => HostDraft
  | steps => List StepDraft
  | step => StepDraft

def read? : (p : Part) → Tree → Option p.Value
  | runbook => Draft.ofTree?
  | environment => Environment.ofTree?
  | hosts => fun t => t.items? >>= (·.mapM HostDraft.ofTree?)
  | host => HostDraft.ofTree?
  | steps => fun t => t.items? >>= (·.mapM StepDraft.ofTree?)
  | step => StepDraft.ofTree?

/-- The fields of a part that is a record. -/
def schema? : Part → Option Schema
  | runbook => some Draft.schema
  | environment => some Environment.schema
  | hosts => none
  | host => some HostDraft.schema
  | steps => none
  | step => some StepDraft.schema

/-- The names of the fields of a part that is a record, each with its alias. -/
def fields : Part → List (String × Option String)
  | runbook => [("name", none), ("description", none), ("debug", none),
      ("env", some "environment"), ("hosts", none), ("steps", none)]
  | environment => [("user", none), ("ssh_key", some "ssh_key_path"),
      ("python", some "python_interpreter"), ("become", none)]
  | hosts => []
  | host => [("addr", some "address"), ("env", some "environment")]
  | steps => []
  | step => [("name", none), ("command", none), ("become", none), ("stdin", none),
      ("msg", some "message"), ("loop", none)]

/-- What the items are of a part that is a list. -/
def item? : Part → Option Part
  | hosts => some host
  | steps => some step
  | _ => none

/-- The part that a field of a record is, unless it is a text or a truth value. -/
def field? : Part → String → Option Part
  | runbook, "env" => some environment
  | runbook, "hosts" => some hosts
  | runbook, "steps" => some steps
  | host, "env" => some environment
  | _, _ => none

theorem unambiguous {p : Part} {schema : Schema} (h : p.schema? = some schema) :
    schema.Unambiguous := by
  cases p <;> cases h <;> exact ⟨by decide, by decide, by decide, by decide⟩

theorem map_schema {p : Part} {schema : Schema} (h : p.schema? = some schema) :
    schema.map (fun f => (f.name, f.alias?)) = p.fields := by
  cases p <;> cases h <;> rfl

/-- Two trees that come to the same as a part, also where the part may be absent. -/
structure Agrees (p : Part) (t t' : Tree) : Prop where
  value : p.read? t = p.read? t'
  presence : t.presence = t'.presence

/-- What may differ between two records: the parts in their fields, if they come to the same. -/
def Same (p : Part) (name : String) (t t' : Tree) : Prop :=
  t = t' ∨ ∃ q, p.field? name = some q ∧ q.Agrees t t'

section Alike

variable {p q : Part} {r r' : Record} {name : String}

theorem get?_eq_of_alike (h : r.Alike p.Same r') (name : String) (hfield : p.field? name = none) :
    r.get? name = r'.get? name := by
  have hname := h name
  generalize r.get? name = o, r'.get? name = o' at hname
  cases hname with
  | none => rfl
  | some hsame =>
    rcases hsame with rfl | ⟨q, hq, -⟩
    · rfl
    · rw [hfield] at hq
      cases hq

theorem optional?_eq_of_plain {α : Type} (read : Tree → Option α) (h : r.Alike p.Same r')
    (name : String) (hfield : p.field? name = none) :
    r.optional? read name = r'.optional? read name := by
  rw [Record.optional?, Record.optional?, get?_eq_of_alike h name hfield]

theorem rel_get?_of_alike (h : r.Alike p.Same r') (hfield : p.field? name = some q) :
    Option.Rel q.Agrees (r.get? name) (r'.get? name) := by
  have hname := h name
  generalize r.get? name = o, r'.get? name = o' at hname
  cases hname with
  | none => exact .none
  | some hsame =>
    rcases hsame with rfl | ⟨q', hq', hagrees⟩
    · exact .some ⟨rfl, rfl⟩
    · obtain rfl := Option.some.inj (hfield.symm.trans hq')
      exact .some hagrees

theorem optional?_eq_of_part (h : r.Alike p.Same r') (name : String)
    (hfield : p.field? name = some q) : r.optional? q.read? name = r'.optional? q.read? name := by
  have hname := rel_get?_of_alike h hfield
  unfold Record.optional?
  generalize r.get? name = o, r'.get? name = o' at hname
  cases hname with
  | none => rfl
  | some hagrees => simp only [Tree.optional?, hagrees.presence, hagrees.value]

theorem withDefault?_eq_of_part (h : r.Alike p.Same r') (name : String)
    (hfield : p.field? name = some q) (default : q.Value) :
    r.withDefault? q.read? default name = r'.withDefault? q.read? default name := by
  have hname := rel_get?_of_alike h hfield
  unfold Record.withDefault?
  generalize r.get? name = o, r'.get? name = o' at hname
  cases hname with
  | none => rfl
  | some hagrees => exact hagrees.value

theorem read?_eq_of_alike {schema : Schema} (hschema : p.schema? = some schema) {t t' : Tree}
    (h : Option.Rel (Record.Alike p.Same) (Record.ofTree? schema false t)
      (Record.ofTree? schema false t')) : p.read? t = p.read? t' := by
  have hbind {α : Type} {f : Record → Option α}
      (hf : ∀ r r', r.Alike p.Same r' → f r = f r') :
      (Record.ofTree? schema false t).bind f = (Record.ofTree? schema false t').bind f := by
    generalize Record.ofTree? schema false t = o, Record.ofTree? schema false t' = o' at h
    cases h with
    | none => rfl
    | some halike => exact hf _ _ halike
  cases p with
  | hosts => cases hschema
  | steps => cases hschema
  | runbook =>
    obtain rfl := Option.some.inj hschema
    refine hbind fun r r' halike => ?_
    have hname := optional?_eq_of_plain Tree.text? halike "name" rfl
    have hdescription := optional?_eq_of_plain Tree.text? halike "description" rfl
    have hdebug := optional?_eq_of_plain Tree.flag? halike "debug" rfl
    have henvironment : r.withDefault? Environment.ofTree? {} "env" =
        r'.withDefault? Environment.ofTree? {} "env" :=
      withDefault?_eq_of_part (q := .environment) halike "env" rfl _
    have hhosts : r.withDefault? (Tree.items? · >>= (·.mapM HostDraft.ofTree?)) [] "hosts" =
        r'.withDefault? (Tree.items? · >>= (·.mapM HostDraft.ofTree?)) [] "hosts" :=
      withDefault?_eq_of_part (q := .hosts) halike "hosts" rfl _
    have hsteps : r.withDefault? (Tree.items? · >>= (·.mapM StepDraft.ofTree?)) [] "steps" =
        r'.withDefault? (Tree.items? · >>= (·.mapM StepDraft.ofTree?)) [] "steps" :=
      withDefault?_eq_of_part (q := .steps) halike "steps" rfl _
    simp only [hname, hdescription, hdebug, henvironment, hhosts, hsteps]
  | environment =>
    obtain rfl := Option.some.inj hschema
    refine hbind fun r r' halike => ?_
    have huser := optional?_eq_of_plain Tree.text? halike "user" rfl
    have hsshKey := optional?_eq_of_plain Tree.text? halike "ssh_key" rfl
    have hpython := optional?_eq_of_plain Tree.text? halike "python" rfl
    have hbecome := optional?_eq_of_plain Tree.flag? halike "become" rfl
    simp only [huser, hsshKey, hpython, hbecome]
  | host =>
    obtain rfl := Option.some.inj hschema
    refine hbind fun r r' halike => ?_
    have haddress := optional?_eq_of_plain Tree.text? halike "addr" rfl
    have henvironment : r.optional? Environment.ofTree? "env" =
        r'.optional? Environment.ofTree? "env" :=
      optional?_eq_of_part (q := .environment) halike "env" rfl
    simp only [haddress, henvironment]
  | step =>
    obtain rfl := Option.some.inj hschema
    refine hbind fun r r' halike => ?_
    have hname := optional?_eq_of_plain Tree.text? halike "name" rfl
    have hcommand := optional?_eq_of_plain Tree.text? halike "command" rfl
    have hbecome := optional?_eq_of_plain Tree.flag? halike "become" rfl
    have hstdin := optional?_eq_of_plain Tree.text? halike "stdin" rfl
    have hmessage := optional?_eq_of_plain Tree.text? halike "msg" rfl
    have hloop := optional?_eq_of_plain Tree.text? halike "loop" rfl
    simp only [hname, hcommand, hbecome, hstdin, hmessage, hloop]

end Alike

/-- A part that is there and cannot be read. -/
structure Refused (p : Part) (t : Tree) : Prop where
  value : p.read? t = none
  presence : t.presence = .present

theorem read?_eq_none_of_record {p : Part} {schema : Schema} (hschema : p.schema? = some schema)
    {t : Tree} (h : Record.ofTree? schema false t = none) : p.read? t = none := by
  have hbind {α : Type} {f : Record → Option α} : (Record.ofTree? schema false t).bind f = none := by
    rw [h, Option.bind_none]
  cases p <;> cases hschema <;> exact hbind

theorem read?_eq_none_of_field {p q : Part} {schema : Schema} (hschema : p.schema? = some schema)
    {t u : Tree} {name : String} (hfield : p.field? name = some q) (hu : q.Refused u)
    (hget : ∀ r, Record.ofTree? schema false t = some r → r.get? name = some u) :
    p.read? t = none := by
  have hbind {α : Type} {f : Record → Option α} (hf : ∀ r, r.get? name = some u → f r = none) :
      (Record.ofTree? schema false t).bind f = none := by
    cases hr : Record.ofTree? schema false t with
    | none => rfl
    | some r => exact hf r (hget r hr)
  have hoptional {r : Record} (hr : r.get? name = some u) : r.optional? q.read? name = none := by
    simp only [Record.optional?, hr, Tree.optional?, hu.presence, hu.value, Option.map_none]
  have hdefault {r : Record} (default : q.Value) (hr : r.get? name = some u) :
      r.withDefault? q.read? default name = none := by
    simp only [Record.withDefault?, hr, hu.value]
  unfold field? at hfield
  split at hfield <;> cases hfield <;> obtain rfl := Option.some.inj hschema
  · refine hbind fun r hr => ?_
    have henvironment : r.withDefault? Environment.ofTree? {} "env" = none := hdefault _ hr
    simp only [henvironment, Option.bind_eq_bind, Option.bind_none, Option.bind_fun_none]
  · refine hbind fun r hr => ?_
    have hhosts : r.withDefault? (Tree.items? · >>= (·.mapM HostDraft.ofTree?)) [] "hosts" = none :=
      hdefault _ hr
    simp only [hhosts]
    simp only [Option.bind_eq_bind, Option.bind_none, Option.bind_fun_none]
  · refine hbind fun r hr => ?_
    have hsteps : r.withDefault? (Tree.items? · >>= (·.mapM StepDraft.ofTree?)) [] "steps" = none :=
      hdefault _ hr
    simp only [hsteps]
    simp only [Option.bind_eq_bind, Option.bind_none, Option.bind_fun_none]
  · refine hbind fun r hr => ?_
    have henvironment : r.optional? Environment.ofTree? "env" = none := hoptional hr
    simp only [henvironment, Option.bind_eq_bind, Option.bind_none, Option.bind_fun_none]

end Part

/-- Where a part stands in another one: the tree of the outer part for every tree of the inner one. -/
inductive Place : Part → Part → (Tree → Tree) → Prop
  | here {p : Part} : Place p p id
  | entry {p q inner : Part} {c : Tree → Tree} {schema : Schema} {tag choice : Option String}
      {before after : List (Tree × Tree)} {key : Tree} {k name : String}
      (hschema : p.schema? = some schema) (hkey : key.text? = some k)
      (hname : schema.canonical? k = some name) (hfield : p.field? name = some q)
      (hplace : Place q inner c) :
      Place p inner fun t => .table tag choice (before ++ (key, c t) :: after)
  | cell {p q inner : Part} {c : Tree → Tree} {front back : Schema} {f : Field}
      {tag : Option String} {row : Row} {before after : List Tree}
      (hschema : p.schema? = some (front ++ f :: back)) (hfront : front.length = before.length)
      (hfield : p.field? f.name = some q) (hplace : Place q inner c) :
      Place p inner fun t => .list tag row (before ++ c t :: after)
  | item {p q inner : Part} {c : Tree → Tree} {tag : Option String} {row : Row}
      {before after : List Tree} (hitem : p.item? = some q) (hplace : Place q inner c) :
      Place p inner fun t => .list tag row (before ++ c t :: after)
  | again {p inner : Part} {c : Tree → Tree} (hplace : Place p inner c) :
      Place p inner fun t => .alias (c t)

namespace Part

variable {p q : Part}

theorem read?_alias (p : Part) (t : Tree) : p.read? (.alias t) = p.read? t := by
  cases p <;> rfl

section Items

variable {α : Type} {before after : List Tree} {t t' : Tree}

theorem mapM_congr_at (read : Tree → Option α) (h : read t = read t') :
    (before ++ t :: after).mapM read = (before ++ t' :: after).mapM read := by
  rw [List.mapM_append, List.mapM_append, List.mapM_cons, List.mapM_cons, h]

theorem mapM_eq_none_at (read : Tree → Option α) (h : read t = none) :
    (before ++ t :: after).mapM read = none := by
  rw [List.mapM_append, List.mapM_cons, h]
  cases before.mapM read <;> rfl

variable (tag : Option String) (row : Row)

theorem read?_list_congr (hitem : p.item? = some q) (h : q.read? t = q.read? t') :
    p.read? (.list tag row (before ++ t :: after)) =
      p.read? (.list tag row (before ++ t' :: after)) := by
  cases p with
  | hosts =>
    obtain rfl := Option.some.inj hitem
    exact mapM_congr_at HostDraft.ofTree? h
  | steps =>
    obtain rfl := Option.some.inj hitem
    exact mapM_congr_at StepDraft.ofTree? h
  | _ => cases hitem

theorem read?_list_eq_none (hitem : p.item? = some q) (h : q.read? t = none) :
    p.read? (.list tag row (before ++ t :: after)) = none := by
  cases p with
  | hosts =>
    obtain rfl := Option.some.inj hitem
    exact mapM_eq_none_at HostDraft.ofTree? h
  | steps =>
    obtain rfl := Option.some.inj hitem
    exact mapM_eq_none_at StepDraft.ofTree? h
  | _ => cases hitem

end Items

end Part

namespace Place

variable {p q : Part} {c : Tree → Tree}

/-- A part depends on the parts in it by what they come to only. -/
theorem agrees (h : Place p q c) {t t' : Tree} (ht : q.Agrees t t') : p.Agrees (c t) (c t') := by
  -- By induction on the way in, from the inner part outwards. Tables and lists are never absent.
  induction h with
  | here => exact ht
  | @entry p q inner c schema tag choice before after key k name hschema hkey hname hfield _ ih =>
    refine ⟨Part.read?_eq_of_alike hschema ?_, rfl⟩
    exact Record.rel_ofTree?_entry hkey hname (fun _ _ => .inl rfl) (.inr ⟨q, hfield, ih ht⟩)
  | @cell p q inner c front back f tag row before after hschema hfront hfield _ ih =>
    refine ⟨Part.read?_eq_of_alike hschema ?_, rfl⟩
    exact Record.rel_ofTree?_cell hfront (fun _ _ => .inl rfl) (.inr ⟨q, hfield, ih ht⟩)
  | item hitem _ ih => exact ⟨Part.read?_list_congr _ _ hitem (ih ht).value, rfl⟩
  | @again p _ _ _ ih =>
    refine ⟨?_, (ih ht).presence⟩
    rw [Part.read?_alias, Part.read?_alias, (ih ht).value]

/-- A part is refused wherever a part in it is. -/
theorem refused (h : Place p q c) {t : Tree} (ht : q.Refused t) : p.Refused (c t) := by
  induction h with
  | here => exact ht
  | entry hschema hkey hname hfield _ ih =>
    refine ⟨Part.read?_eq_none_of_field hschema hfield (ih ht) fun r hr => ?_, rfl⟩
    exact Record.get?_of_entry hkey hname hr
  | cell hschema hfront hfield _ ih =>
    refine ⟨Part.read?_eq_none_of_field hschema hfield (ih ht) fun r hr => ?_, rfl⟩
    exact Record.get?_of_cell hfront (Part.unambiguous hschema).nodup hr
  | item hitem _ ih => exact ⟨Part.read?_list_eq_none _ _ hitem (ih ht).value, rfl⟩
  | again _ ih => exact ⟨(Part.read?_alias _ _).trans (ih ht).value, (ih ht).presence⟩

end Place

/-- One record of a source is spelt in another way. -/
inductive Respelling : Tree → Tree → Prop
  | mk {p : Part} {c : Tree → Tree} {schema : Schema} {tag choice choice' : Option String}
      {es es' : List (Tree × Tree)} (hplace : Place .runbook p c)
      (hschema : p.schema? = some schema) (hentries : Record.Respells schema es es') :
      Respelling (c (.table tag choice es)) (c (.table tag choice' es'))

/-- One record of a source holds a field by its name and by its alias. -/
inductive Doubled : Tree → Prop
  | mk {p : Part} {c : Tree → Tree} {schema : Schema} {tag choice : Option String}
      {es : List (Tree × Tree)} {f : Field} {a : String} {key key' v v' : Tree}
      (hplace : Place .runbook p c) (hschema : p.schema? = some schema) (hf : f ∈ schema)
      (ha : f.alias? = some a) (hkey : key.text? = some f.name) (hkey' : key'.text? = some a)
      (hmem : (key, v) ∈ es) (hmem' : (key', v') ∈ es) : Doubled (c (.table tag choice es))

theorem ofTree?_eq_of_respelling {t t' : Tree} (h : Respelling t t') : ofTree? t = ofTree? t' := by
  cases h with
  | @mk p c schema tag choice choice' es es' hplace hschema hentries =>
    have hsame (name : String) (t : Tree) : p.Same name t t := .inl rfl
    have hrecord : Option.Rel (Record.Alike p.Same)
        (Record.ofTree? schema false (.table tag choice es))
        (Record.ofTree? schema false (.table tag choice' es')) :=
      hentries.rel_ofTree? (Part.unambiguous hschema) hsame
    exact (hplace.agrees ⟨Part.read?_eq_of_alike hschema hrecord, rfl⟩).value

theorem ofTree?_eq_of_eqvGen {t t' : Tree} (h : Relation.EqvGen Respelling t t') :
    ofTree? t = ofTree? t' := by
  induction h with
  | rel _ _ h => exact ofTree?_eq_of_respelling h
  | refl _ => rfl
  | symm _ _ _ ih => exact ih.symm
  | trans _ _ _ _ _ ih ih' => exact ih.trans ih'

theorem ofTree?_eq_none_of_doubled {t : Tree} (h : Doubled t) : ofTree? t = none := by
  obtain ⟨hplace, hschema, hf, ha, hkey, hkey', hmem, hmem'⟩ := h
  refine (hplace.refused ⟨Part.read?_eq_none_of_record hschema ?_, rfl⟩).value
  exact Record.ofTree?_of_clash (Part.unambiguous hschema) hf ha hkey hkey' hmem hmem'

/-- The notations in which a source is read: where the notation is not known, YAML after TOML if the
source is no draft in TOML. -/
def tried (format : SourceFormat) (source : String) : List Notation :=
  match format with
  | some n => [n]
  | none =>
    match ofText? .toml source with
    | .ok _ => [.toml]
    | .error _ => [.toml, .yaml]

section Sources

variable {n : Notation} {source source' : String}

/-- In a notation, two sources are documents that differ in their spelling at most, or neither is a
document. -/
def SpeltAlike (n : Notation) (source source' : String) : Prop :=
  Option.Rel (Relation.EqvGen Respelling) (n.readTree? source) (n.readTree? source')

theorem ofText?_eq_of_speltAlike (h : SpeltAlike n source source') :
    ofText? n source = ofText? n source' := by
  unfold SpeltAlike at h
  unfold ofText?
  generalize n.readTree? source = o, n.readTree? source' = o' at h
  cases h with
  | none => rfl
  | some htrees =>
    simp only [Option.bind_eq_bind, Option.bind_some, ofTree?_eq_of_eqvGen htrees]

theorem ofText?_eq_error_of_doubled (h : ∀ t, n.readTree? source = some t → Doubled t) :
    ofText? n source = .error n := by
  unfold ofText?
  cases ht : n.readTree? source with
  | none => rfl
  | some t => simp only [Option.bind_eq_bind, Option.bind_some, ofTree?_eq_none_of_doubled (h t ht)]

end Sources

/-- Sources are read by the names of their fields only. However the records of a source are respelt,
it comes to the same draft or still to none; with a field doubled in one of its records there is
none. -/
theorem reads_by_name :
    (∀ t t', Relation.EqvGen Respelling t t' → ofTree? t = ofTree? t') ∧
    (∀ t, Doubled t → ofTree? t = none) ∧
    (∀ format source source', (∀ n ∈ tried format source, SpeltAlike n source source') →
      parse format source = parse format source') ∧
    (∀ format source,
      (∀ n ∈ tried format source, ∀ t, n.readTree? source = some t → Doubled t) →
        parse format source = .error (format.getD .toml)) ∧
    ∀ (p : Part) schema, p.schema? = some schema →
      schema.map (fun f => (f.name, f.alias?)) = p.fields := by
  refine ⟨fun t t' => ofTree?_eq_of_eqvGen, fun t => ofTree?_eq_none_of_doubled, ?_, ?_,
    fun p schema => Part.map_schema⟩
  · intro format source source' h
    cases format with
    | some n => exact ofText?_eq_of_speltAlike (h n List.mem_cons_self)
    | none =>
      unfold tried at h
      unfold parse
      cases htoml : ofText? .toml source with
      | ok d =>
        rw [htoml] at h
        have htoml' := ofText?_eq_of_speltAlike (h .toml List.mem_cons_self)
        simp only [← htoml', htoml]
      | error n =>
        rw [htoml] at h
        have htoml' := ofText?_eq_of_speltAlike (h .toml List.mem_cons_self)
        have hyaml := ofText?_eq_of_speltAlike (h .yaml (.tail _ List.mem_cons_self))
        simp only [← htoml', htoml, hyaml]
  · intro format source h
    cases format with
    | some n => exact ofText?_eq_error_of_doubled (h n List.mem_cons_self)
    | none =>
      have hfirst : .toml ∈ tried none source := by
        unfold tried
        cases ofText? .toml source <;> exact List.mem_cons_self
      have htoml := ofText?_eq_error_of_doubled (h .toml hfirst)
      have hsecond : .yaml ∈ tried none source := by
        unfold tried
        rw [htoml]
        exact .tail _ List.mem_cons_self
      have hyaml := ofText?_eq_error_of_doubled (h .yaml hsecond)
      simp only [parse, htoml, hyaml]
      rfl

/-- A host whose environment gives its key by the alias, in a runbook whose entries are turned round;
and a host with two environments. -/
theorem reads_by_name_json :
    let source : Json := .object [("name", .string "a"), ("hosts", .array [.object [
      ("addr", .string "web"), ("env", .object [("ssh_key", .string "k")])]])]
    let respelt : Json := .object [("hosts", .array [.object [
      ("addr", .string "web"), ("env", .object [("ssh_key_path", .string "k")])]]),
      ("name", .string "a")]
    let doubled : Json := .object [("hosts", .array [.object [
      ("env", .object []), ("environment", .object [])]])]
    let draft : HostDraft := { address := some "web", environment := some { sshKey := some "k" } }
    Relation.EqvGen Respelling source.tree respelt.tree ∧ Doubled doubled.tree ∧
      ofTree? source.tree = ofTree? respelt.tree ∧ ofTree? doubled.tree = none ∧
      ofTree? source.tree = some { name := some "a", hosts := [draft] } ∧
      parse (some .json) source.text = parse (some .json) respelt.text ∧
      parse (some .json) doubled.text = .error .json := by
  intro source respelt doubled draft
  let host (environment : Tree) : Tree :=
    .table none none [(.ofText "addr", .ofText "web"), (.ofText "env", environment)]
  let runbook (host : Tree) : Tree :=
    .table none none [(.ofText "name", .ofText "a"), (.ofText "hosts", .list none .exact [host])]
  have hhost : Place .host .environment host :=
    @Place.entry .host .environment .environment id HostDraft.schema none none
      [(.ofText "addr", .ofText "web")] [] (.ofText "env") "env" "env" rfl rfl rfl rfl .here
  have hhosts : Place .hosts .environment fun t => .list none .exact [host t] :=
    @Place.item .hosts .host .environment host none .exact [] [] rfl hhost
  have hrunbook : Place .runbook .environment fun t => runbook (host t) :=
    @Place.entry .runbook .hosts .environment _ schema none none
      [(.ofText "name", .ofText "a")] [] (.ofText "hosts") "hosts" "hosts" rfl rfl rfl rfl hhosts
  have hrenamed : Respelling (runbook (host (.table none none [(.ofText "ssh_key", .ofText "k")])))
      (runbook (host (.table none none [(.ofText "ssh_key_path", .ofText "k")]))) :=
    @Respelling.mk .environment (runbook ∘ host) Environment.schema none none none _ _ hrunbook rfl
      (@Record.Respells.renamed Environment.schema [] [] (.ofText "ssh_key")
        (.ofText "ssh_key_path") (.ofText "k") ⟨"ssh_key", some "ssh_key_path"⟩ "ssh_key_path"
        (by decide) rfl rfl rfl)
  have hreordered :
      Respelling (runbook (host (.table none none [(.ofText "ssh_key_path", .ofText "k")])))
        respelt.tree :=
    @Respelling.mk .runbook id schema none none none _ _ .here rfl (.reordered (.swap _ _ []))
  have hspelt : Relation.EqvGen Respelling source.tree respelt.tree :=
    .trans _ _ _ (.rel _ _ hrenamed) (.rel _ _ hreordered)
  have hdoubled : Doubled doubled.tree := by
    have hplace : Place .runbook .host fun t =>
        .table none none [(.ofText "hosts", .list none .exact [t])] :=
      @Place.entry .runbook .hosts .host _ schema none none [] [] (.ofText "hosts") "hosts" "hosts"
        rfl rfl rfl rfl (@Place.item .hosts .host .host id none .exact [] [] rfl .here)
    exact @Doubled.mk .host _ HostDraft.schema none none
      [(.ofText "env", .table none none []), (.ofText "environment", .table none none [])]
      ⟨"env", some "environment"⟩ "environment" (.ofText "env") (.ofText "environment")
      (.table none none []) (.table none none []) hplace rfl (by decide) rfl rfl rfl
      List.mem_cons_self (.tail _ List.mem_cons_self)
  refine ⟨hspelt, hdoubled, reads_by_name.1 _ _ hspelt, reads_by_name.2.1 _ hdoubled, by decide,
    ?_, ?_⟩
  · refine reads_by_name.2.2.1 (some .json) source.text respelt.text fun n hn => ?_
    obtain rfl := List.mem_singleton.mp hn
    simp only [SpeltAlike, Notation.readTree?, Json.readTree?_text]
    exact .some hspelt
  · refine reads_by_name.2.2.2.1 (some .json) doubled.text fun n hn t ht => ?_
    obtain rfl := List.mem_singleton.mp hn
    rw [Notation.readTree?, Json.readTree?_text] at ht
    obtain rfl := Option.some.inj ht
    exact hdoubled

end Draft

end Runbooks
