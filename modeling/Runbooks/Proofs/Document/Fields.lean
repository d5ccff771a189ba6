import Mathlib.Data.List.Perm.Subperm
import Runbooks.Proofs.Document.Records

/-!
Records as the fields that their entries give. How a record is spelt does not matter: neither the
order of its entries, nor whether a field is given by its name or its alias, nor an entry that gives
no field. A field that is given by its name and its alias leaves no record at all.
-/

namespace Runbooks

/-- Every field is found by its name and by its alias, and these are two. -/
structure Schema.Unambiguous (s : Schema) : Prop where
  byName : ∀ f ∈ s, s.canonical? f.name = some f.name
  byAlias : ∀ f ∈ s, ∀ a ∈ f.alias?, s.canonical? a = some f.name
  apart : ∀ f ∈ s, f.alias? ≠ some f.name
  nodup : (s.map Field.name).Nodup

theorem Schema.canonical?_eq_none {s : Schema} {key : String}
    (h : ∀ f ∈ s, f.answers key = false) : s.canonical? key = none := by
  rw [canonical?, Option.map_eq_none_iff, List.find?_eq_none]
  exact fun f hf => Bool.eq_false_iff.mp (h f hf)

namespace Record

section Lookup

variable {l l' : List (String × Tree)} {name : String} {t : Tree}

theorem lookup_eq_some_iff (h : (l.map Prod.fst).Nodup) :
    l.lookup name = some t ↔ (name, t) ∈ l := by
  constructor
  · intro hl
    have hget : get? ⟨l⟩ name = some t := hl
    exact mem_entries_of_get? hget
  · intro hl
    obtain ⟨before, after, rfl⟩ := List.append_of_mem hl
    refine List.lookup_eq_some_iff.mpr ⟨before, after, rfl, fun e he => bne_iff_ne.mpr ?_⟩
    rw [List.map_append, List.map_cons, List.nodup_append] at h
    exact (h.2.2 e.1 (List.mem_map_of_mem he) name List.mem_cons_self).symm

theorem lookup_eq_of_perm (h : l.Perm l') (hnodup : (l.map Prod.fst).Nodup) (name : String) :
    l.lookup name = l'.lookup name := by
  have hnodup' : (l'.map Prod.fst).Nodup := (h.map Prod.fst).nodup_iff.mp hnodup
  apply Option.ext
  intro t
  rw [lookup_eq_some_iff hnodup, lookup_eq_some_iff hnodup', h.mem_iff]

end Lookup

section Known

variable {schema : Schema} {es es' before after : List (Tree × Tree)} {e : Tree × Tree}
  {k : String}

/-- What an entry with a text for its key gives: a field under its own name, or nothing. -/
def gives? (schema : Schema) (e : Tree × Tree) : Option (List (String × Tree)) :=
  e.1.text?.map fun k => ((schema.canonical? k).map (·, e.2)).toList

theorem gives?_eq (h : e.1.text? = some k) :
    gives? schema e = some ((schema.canonical? k).map (·, e.2)).toList := by
  rw [gives?, h, Option.map_some]

/-- The fields that the entries of a table give, each by its own name. -/
def known? (schema : Schema) (entries : List (Tree × Tree)) : Option (List (String × Tree)) :=
  (named? entries).map fun named => named.filterMap fun e => (schema.canonical? e.1).map (·, e.2)

theorem ofTree?_table_eq (schema : Schema) (complete : Bool) (tag choice : Option String)
    (es : List (Tree × Tree)) :
    ofTree? schema complete (.table tag choice es) = (known? schema es).bind fun known =>
      if (known.map Prod.fst).Nodup then some ⟨known⟩ else none := by
  change (named? es).bind _ = _
  unfold known?
  cases named? es <;> rfl

theorem known?_cons (schema : Schema) (e : Tree × Tree) (es : List (Tree × Tree)) :
    known? schema (e :: es) =
      (gives? schema e).bind fun given => (known? schema es).map (given ++ ·) := by
  obtain ⟨key, v⟩ := e
  unfold known? gives?
  cases hkey : key.text? with
  | none =>
    have hnamed : named? ((key, v) :: es) = none := by
      rw [named?, List.mapM_cons]
      simp only [hkey]
      rfl
    rw [hnamed]
    rfl
  | some k =>
    rw [named?_cons hkey]
    cases named? es with
    | none => rfl
    | some named =>
      simp only [Option.map_some, Option.bind_some, List.filterMap_cons]
      cases schema.canonical? k <;> rfl

theorem known?_append (schema : Schema) (es es' : List (Tree × Tree)) :
    known? schema (es ++ es') =
      (known? schema es).bind fun known => (known? schema es').map (known ++ ·) := by
  induction es with
  | nil =>
    have hnone : known? schema [] = some [] := rfl
    rw [hnone, List.nil_append]
    cases known? schema es' <;> rfl
  | cons e es ih =>
    rw [List.cons_append, known?_cons, known?_cons, ih]
    cases gives? schema e <;> cases known? schema es <;> cases known? schema es' <;> simp

theorem known?_congr_at {e' : Tree × Tree} (h : gives? schema e = gives? schema e') :
    known? schema (before ++ e :: after) = known? schema (before ++ e' :: after) := by
  rw [known?_append, known?_append, known?_cons, known?_cons, h]

theorem known?_insert (h : gives? schema e = some []) :
    known? schema (before ++ e :: after) = known? schema (before ++ after) := by
  rw [known?_append, known?_append, known?_cons, h]
  cases known? schema after <;> rfl

theorem known?_of_perm (h : es.Perm es') :
    Option.Rel List.Perm (known? schema es) (known? schema es') := by
  induction h with
  | nil => exact .some .nil
  | @cons e es es' _ ih =>
    rw [known?_cons, known?_cons]
    generalize known? schema es = known, known? schema es' = known' at ih
    cases gives? schema e with
    | none => exact .none
    | some given =>
      cases ih with
      | none => exact .none
      | some hperm => exact .some (hperm.append_left given)
  | swap e e' es =>
    simp only [known?_cons]
    cases gives? schema e with
    | none => cases gives? schema e' <;> exact .none
    | some given =>
      cases gives? schema e' with
      | none => exact .none
      | some given' =>
        cases known? schema es with
        | none => exact .none
        | some known => exact .some (List.perm_append_comm_assoc given' given known)
  | @trans es es' es'' _ _ ih ih' =>
    generalize known? schema es = known, known? schema es' = known',
      known? schema es'' = known'' at ih ih'
    cases ih with
    | none => exact ih'
    | some hperm =>
      cases ih' with
      | some hperm' => exact .some (hperm.trans hperm')

theorem known?_field {key v : Tree} {name : String} (hkey : key.text? = some k)
    (hname : schema.canonical? k = some name) :
    known? schema (before ++ (key, v) :: after) = (known? schema before).bind fun a =>
      (known? schema after).map fun b => a ++ (name, v) :: b := by
  have hgives : gives? schema (key, v) = some [(name, v)] := by
    rw [gives?_eq hkey, hname]
    rfl
  rw [known?_append, known?_cons, hgives]
  cases known? schema after <;> rfl

end Known

/-- Two records with the same fields, whose values are related name by name. -/
def Alike (R : String → Tree → Tree → Prop) (r r' : Record) : Prop :=
  ∀ name, Option.Rel (R name) (r.get? name) (r'.get? name)

/-- One change to the entries of a table that leaves the fields as they are: a field is given by its
alias, the entries are put in another order, an entry that gives no field is added. -/
inductive Respells (schema : Schema) : List (Tree × Tree) → List (Tree × Tree) → Prop
  | renamed {before after : List (Tree × Tree)} {key key' v : Tree} {f : Field} {a : String}
      (hf : f ∈ schema) (ha : f.alias? = some a) (hkey : key.text? = some f.name)
      (hkey' : key'.text? = some a) :
      Respells schema (before ++ (key, v) :: after) (before ++ (key', v) :: after)
  | reordered {es es' : List (Tree × Tree)} (hperm : es.Perm es') : Respells schema es es'
  | added {before after : List (Tree × Tree)} {key v : Tree} {k : String}
      (hkey : key.text? = some k) (hk : ∀ f ∈ schema, f.answers k = false) :
      Respells schema (before ++ after) (before ++ (key, v) :: after)

section Reading

variable {schema : Schema} {complete : Bool} {tag choice choice' : Option String}
  {es es' : List (Tree × Tree)} {R : String → Tree → Tree → Prop}

theorem rel_refl {α : Type} {R : α → α → Prop} (hR : ∀ a, R a a) (o : Option α) :
    Option.Rel R o o := by
  cases o with
  | none => exact .none
  | some a => exact .some (hR a)

theorem Respells.known?_perm (h : Respells schema es es') (hschema : schema.Unambiguous) :
    Option.Rel List.Perm (known? schema es) (known? schema es') := by
  cases h with
  | @renamed before after key key' v f a hf ha hkey hkey' =>
    have hgives : gives? schema (key, v) = gives? schema (key', v) := by
      rw [gives?_eq hkey, gives?_eq hkey', hschema.byName f hf, hschema.byAlias f hf a ha]
    rw [known?_congr_at hgives]
    exact rel_refl .refl _
  | reordered hperm => exact known?_of_perm hperm
  | @added before after key v k hkey hk =>
    have hgives : gives? schema (key, v) = some [] := by
      rw [gives?_eq hkey, Schema.canonical?_eq_none hk]
      rfl
    rw [known?_insert hgives]
    exact rel_refl .refl _

/-- Entries that are spelt in another way make up the same record, or none as before. -/
theorem Respells.rel_ofTree? (h : Respells schema es es') (hschema : schema.Unambiguous)
    (hR : ∀ name t, R name t t) :
    Option.Rel (Alike R) (ofTree? schema complete (.table tag choice es))
      (ofTree? schema complete (.table tag choice' es')) := by
  have hperm := h.known?_perm hschema
  rw [ofTree?_table_eq, ofTree?_table_eq]
  generalize known? schema es = known, known? schema es' = known' at hperm
  cases hperm with
  | none => exact .none
  | @some known known' hperm =>
    have hnodup : (known.map Prod.fst).Nodup ↔ (known'.map Prod.fst).Nodup :=
      (hperm.map Prod.fst).nodup_iff
    simp only [Option.bind_some]
    by_cases hdistinct : (known.map Prod.fst).Nodup
    · rw [if_pos hdistinct, if_pos (hnodup.mp hdistinct)]
      refine .some fun name => ?_
      change Option.Rel (R name) (known.lookup name) (known'.lookup name)
      rw [lookup_eq_of_perm hperm hdistinct name]
      exact rel_refl (hR name) _
    · rw [if_neg hdistinct, if_neg (mt hnodup.mpr hdistinct)]
      exact .none

theorem ofTree?_of_clash (hschema : schema.Unambiguous) {f : Field} {a : String} (hf : f ∈ schema)
    (ha : f.alias? = some a) {key key' v v' : Tree} (hkey : key.text? = some f.name)
    (hkey' : key'.text? = some a) (hmem : (key, v) ∈ es) (hmem' : (key', v') ∈ es) :
    ofTree? schema complete (.table tag choice es) = none := by
  have hne : (key, v) ≠ (key', v') := by
    intro heq
    obtain ⟨rfl, rfl⟩ := Prod.mk.inj heq
    exact hschema.apart f hf (ha.trans (hkey'.symm.trans hkey))
  have hboth : [(key, v), (key', v')].Subperm es :=
    List.subperm_of_subset (by simp [hne]) (by simp [hmem, hmem'])
  obtain ⟨both, hboth, hsublist⟩ := hboth
  obtain ⟨rest, hrest⟩ := hsublist.exists_perm_append
  have hperm : es.Perm ((key, v) :: (key', v') :: rest) := hrest.trans (hboth.append_right rest)
  have hfront : Option.Rel List.Perm (known? schema es)
      (known? schema ((key, v) :: (key', v') :: rest)) := known?_of_perm hperm
  rw [known?_cons, known?_cons, gives?_eq hkey, gives?_eq hkey', hschema.byName f hf,
    hschema.byAlias f hf a ha] at hfront
  rw [ofTree?_table_eq]
  generalize known? schema es = known, known? schema rest = others at hfront
  cases others with
  | none =>
    cases hfront with
    | none => rfl
  | some others =>
    cases hfront with
    | some hknown =>
      refine if_neg fun hnodup => ?_
      have hnames := (hknown.map Prod.fst).nodup_iff.mp hnodup
      exact (List.nodup_cons.mp hnames).1 List.mem_cons_self

theorem rel_lookup_at (hR : ∀ name t, R name t t) {name : String} {v v' : Tree}
    (hv : R name v v') (a b : List (String × Tree)) (other : String) :
    Option.Rel (R other) ((a ++ (name, v) :: b).lookup other)
      ((a ++ (name, v') :: b).lookup other) := by
  rw [List.lookup_append, List.lookup_append, List.lookup_cons, List.lookup_cons]
  cases a.lookup other with
  | some t => exact .some (hR other t)
  | none =>
    by_cases hname : other = name
    · obtain rfl := hname
      rw [beq_self_eq_true]
      exact .some hv
    · rw [beq_false_of_ne hname]
      exact rel_refl (hR other) _

section Entry

variable {before after : List (Tree × Tree)} {key v v' : Tree} {k name : String}

theorem rel_ofTree?_entry (hkey : key.text? = some k) (hname : schema.canonical? k = some name)
    (hR : ∀ name t, R name t t) (hv : R name v v') :
    Option.Rel (Alike R) (ofTree? schema complete (.table tag choice (before ++ (key, v) :: after)))
      (ofTree? schema complete (.table tag choice (before ++ (key, v') :: after))) := by
  rw [ofTree?_table_eq, ofTree?_table_eq, known?_field hkey hname, known?_field hkey hname]
  cases known? schema before with
  | none => exact .none
  | some a =>
    cases known? schema after with
    | none => exact .none
    | some b =>
      simp only [Option.bind_some, Option.map_some, List.map_append, List.map_cons]
      split
      · exact .some (rel_lookup_at hR hv a b)
      · exact .none

theorem get?_of_entry (hkey : key.text? = some k) (hname : schema.canonical? k = some name)
    {r : Record}
    (hr : ofTree? schema complete (.table tag choice (before ++ (key, v) :: after)) = some r) :
    r.get? name = some v := by
  rw [ofTree?_table_eq, known?_field hkey hname] at hr
  obtain ⟨known, hknown, hr⟩ := Option.bind_eq_some_iff.mp hr
  obtain ⟨a, -, hknown⟩ := Option.bind_eq_some_iff.mp hknown
  obtain ⟨b, -, rfl⟩ := Option.map_eq_some_iff.mp hknown
  split at hr
  · rename_i hnodup
    obtain rfl := Option.some.inj hr
    exact (lookup_eq_some_iff hnodup).mpr (List.mem_append_right a List.mem_cons_self)
  · cases hr

end Entry

section Cell

variable {row : Row} {before after : List Tree} {t t' : Tree} {front back : Schema} {f : Field}

/-- The fields of a row whose cell under `f` stands behind as many cells as there are fields before
`f`. -/
theorem ofTree?_row (hfront : front.length = before.length) :
    ofTree? (front ++ f :: back) complete (.list tag row (before ++ t :: after)) =
      if rowFits row complete (front ++ f :: back).length (before.length + 1 + after.length) then
        some ⟨(front.map Field.name).zip before ++
          (f.name, t) :: (back.map Field.name).zip after⟩
      else none := by
  have hzip : ((front ++ f :: back).map Field.name).zip (before ++ t :: after) =
      (front.map Field.name).zip before ++ (f.name, t) :: (back.map Field.name).zip after := by
    rw [List.map_append, List.zip_append (by rw [List.length_map, hfront])]
    rfl
  have hlength : (before ++ t :: after).length = before.length + 1 + after.length := by
    rw [List.length_append, List.length_cons]
    omega
  rw [ofTree?, hzip, hlength]

theorem rel_ofTree?_cell (hfront : front.length = before.length) (hR : ∀ name t, R name t t)
    (ht : R f.name t t') :
    Option.Rel (Alike R)
      (ofTree? (front ++ f :: back) complete (.list tag row (before ++ t :: after)))
      (ofTree? (front ++ f :: back) complete (.list tag row (before ++ t' :: after))) := by
  rw [ofTree?_row hfront, ofTree?_row hfront]
  split
  · exact .some (rel_lookup_at hR ht _ _)
  · exact .none

theorem get?_of_cell (hfront : front.length = before.length)
    (hnodup : ((front ++ f :: back).map Field.name).Nodup) {r : Record}
    (hr : ofTree? (front ++ f :: back) complete (.list tag row (before ++ t :: after)) = some r) :
    r.get? f.name = some t := by
  rw [ofTree?_row hfront] at hr
  split at hr
  · obtain rfl := Option.some.inj hr
    have hnew : ((front.map Field.name).zip before).lookup f.name = none := by
      refine List.lookup_eq_none_iff.mpr fun e he => bne_iff_ne.mpr ?_
      rw [List.map_append, List.map_cons, List.nodup_append] at hnodup
      exact (hnodup.2.2 e.1 (List.of_mem_zip he).1 f.name List.mem_cons_self).symm
    rw [get?, List.lookup_append, hnew, List.lookup_cons_self]
    rfl
  · cases hr

end Cell

end Reading

end Record

end Runbooks
