import Runbooks.Proofs.Document.Records

namespace Runbooks

namespace Json

/-- The members that have a value. -/
def present (fields : List (String × Option Json)) : List (String × Json) :=
  fields.filterMap fun f => f.2.map (f.1, ·)

theorem names_present_sublist (fields : List (String × Option Json)) :
    ((present fields).map Prod.fst).Sublist (fields.map Prod.fst) := by
  induction fields with
  | nil => exact .slnil
  | cons f fields ih =>
    obtain ⟨name, value⟩ := f
    cases value with
    | none => exact ih.cons name
    | some v => exact ih.cons_cons name

theorem lookup_present {fields : List (String × Option Json)} {name : String} {o : Option Json}
    (hnodup : (fields.map Prod.fst).Nodup) (hmem : (name, o) ∈ fields) :
    (present fields).lookup name = o := by
  induction fields with
  | nil => cases hmem
  | cons f fields ih =>
    obtain ⟨first, value⟩ := f
    obtain ⟨hnew, hlater⟩ := List.nodup_cons.mp hnodup
    rcases List.mem_cons.mp hmem with hhere | hthere
    · obtain ⟨rfl, rfl⟩ := Prod.mk.inj hhere
      cases o with
      | some v => exact List.lookup_cons_self
      | none =>
        change (present fields).lookup name = none
        refine List.lookup_eq_none_iff.mpr fun e he => bne_iff_ne.mpr ?_
        rintro rfl
        exact hnew ((names_present_sublist fields).subset (List.mem_map_of_mem he))
    · have hne : name ≠ first := by
        rintro rfl
        exact hnew (List.mem_map.mpr ⟨_, hthere, rfl⟩)
      cases value with
      | none => exact ih hlater hthere
      | some v =>
        change ((first, v) :: present fields).lookup name = o
        rw [List.lookup_cons, beq_false_of_ne hne]
        exact ih hlater hthere

end Json

namespace Record

/-- The fields of a record are the members of a value: each is there as it was written, and there
are no others. -/
structure Holds (r : Record) (ms : List (String × Json)) : Prop where
  shows : r.Shows ms
  only : ∀ name, ms.lookup name = none → r.get? name = none

theorem exists_holds {schema : Schema} {t : Tree} {ms : List (String × Json)}
    (h : t.Says (.object ms))
    (hknown : ∀ name ∈ ms.map Prod.fst, schema.canonical? name = some name)
    (hnodup : (ms.map Prod.fst).Nodup) : ∃ r, ofTree? schema false t = some r ∧ r.Holds ms := by
  obtain ⟨r, hr, hnames, hshows⟩ := exists_shows h hknown hnodup
  refine ⟨r, hr false, hshows, fun name hname => ?_⟩
  refine List.lookup_eq_none_iff.mpr fun e he => bne_iff_ne.mpr ?_
  rintro rfl
  have hmem : e.1 ∈ ms.map Prod.fst := hnames ▸ List.mem_map_of_mem he
  obtain ⟨m, hm, heq⟩ := List.mem_map.mp hmem
  exact absurd heq.symm (bne_iff_ne.mp (List.lookup_eq_none_iff.mp hname m hm))

theorem exists_holds_of_names (schema : Schema) {t : Tree} {ms : List (String × Json)}
    (h : t.Says (.object ms)) (hnames : ms.map Prod.fst = schema.map Field.name)
    (hknown : ∀ name ∈ schema.map Field.name, schema.canonical? name = some name)
    (hnodup : (schema.map Field.name).Nodup) :
    ∃ r, ofTree? schema false t = some r ∧ r.Holds ms := by
  rw [← hnames] at hknown hnodup
  exact exists_holds h hknown hnodup

/-- A value that was written is there and is read as it was. -/
structure Reads {α : Type} (read : Tree → Option α) (write : α → Json) : Prop where
  present : ∀ {t : Tree} {a : α}, t.Says (write a) → t.presence = .present
  value : ∀ {t : Tree} {a : α}, t.Says (write a) → read t = some a

theorem reads_text : Reads Tree.text? Json.string :=
  ⟨fun h => h.present nofun, Tree.Says.text?_eq⟩

theorem reads_flag : Reads Tree.flag? Json.bool :=
  ⟨fun h => h.present nofun, Tree.Says.flag?_eq⟩

section Fields

variable {α : Type} {read : Tree → Option α} {write : α → Json} {r : Record}
  {ms : List (String × Json)}

theorem Reads.optional? (h : Reads read write) {t : Tree} {a : α} (ht : t.Says (write a)) :
    t.optional? read = some (some a) := by
  simp only [Tree.optional?, h.present ht, h.value ht, Option.map_some]

theorem Holds.optional?_leftOut (name : String) (hr : r.Holds ms) (h : Reads read write)
    {o : Option α} (ho : ms.lookup name = o.map write) : r.optional? read name = some o := by
  cases o with
  | none => simp only [Record.optional?, hr.only name ho]
  | some a =>
    obtain ⟨t, ht, hsays⟩ := hr.shows name (write a) ho
    simp only [Record.optional?, ht, h.optional? hsays]

theorem Holds.optional?_null (name : String) (hr : r.Holds ms) (h : Reads read write)
    {o : Option α} (ho : ms.lookup name = some (.ofOption write o)) :
    r.optional? read name = some o := by
  obtain ⟨t, ht, hsays⟩ := hr.shows name _ ho
  cases o with
  | none => simp only [Record.optional?, ht, Tree.optional?, hsays.absent]
  | some a => simp only [Record.optional?, ht, h.optional? hsays]

theorem Holds.withDefault?_array (name : String) (hr : r.Holds ms) (h : Reads read write)
    (default : List α) {as : List α}
    (hv : ms.lookup name = some (.array (as.map write))) :
    r.withDefault? (fun t => t.items?.bind (List.mapM read)) default name = some as := by
  obtain ⟨t, ht, hsays⟩ := hr.shows name _ hv
  obtain ⟨ts, hts, hread⟩ := hsays.exists_items? h.value
  simp only [Record.withDefault?, ht, hts, Option.bind_some, hread]

end Fields

end Record

end Runbooks
