import Mathlib.Data.List.Forall2
import Runbooks.Document.Json.Reader
import Runbooks.Document.Record

/-!
Records read from trees. What a value is written as can be found in its tree in every notation, so
that a record has the fields that were written. In JSON a node that stands for no value cannot be
read as anything else, so that optional fields and fields with a default agree on it.
-/

namespace Runbooks

namespace Tree

/-- The readings of a tree, in whatever notation it was written, are those of a value. -/
inductive Says : Tree → Json → Prop
  | null {tag : Option String} {l : Leaf} (absent : l.presence = .absent) : Says (leaf tag l) .null
  | bool {tag : Option String} {l : Leaf} {b : Bool} (present : l.presence = .present)
      (flag : l.flag? = some b) : Says (leaf tag l) (.bool b)
  | number {tag : Option String} {l : Leaf} {n : Int} (present : l.presence = .present)
      (count : l.count? = if n < 0 then none else some n.toNat) : Says (leaf tag l) (.number n)
  | string {tag : Option String} {l : Leaf} {s : String} (present : l.presence = .present)
      (text : l.text? = some s) (choice : l.choice? = some s) : Says (leaf tag l) (.string s)
  | array {tag : Option String} {row : Row} {ts : List Tree} {vs : List Json}
      (items : List.Forall₂ Says ts vs) : Says (list tag row ts) (.array vs)
  | object {tag choice : Option String} {es : List (Tree × Tree)} {ms : List (String × Json)}
      (keys : es.map (fun e => e.1.text?) = ms.map fun m => some m.1)
      (values : List.Forall₂ Says (es.map Prod.snd) (ms.map Prod.snd)) :
      Says (table tag choice es) (.object ms)

namespace Says

variable {t : Tree}

theorem present {v : Json} (h : t.Says v) (hv : v ≠ .null) : t.presence = .present := by
  cases h with
  | null => exact absurd rfl hv
  | bool present => exact present
  | number present => exact present
  | string present => exact present
  | array => rfl
  | object => rfl

theorem object_present {ms : List (String × Json)} (h : t.Says (.object ms)) :
    t.presence = .present := by
  apply h.present
  intro hnull
  cases hnull

theorem text?_eq {s : String} (h : t.Says (.string s)) : t.text? = some s := by
  cases h with
  | string _ text _ => exact text

theorem choice?_eq {s : String} (h : t.Says (.string s)) : t.choice? = some s := by
  cases h with
  | string _ _ choice => exact choice

theorem flag?_eq {b : Bool} (h : t.Says (.bool b)) : t.flag? = some b := by
  cases h with
  | bool _ flag => exact flag

theorem byte?_eq {n : UInt8} (h : t.Says (.number n.toNat)) : t.byte? = some n := by
  cases h with
  | number _ count =>
    have hcount : ¬ ((n.toNat : Int) < 0) := by omega
    rw [if_neg hcount, Int.toNat_natCast] at count
    simp only [byte?, readings?, Option.bind_some, count, Option.bind_eq_bind]
    rw [if_pos n.toNat_lt, UInt8.ofNat_toNat]

theorem absent (h : t.Says .null) : t.presence = .absent := by
  cases h with
  | null absent => exact absent

theorem exists_items? {α : Type} {read : Tree → Option α} {write : α → Json}
    (hread : ∀ {u : Tree} {a : α}, u.Says (write a) → read u = some a) {as : List α}
    (h : t.Says (.array (as.map write))) : ∃ ts, t.items? = some ts ∧ ts.mapM read = some as := by
  cases h with
  | @array _ _ ts _ items =>
    refine ⟨ts, rfl, ?_⟩
    have hitems := List.forall₂_map_right_iff.mp items
    clear items
    induction hitems with
    | nil => rfl
    | cons hitem _ ih =>
      rw [List.mapM_cons, hread hitem, ih]
      rfl

theorem texts?_eq {ss : List String} (h : t.Says (.texts ss)) : t.texts? = some ss := by
  obtain ⟨ts, hts, hread⟩ := exists_items? text?_eq h
  rw [texts?, hts]
  exact hread

end Says

end Tree

namespace Json

mutual

theorem says_tree : ∀ v : Json, v.tree.Says v
  | .null => .null rfl
  | .bool _ => .bool rfl rfl
  | .number _ => .number rfl rfl
  | .string _ => .string rfl rfl rfl
  | .array vs => .array (says_itemTrees vs)
  | .object ms => .object (says_memberTrees ms).1 (says_memberTrees ms).2

theorem says_itemTrees : ∀ vs : List Json, List.Forall₂ Tree.Says (itemTrees vs) vs
  | [] => .nil
  | v :: vs => .cons (says_tree v) (says_itemTrees vs)

theorem says_memberTrees : ∀ ms : List (String × Json),
    ((memberTrees ms).map (fun e => e.1.text?) = ms.map fun m => some m.1) ∧
      List.Forall₂ Tree.Says ((memberTrees ms).map Prod.snd) (ms.map Prod.snd)
  | [] => ⟨rfl, .nil⟩
  | (k, v) :: ms =>
    ⟨congrArg (some k :: ·) (says_memberTrees ms).1, .cons (says_tree v) (says_memberTrees ms).2⟩

end

end Json

namespace Record

section Fields

variable {schema : Schema} {complete : Bool}

/-- The entries of a table with texts for keys. -/
def named? (entries : List (Tree × Tree)) : Option (List (String × Tree)) :=
  entries.mapM fun (key, value) => key.text?.map (·, value)

theorem named?_cons {key : Tree} {name : String} (hkey : key.text? = some name) (t : Tree)
    (entries : List (Tree × Tree)) :
    named? ((key, t) :: entries) = (named? entries).map ((name, t) :: ·) := by
  rw [named?, List.mapM_cons, ← named?]
  simp only [hkey, Option.map_some, Option.bind_eq_bind, Option.bind_some]
  cases named? entries <;> rfl

theorem ofTree?_table {tag choice : Option String} {entries : List (Tree × Tree)}
    {named : List (String × Tree)} (hnamed : named? entries = some named)
    (hknown : ∀ name ∈ named.map Prod.fst, schema.canonical? name = some name)
    (hnodup : (named.map Prod.fst).Nodup) :
    ofTree? schema complete (.table tag choice entries) = some ⟨named⟩ := by
  unfold named? at hnamed
  simp only [ofTree?, hnamed, Option.bind_eq_bind, Option.bind_some]
  rw [List.filterMap_congr (g := some), List.filterMap_some, if_pos hnodup]
  intro e he
  exact congrArg (Option.map (·, e.2)) (hknown e.1 (List.mem_map_of_mem he))

/-- The fields of a record that were written as the members of a value. -/
def Shows (r : Record) (ms : List (String × Json)) : Prop :=
  ∀ name v, ms.lookup name = some v → ∃ t, r.get? name = some t ∧ t.Says v

theorem shows_cons {named : List (String × Tree)} {ms : List (String × Json)} {k : String}
    {t : Tree} {v : Json} (ht : t.Says v) (h : Shows ⟨named⟩ ms) :
    Shows ⟨(k, t) :: named⟩ ((k, v) :: ms) := by
  intro name w hw
  rw [List.lookup_cons] at hw
  rw [get?, List.lookup_cons]
  cases hname : name == k with
  | true =>
    rw [hname] at hw
    obtain rfl := Option.some.inj hw
    exact ⟨t, rfl, ht⟩
  | false =>
    rw [hname] at hw
    exact h name w hw

theorem exists_named? {es : List (Tree × Tree)} {ms : List (String × Json)}
    (keys : es.map (fun e => e.1.text?) = ms.map fun m => some m.1)
    (values : List.Forall₂ Tree.Says (es.map Prod.snd) (ms.map Prod.snd)) :
    ∃ named, named? es = some named ∧ named.map Prod.fst = ms.map Prod.fst ∧
      Shows ⟨named⟩ ms := by
  induction es generalizing ms with
  | nil =>
    obtain rfl : ms = [] := List.map_eq_nil_iff.mp keys.symm
    exact ⟨[], rfl, rfl, nofun⟩
  | cons e es ih =>
    obtain ⟨key, t⟩ := e
    cases ms with
    | nil => cases keys
    | cons m ms =>
      obtain ⟨hkey, hkeys⟩ := List.cons.inj keys
      obtain ⟨hvalue, hvalues⟩ := List.forall₂_cons.mp values
      obtain ⟨named, hnamed, hnames, hshows⟩ := ih hkeys hvalues
      refine ⟨(m.1, t) :: named, ?_, congrArg (m.1 :: ·) hnames, shows_cons hvalue hshows⟩
      rw [named?_cons hkey, hnamed, Option.map_some]

theorem exists_shows {t : Tree} {ms : List (String × Json)} (h : t.Says (.object ms))
    (hknown : ∀ name ∈ ms.map Prod.fst, schema.canonical? name = some name)
    (hnodup : (ms.map Prod.fst).Nodup) :
    ∃ r, (∀ complete, ofTree? schema complete t = some r) ∧
      r.entries.map Prod.fst = ms.map Prod.fst ∧ r.Shows ms := by
  cases h with
  | object keys values =>
    obtain ⟨named, hnamed, hnames, hshows⟩ := exists_named? keys values
    rw [← hnames] at hknown hnodup
    exact ⟨⟨named⟩, fun complete => ofTree?_table hnamed hknown hnodup, hnames, hshows⟩

end Fields

end Record

/-- Nothing can be read from a leaf. -/
structure Leaf.Mute (l : Leaf) : Prop where
  text : l.text? = none
  flag : l.flag? = none
  count : l.count? = none
  choice : l.choice? = none
  hollow : l.hollow = false

namespace Tree

/-- No node stands for no value and can be read as one nevertheless. -/
inductive Decided : Tree → Prop
  | leaf {tag : Option String} {l : Leaf} (mute : l.presence ≠ .present → l.Mute) :
      Decided (leaf tag l)
  | list {tag : Option String} {row : Row} {ts : List Tree} (items : ∀ t ∈ ts, Decided t) :
      Decided (list tag row ts)
  | table {tag choice : Option String} {es : List (Tree × Tree)}
      (values : ∀ e ∈ es, Decided e.2) : Decided (table tag choice es)
  | again {t : Tree} (target : Decided t) : Decided (.alias t)

/-- Nothing can be read from a tree. -/
structure Unread (t : Tree) : Prop where
  text : t.text? = none
  flag : t.flag? = none
  byte : t.byte? = none
  choice : t.choice? = none
  items : t.items? = none
  record : ∀ schema complete, Record.ofTree? schema complete t = none

theorem Decided.unread {t : Tree} (h : t.Decided) (habsent : t.presence ≠ .present) : t.Unread := by
  induction h with
  | leaf mute =>
    obtain ⟨htext, hflag, hcount, hchoice, hhollow⟩ := mute habsent
    refine ⟨htext, hflag, ?_, hchoice, ?_, fun schema complete => ?_⟩
    · simp [byte?, readings?, hcount]
    · simp [items?, hhollow]
    · simp [Record.ofTree?, hhollow]
  | list => exact absurd rfl habsent
  | table => exact absurd rfl habsent
  | again _ ih =>
    obtain ⟨htext, hflag, hbyte, hchoice, hitems, hrecord⟩ := ih habsent
    exact ⟨htext, hflag, hbyte, hchoice, hitems, hrecord⟩

theorem decided_of_present {tag : Option String} {l : Leaf} (h : l.presence = .present) :
    (leaf tag l).Decided :=
  .leaf fun habsent => absurd h habsent

end Tree

namespace Json.Reader

theorem decided_stringTree (s : Option String) : (stringTree s).Decided := by
  cases s <;> exact Tree.decided_of_present rfl

theorem decided_nullTree : nullTree.Decided :=
  .leaf fun _ => ⟨rfl, rfl, rfl, rfl, rfl⟩

theorem decided_of_word? {word : String} {value t : Tree} {s rest : List Char}
    (h : word? word value s = some (t, rest)) (hvalue : value.Decided) : t.Decided := by
  unfold word? at h
  split at h
  · rw [← (Prod.mk.inj (Option.some.inj h)).1]
    exact hvalue
  · cases h

theorem decided_of_number? {t : Tree} {s rest : List Char} (h : number? s = some (t, rest)) :
    t.Decided := by
  unfold number? at h
  extract_lets power at h
  split at h
  extract_lets whole s afterFraction at h
  clear_value afterFraction
  split at h
  · cases h
  split at h
  · cases h
  extract_lets afterPower at h
  clear_value afterPower
  split at h
  · cases h
  rw [← (Prod.mk.inj (Option.some.inj h)).1]
  exact Tree.decided_of_present rfl

/-- In what is read of a JSON text every node is decided. -/
theorem decided_of_reads (fuel : Nat) :
    (∀ {s t rest}, value? fuel s = some (t, rest) → t.Decided) ∧
    (∀ {acc s t rest}, (∀ u ∈ acc, u.Decided) → items? fuel acc s = some (t, rest) → t.Decided) ∧
    ∀ {acc s t rest}, (∀ e ∈ acc, e.2.Decided) → members? fuel acc s = some (t, rest) →
      t.Decided := by
  -- Lists and tables are read with what was read before them, of which the same is known.
  induction fuel with
  | zero => exact ⟨nofun, nofun, nofun⟩
  | succ fuel ih =>
    obtain ⟨hvalue, hitems, hmembers⟩ := ih
    refine ⟨?_, ?_, ?_⟩
    · intro s t rest h
      rw [value?] at h
      split at h
      · cases h
      split_ifs at h
      · obtain ⟨⟨s, r⟩, -, hs⟩ := Option.map_eq_some_iff.mp h
        rw [← (Prod.mk.inj hs).1]
        exact decided_stringTree s
      · split at h
        · rw [← (Prod.mk.inj (Option.some.inj h)).1]
          exact .list (List.forall_mem_nil _)
        · exact hitems (List.forall_mem_nil _) h
      · split at h
        · rw [← (Prod.mk.inj (Option.some.inj h)).1]
          exact .table (List.forall_mem_nil _)
        · exact hmembers (List.forall_mem_nil _) h
      · exact decided_of_word? h decided_nullTree
      · exact decided_of_word? h (Tree.decided_of_present rfl)
      · exact decided_of_word? h (Tree.decided_of_present rfl)
      · exact decided_of_number? h
    · intro acc s t rest hacc h
      rw [items?] at h
      split at h
      · cases h
      rename_i v r hv
      have hmore : ∀ u ∈ v :: acc, u.Decided := List.forall_mem_cons.mpr ⟨hvalue hv, hacc⟩
      split at h
      · exact hitems hmore h
      · rw [← (Prod.mk.inj (Option.some.inj h)).1]
        exact .list fun u hu => hmore u (List.mem_reverse.mp hu)
      · cases h
    · intro acc s t rest hacc h
      rw [members?] at h
      split at h
      · split at h
        · cases h
        rename_i key r hkey
        split at h
        · split at h
          · cases h
          rename_i v r hv
          have hmore : ∀ e ∈ (stringTree key, v) :: acc, e.2.Decided :=
            List.forall_mem_cons.mpr ⟨hvalue hv, hacc⟩
          split at h
          · exact hmembers hmore h
          · rw [← (Prod.mk.inj (Option.some.inj h)).1]
            exact .table fun e he => hmore e (List.mem_reverse.mp he)
          · cases h
        · cases h
      · cases h

end Json.Reader

theorem Json.decided_of_readTree? {s : String} {t : Tree} (h : readTree? s = some t) :
    t.Decided := by
  unfold readTree? at h
  extract_lets at h
  split at h
  · rename_i hread
    split at h
    · rw [← Option.some.inj h]
      exact (Reader.decided_of_reads _).1 hread
    · cases h
  · cases h

namespace Record

variable {α : Type} {r : Record} {name : String}

theorem map_snd_named? {entries : List (Tree × Tree)} {named : List (String × Tree)}
    (h : named? entries = some named) : named.map Prod.snd = entries.map Prod.snd := by
  induction entries generalizing named with
  | nil =>
    obtain rfl := Option.some.inj h
    rfl
  | cons e entries ih =>
    obtain ⟨key, t⟩ := e
    rw [named?, List.mapM_cons, ← named?] at h
    obtain ⟨e, he, h⟩ := Option.bind_eq_some_iff.mp h
    obtain ⟨rest, hrest, h⟩ := Option.bind_eq_some_iff.mp h
    obtain ⟨k, -, rfl⟩ := Option.map_eq_some_iff.mp he
    obtain rfl := Option.some.inj h
    exact congrArg (t :: ·) (ih hrest)

theorem decided_of_mem_entries {schema : Schema} {complete : Bool} :
    ∀ {t : Tree}, t.Decided → ofTree? schema complete t = some r → ∀ e ∈ r.entries, e.2.Decided
  | .leaf _ l, _, hr => by
    rw [ofTree?] at hr
    split at hr
    · obtain rfl := Option.some.inj hr
      exact List.forall_mem_nil _
    · cases hr
  | .list _ row items, .list hitems, hr => by
    rw [ofTree?] at hr
    split at hr
    · obtain rfl := Option.some.inj hr
      intro e he
      exact hitems e.2 (List.of_mem_zip he).2
    · cases hr
  | .table _ _ entries, .table hvalues, hr => by
    obtain ⟨named, hnamed, hr⟩ := Option.bind_eq_some_iff.mp hr
    extract_lets known at hr
    split at hr
    · obtain rfl := Option.some.inj hr
      intro e he
      obtain ⟨e', he', heq⟩ := List.mem_filterMap.mp he
      obtain ⟨name, -, rfl⟩ := Option.map_eq_some_iff.mp heq
      have hvalue : e'.2 ∈ entries.map Prod.snd := by
        rw [← map_snd_named? hnamed]
        exact List.mem_map_of_mem he'
      obtain ⟨e'', he'', heq⟩ := List.mem_map.mp hvalue
      rw [← heq]
      exact hvalues e'' he''
    · cases hr
  | .alias t, .again ht, hr => decided_of_mem_entries ht hr

theorem mem_entries_of_get? {u : Tree} (h : r.get? name = some u) : (name, u) ∈ r.entries := by
  obtain ⟨before, after, hentries, -⟩ := List.lookup_eq_some_iff.mp h
  rw [hentries]
  exact List.mem_append_right _ List.mem_cons_self

theorem unread_of_get? (hdecided : ∀ e ∈ r.entries, e.2.Decided) {u : Tree}
    (hu : r.get? name = some u) (habsent : u.presence ≠ .present) : u.Unread :=
  (hdecided _ (mem_entries_of_get? hu)).unread habsent

/-- Where a field stands for no value or is left out, an optional field is absent and a field with
a default has it; where it has a value, both read the same. -/
theorem withDefault?_eq_getD {read read' : Tree → Option α} {default a : α} {o : Option α}
    (habsent : ∀ u, r.get? name = some u → u.presence ≠ .present → read u = none)
    (hread : ∀ u b, read' u = some b → read u = some b)
    (ha : r.withDefault? read default name = some a) (ho : r.optional? read' name = some o) :
    a = o.getD default := by
  unfold withDefault? at ha
  unfold optional? at ho
  cases hget : r.get? name with
  | none =>
    simp only [hget] at ha ho
    rw [← Option.some.inj ha, ← Option.some.inj ho]
    rfl
  | some u =>
    simp only [hget] at ha ho
    cases hpresence : u.presence with
    | present =>
      simp only [Tree.optional?, hpresence] at ho
      obtain ⟨b, hb, rfl⟩ := Option.map_eq_some_iff.mp ho
      rw [hread u b hb] at ha
      exact (Option.some.inj ha).symm
    | absent =>
      rw [habsent u hget (by rw [hpresence]; nofun)] at ha
      cases ha
    | contradictory =>
      rw [habsent u hget (by rw [hpresence]; nofun)] at ha
      cases ha

/-- Whoever asks for complete rows refuses some more documents, and reads all others alike. -/
theorem ofTree?_of_complete {schema : Schema} :
    ∀ t : Tree, ∀ r, ofTree? schema true t = some r → ofTree? schema false t = some r
  | .leaf _ _, _, h => h
  | .table _ _ _, _, h => h
  | .alias t, r, h => ofTree?_of_complete t r h
  | .list _ row items, r, h => by
    simp only [ofTree?] at h ⊢
    split at h
    · rename_i hfits
      rw [if_pos (by
        simp only [rowFits, Bool.and_eq_true] at hfits ⊢
        exact ⟨rfl, hfits.2⟩)]
      exact h
    · cases h

end Record

end Runbooks
