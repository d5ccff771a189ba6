import Mathlib.Data.List.Forall2
import Runbooks.Document.Yaml.Value

namespace Runbooks

namespace Tree

mutual

/-- No node is an alias. -/
def free : Tree → Bool
  | leaf _ _ => true
  | list _ _ items => freeItems items
  | table _ _ entries => freeEntries entries
  | .alias _ => false

def freeItems : List Tree → Bool
  | [] => true
  | t :: rest => free t && freeItems rest

def freeEntries : List (Tree × Tree) → Bool
  | [] => true
  | (k, v) :: rest => free k && free v && freeEntries rest

end

end Tree

namespace Yaml.Value

section Written

theorem trees_eq_map (vs : List Value) : trees vs = vs.map tree := by
  induction vs with
  | nil => rfl
  | cons v vs ih => rw [trees, ih, List.map_cons]

theorem entryTrees_eq_map (es : List (Value × Value)) :
    entryTrees es = es.map fun e => (tree e.1, tree e.2) := by
  induction es with
  | nil => rfl
  | cons e es ih => rw [entryTrees, ih, List.map_cons]

theorem free_retag (tag : String) (t : Tree) : (retag tag t).free = t.free := by
  cases t <;> rfl

mutual

theorem free_tree : ∀ v : Value, v.tree.free = true
  | .scalar _ => rfl
  | .sequence items => free_trees items
  | .mapping entries => free_entryTrees entries
  | .tagged tag v => (free_retag tag v.tree).trans (free_tree v)

theorem free_trees : ∀ vs : List Value, Tree.freeItems (trees vs) = true
  | [] => rfl
  | v :: vs => by
    rw [trees, Tree.freeItems, free_tree v, free_trees vs]
    rfl

theorem free_entryTrees : ∀ es : List (Value × Value), Tree.freeEntries (entryTrees es) = true
  | [] => rfl
  | (k, v) :: es => by
    rw [entryTrees, Tree.freeEntries, free_tree k, free_tree v, free_entryTrees es]
    rfl

end

end Written

section Reading

variable {plain : Bool}

/-- A tree is read as a value, no alias being followed. -/
def IsRead (plain : Bool) (depth : Nat) (t : Tree) (v : Value) : Prop :=
  ∀ left, read? plain depth left t = some (v, left)

theorem readItems?_cons_iff {depth left left' : Nat} {t : Tree} {ts : List Tree}
    {vs : List Value} :
    readItems? plain depth left (t :: ts) = some (vs, left') ↔
      ∃ v left₁ ws, read? plain depth left t = some (v, left₁) ∧
        readItems? plain depth left₁ ts = some (ws, left') ∧ v :: ws = vs := by
  simp only [readItems?]
  constructor
  · intro h
    obtain ⟨⟨v, left₁⟩, ht, h⟩ := Option.bind_eq_some_iff.mp h
    obtain ⟨⟨ws, left₂⟩, hts, h⟩ := Option.bind_eq_some_iff.mp h
    obtain ⟨hvs, rfl⟩ := Prod.mk.inj (Option.some.inj h)
    exact ⟨v, left₁, ws, ht, hts, hvs⟩
  · rintro ⟨v, left₁, ws, ht, hts, rfl⟩
    simp only [ht, hts, Option.bind_eq_bind, Option.bind_some]

/-- Entries clash with a key if one of them has it and keys have to differ. -/
def clashes (plain : Bool) (acc : List (Value × Value)) (k : Value) : Bool :=
  !plain && acc.any fun e => same k e.1

theorem readEntries?_cons_iff {depth left left' : Nat} {k t : Tree} {es : List (Tree × Tree)}
    {acc vs : List (Value × Value)} :
    readEntries? plain depth left acc ((k, t) :: es) = some (vs, left') ↔
      ∃ key left₁ v left₂, read? plain depth left k = some (key, left₁) ∧
        clashes plain acc key = false ∧ read? plain depth left₁ t = some (v, left₂) ∧
        readEntries? plain depth left₂ ((key, v) :: acc) es = some (vs, left') := by
  simp only [readEntries?]
  constructor
  · intro h
    obtain ⟨⟨key, left₁⟩, hk, h⟩ := Option.bind_eq_some_iff.mp h
    split at h
    · cases h
    rename_i hkey
    obtain ⟨⟨v, left₂⟩, ht, hes⟩ := Option.bind_eq_some_iff.mp h
    exact ⟨key, left₁, v, left₂, hk, Bool.eq_false_iff.mpr hkey, ht, hes⟩
  · rintro ⟨key, left₁, v, left₂, hk, hkey, ht, hes⟩
    have hdiffer : ¬ (!plain && acc.any fun e => same key e.1) = true := Bool.eq_false_iff.mp hkey
    simp only [hk, Option.bind_eq_bind, Option.bind_some, if_neg hdiffer, ht, hes]

mutual

theorem isRead_of_free : ∀ {t : Tree} {depth left left' : Nat} {v : Value}, t.free = true →
    read? plain depth left t = some (v, left') → IsRead plain depth t v
  | .leaf tag l, depth, left, left', v, _, h => by
    intro left₂
    simp only [read?] at h ⊢
    split at h
    · cases h
    rename_i htag
    rw [if_neg htag]
    obtain ⟨a, ha, heq⟩ := Option.map_eq_some_iff.mp h
    rw [ha, Option.map_some, (Prod.mk.inj heq).1]
  | .list tag row items, 0, left, left', v, _, h => by
    simp only [read?] at h
    cases h
  | .list tag row items, depth + 1, left, left', v, hfree, h => by
    intro left₂
    simp only [read?] at h ⊢
    split at h
    · cases h
    rename_i htag
    rw [if_neg htag]
    obtain ⟨⟨vs, left₁⟩, hitems, h⟩ := Option.bind_eq_some_iff.mp h
    rw [readItems?_of_free hfree hitems left₂, ← (Prod.mk.inj (Option.some.inj h)).1]
    rfl
  | .table tag choice entries, 0, left, left', v, _, h => by
    simp only [read?] at h
    cases h
  | .table tag choice entries, depth + 1, left, left', v, hfree, h => by
    intro left₂
    simp only [read?] at h ⊢
    split at h
    · cases h
    rename_i htag
    rw [if_neg htag]
    obtain ⟨⟨vs, left₁⟩, hentries, h⟩ := Option.bind_eq_some_iff.mp h
    rw [readEntries?_of_free hfree hentries left₂, ← (Prod.mk.inj (Option.some.inj h)).1]
    rfl

theorem readItems?_of_free : ∀ {ts : List Tree} {depth left left' : Nat} {vs : List Value},
    Tree.freeItems ts = true → readItems? plain depth left ts = some (vs, left') →
      ∀ left₂, readItems? plain depth left₂ ts = some (vs, left₂)
  | [], depth, left, left', vs, _, h => by
    intro left₂
    simp only [readItems?] at h ⊢
    rw [(Prod.mk.inj (Option.some.inj h)).1]
  | t :: ts, depth, left, left', vs, hfree, h => by
    intro left₂
    simp only [Tree.freeItems, Bool.and_eq_true] at hfree
    obtain ⟨v, left₁, ws, ht, hts, hvs⟩ := readItems?_cons_iff.mp h
    exact readItems?_cons_iff.mpr ⟨v, left₂, ws, isRead_of_free hfree.1 ht left₂,
      readItems?_of_free hfree.2 hts left₂, hvs⟩

theorem readEntries?_of_free : ∀ {es : List (Tree × Tree)} {depth left left' : Nat}
    {acc vs : List (Value × Value)}, Tree.freeEntries es = true →
      readEntries? plain depth left acc es = some (vs, left') →
        ∀ left₂, readEntries? plain depth left₂ acc es = some (vs, left₂)
  | [], depth, left, left', acc, vs, _, h => by
    intro left₂
    simp only [readEntries?] at h ⊢
    rw [(Prod.mk.inj (Option.some.inj h)).1]
  | (k, t) :: es, depth, left, left', acc, vs, hfree, h => by
    intro left₂
    simp only [Tree.freeEntries, Bool.and_eq_true] at hfree
    obtain ⟨key, left₁, v, left₃, hk, hkey, ht, hes⟩ := readEntries?_cons_iff.mp h
    exact readEntries?_cons_iff.mpr ⟨key, left₂, v, left₂, isRead_of_free hfree.1.1 hk left₂, hkey,
      isRead_of_free hfree.1.2 ht left₂, readEntries?_of_free hfree.2 hes left₂⟩

end

/-- Keys of one mapping. -/
def Differ (e e' : Value × Value) : Prop :=
  same e'.1 e.1 = false

theorem isRead_items {depth left left' : Nat} {ts : List Tree} {vs : List Value}
    (hfree : Tree.freeItems ts = true) (h : readItems? plain depth left ts = some (vs, left')) :
    List.Forall₂ (IsRead plain depth) ts vs := by
  induction ts generalizing left vs with
  | nil =>
    simp only [readItems?] at h
    rw [← (Prod.mk.inj (Option.some.inj h)).1]
    exact .nil
  | cons t ts ih =>
    simp only [Tree.freeItems, Bool.and_eq_true] at hfree
    obtain ⟨v, left₁, ws, ht, hts, rfl⟩ := readItems?_cons_iff.mp h
    exact .cons (isRead_of_free hfree.1 ht) (ih hfree.2 hts)

theorem isRead_entries {depth left left' : Nat} {es : List (Tree × Tree)}
    {acc vs : List (Value × Value)} (hfree : Tree.freeEntries es = true)
    (h : readEntries? false depth left acc es = some (vs, left')) :
    ∃ ws, vs = acc.reverse ++ ws ∧
      List.Forall₂ (fun e w => IsRead false depth e.1 w.1 ∧ IsRead false depth e.2 w.2) es ws ∧
      (acc.reverse.Pairwise Differ → vs.Pairwise Differ) := by
  -- `acc` holds the entries before, the last one first: a new key is compared with all of them.
  induction es generalizing left acc with
  | nil =>
    simp only [readEntries?] at h
    obtain rfl := (Prod.mk.inj (Option.some.inj h)).1
    exact ⟨[], (List.append_nil _).symm, .nil, id⟩
  | cons e es ih =>
    obtain ⟨k, t⟩ := e
    simp only [Tree.freeEntries, Bool.and_eq_true] at hfree
    obtain ⟨key, left₁, v, left₂, hk, hkey, ht, hes⟩ := readEntries?_cons_iff.mp h
    obtain ⟨ws, rfl, hws, hdiffer⟩ := ih hfree.2 hes
    refine ⟨(key, v) :: ws, by simp, .cons ⟨isRead_of_free hfree.1.1 hk, isRead_of_free hfree.1.2 ht⟩
      hws, fun hacc => hdiffer ?_⟩
    rw [List.reverse_cons, List.pairwise_append]
    refine ⟨hacc, List.pairwise_singleton _ _, fun e he e' he' => ?_⟩
    rw [List.mem_singleton.mp he']
    simp only [clashes, Bool.not_false, Bool.true_and, List.any_eq_false] at hkey
    exact Bool.eq_false_iff.mpr (hkey e (List.mem_reverse.mp he))

end Reading

section Parts

variable {depth : Nat}

theorem isRead_sequence {plain : Bool} {vs : List Value}
    (h : IsRead plain (depth + 1) (sequence vs).tree (sequence vs)) :
    ∀ v ∈ vs, IsRead plain depth v.tree v := by
  have hread := h 0
  simp only [tree, read?] at hread
  split at hread
  · cases hread
  obtain ⟨⟨ws, left⟩, hitems, hread⟩ := Option.bind_eq_some_iff.mp hread
  obtain ⟨rfl, -⟩ : ws = vs ∧ left = 0 := by simpa [underTag] using hread
  have hall := isRead_items (free_trees ws) hitems
  rw [trees_eq_map, List.forall₂_map_left_iff] at hall
  exact List.forall₂_same.mp hall

theorem isRead_mapping {es : List (Value × Value)}
    (h : IsRead false (depth + 1) (mapping es).tree (mapping es)) :
    (∀ e ∈ es, IsRead false depth e.2.tree e.2) ∧ es.Pairwise Differ := by
  have hread := h 0
  simp only [tree, read?, Bool.false_and, Bool.false_eq_true, if_false] at hread
  obtain ⟨⟨ws, left⟩, hentries, hread⟩ := Option.bind_eq_some_iff.mp hread
  obtain ⟨rfl, -⟩ : ws = es ∧ left = 0 := by simpa [underTag] using hread
  obtain ⟨ws', hws, hall, hdiffer⟩ := isRead_entries (free_entryTrees ws) hentries
  obtain rfl : ws = ws' := hws
  rw [entryTrees_eq_map, List.forall₂_map_left_iff] at hall
  exact ⟨fun e he => (List.forall₂_same.mp hall e he).2, hdiffer .nil⟩

end Parts

end Yaml.Value

end Runbooks
