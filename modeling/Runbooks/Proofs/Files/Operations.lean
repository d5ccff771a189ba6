import Mathlib.Data.String.Basic
import Mathlib.Logic.Function.Basic
import Runbooks.Files.Disk

/-!
What the operations of a disk do to it, place by place. Making a way adds directories only, staging
adds a file that no path leads to, and moving takes a file from one place to another. A path that
names a file leads to it on every disk with the same directories.
-/

namespace Runbooks

namespace Place

theorem follow_append (p : Place) (xs ys : List String) :
    p.follow (xs ++ ys) = (p.follow xs).follow ys := by
  rw [follow, follow, follow, List.filter_append, List.foldl_append]

theorem follow_cons (p : Place) (piece : String) (rest : List String) :
    p.follow (piece :: rest) = (p.follow [piece]).follow rest :=
  follow_append p [piece] rest

theorem follow_of_not_isStep {piece : String} (h : Path.isStep piece = false) (p : Place) :
    p.follow [piece] = p := by
  rw [follow, List.filter_cons_of_neg (Bool.eq_false_iff.mp h)]
  rfl

theorem follow_name {piece : String} (h : Path.isStep piece = true) (hup : piece ≠ "..")
    (p : Place) : p.follow [piece] = p ++ [piece] := by
  rw [follow, List.filter_cons_of_pos h]
  exact if_neg hup

/-- A place that no path leads to, for the length of the last name on the way. -/
def IsHidden (p : Place) : Prop :=
  ∃ directory name, p = directory ++ [name] ∧ maxNameSize < name.utf8ByteSize

theorem IsHidden.ne_nil {p : Place} (h : p.IsHidden) : p ≠ [] := by
  obtain ⟨directory, name, rfl, -⟩ := h
  exact List.append_ne_nil_of_right_ne_nil directory (List.cons_ne_nil name [])

theorem IsHidden.ne {p q : Place} (h : p.IsHidden) (hq : ¬ q.IsHidden) : p ≠ q := by
  rintro rfl
  exact hq h

theorem not_isHidden {name : String} (h : name.utf8ByteSize ≤ maxNameSize) (directory : Place) :
    ¬ IsHidden (directory ++ [name]) := by
  rintro ⟨directory', name', heq, hlong⟩
  obtain rfl : name = name' := by simpa using (List.append_inj' heq rfl).2
  exact absurd h (Nat.not_le.mpr hlong)

end Place

namespace Disk

theorem lookup_filter_ne (p q : Place) (entries : List (Place × Entry)) :
    (entries.filter (·.1 ≠ p)).lookup q = if q = p then none else entries.lookup q := by
  induction entries with
  | nil => simp
  | cons entry entries ih =>
    obtain ⟨k, e⟩ := entry
    by_cases hk : k = p
    · rw [List.filter_cons_of_neg (by simpa using hk), ih, List.lookup_cons, hk]
      by_cases hq : q = p
      · rw [if_pos hq, if_pos hq]
      · rw [if_neg hq, if_neg hq, beq_false_of_ne hq]
    · rw [List.filter_cons_of_pos (by simpa using hk), List.lookup_cons, List.lookup_cons, ih]
      by_cases hq : q = k
      · rw [hq, beq_self_eq_true, if_neg hk, if_neg hk]
      · rw [beq_false_of_ne hq]

theorem get?_of_ne_nil {p : Place} (hp : p ≠ []) (d : Disk) : d.get? p = d.entries.lookup p :=
  if_neg (by simpa using hp)

theorem get?_remove {p : Place} (hp : p ≠ []) (d : Disk) :
    (d.remove p).get? = Function.update d.get? p none := by
  funext q
  rw [Function.update_apply]
  by_cases hq : q = []
  · rw [hq, if_neg hp.symm]
    rfl
  · rw [get?_of_ne_nil hq, get?_of_ne_nil hq, remove, lookup_filter_ne]

theorem get?_put {p : Place} (hp : p ≠ []) (e : Entry) (d : Disk) :
    (d.put p e).get? = Function.update d.get? p (some e) := by
  funext q
  rw [Function.update_apply]
  by_cases hq : q = []
  · rw [hq, if_neg hp.symm]
    rfl
  · rw [get?_of_ne_nil hq, get?_of_ne_nil hq, put]
    by_cases hqp : q = p
    · rw [hqp, List.lookup_cons_self, if_pos rfl]
    · rw [List.lookup_cons, beq_false_of_ne hqp, remove, lookup_filter_ne]
      rw [if_neg hqp, if_neg hqp]

theorem isDirectory_eq (d : Disk) (p : Place) :
    d.isDirectory p = (d.get? p).any Entry.isDirectory :=
  rfl

section Fresh

theorem le_foldr_utf8ByteSize (names : List String) (start : Nat) :
    start ≤ names.foldr (fun name n => name.utf8ByteSize + n) start ∧
      ∀ name ∈ names, name.utf8ByteSize + start ≤
        names.foldr (fun name n => name.utf8ByteSize + n) start := by
  induction names with
  | nil => simp
  | cons first names ih =>
    rw [List.foldr_cons]
    refine ⟨by omega, ?_⟩
    intro name hname
    rcases List.mem_cons.mp hname with rfl | hname
    · omega
    · have := ih.2 name hname
      omega

theorem utf8ByteSize_replicate (n : Nat) :
    (String.ofList (List.replicate n '~')).utf8ByteSize = n := by
  rw [String.utf8ByteSize_ofList]
  induction n with
  | zero => rfl
  | succ n ih => rw [List.replicate_succ, String.utf8Len_cons, ih]; rfl

theorem utf8ByteSize_freshName (d : Disk) : d.freshName.utf8ByteSize =
    (d.entries.flatMap Prod.fst).foldr (fun name n => name.utf8ByteSize + n) (maxNameSize + 1) :=
  utf8ByteSize_replicate _

theorem isHidden_freshName (directory : Place) (d : Disk) :
    Place.IsHidden (directory ++ [d.freshName]) := by
  refine ⟨directory, d.freshName, rfl, ?_⟩
  rw [utf8ByteSize_freshName]
  exact Nat.lt_of_succ_le (le_foldr_utf8ByteSize _ _).1

theorem get?_freshName (directory : Place) (d : Disk) :
    d.get? (directory ++ [d.freshName]) = none := by
  rw [get?_of_ne_nil (isHidden_freshName directory d).ne_nil, List.lookup_eq_none_iff]
  intro entry hentry
  rw [bne_iff_ne]
  intro heq
  have hmem : d.freshName ∈ d.entries.flatMap Prod.fst :=
    List.mem_flatMap.mpr ⟨entry, hentry, heq ▸ List.mem_append_right directory List.mem_cons_self⟩
  have hlt := (le_foldr_utf8ByteSize (d.entries.flatMap Prod.fst) (maxNameSize + 1)).2 _ hmem
  have hsize := d.utf8ByteSize_freshName
  omega

end Fresh

section Walk

variable {d d' : Disk} {p q : Place} {piece : String} {rest : List String}

/-- A walk may take a piece of a path from a place. -/
structure Allows (d : Disk) (p : Place) (piece : String) : Prop where
  directory : d.isDirectory p = true
  entry : Path.isStep piece = true → piece ≠ ".." →
    piece.utf8ByteSize ≤ maxNameSize ∧ (d.get? (p ++ [piece])).isSome = true

theorem walk_cons_iff :
    d.walk p (piece :: rest) = .ok q ↔ d.Allows p piece ∧ d.walk (p.follow [piece]) rest = .ok q := by
  rw [walk]
  cases hdirectory : d.isDirectory p with
  | false => exact ⟨nofun, fun h => by rw [h.1.directory] at hdirectory; cases hdirectory⟩
  | true =>
  cases hstep : Path.isStep piece with
  | false =>
    have hallows : d.Allows p piece := ⟨hdirectory, fun h => by rw [hstep] at h; cases h⟩
    rw [Place.follow_of_not_isStep hstep]
    exact ⟨fun h => ⟨hallows, h⟩, fun h => h.2⟩
  | true =>
  by_cases hup : piece = ".."
  · subst hup
    have hallows : d.Allows p ".." := ⟨hdirectory, fun _ h => absurd rfl h⟩
    exact ⟨fun h => ⟨hallows, h⟩, fun h => h.2⟩
  · rw [Place.follow_name hstep hup]
    by_cases hshort : maxNameSize < piece.utf8ByteSize
    · simp only [Bool.not_true, Bool.false_eq_true, if_false, if_neg hup, if_pos hshort]
      exact ⟨nofun, fun h => absurd (h.1.entry hstep hup).1 (Nat.not_le.mpr hshort)⟩
    · simp only [Bool.not_true, Bool.false_eq_true, if_false, if_neg hup, if_neg hshort]
      cases hentry : (d.get? (p ++ [piece])).isSome with
      | false =>
        refine ⟨nofun, fun h => ?_⟩
        rw [(h.1.entry hstep hup).2] at hentry
        cases hentry
      | true =>
        have hallows : d.Allows p piece :=
          ⟨hdirectory, fun _ _ => ⟨Nat.not_lt.mp hshort, hentry⟩⟩
        exact ⟨fun h => ⟨hallows, h⟩, fun h => h.2⟩

theorem walk_append_iff {xs ys : List String} :
    d.walk p (xs ++ ys) = .ok q ↔ ∃ m, d.walk p xs = .ok m ∧ d.walk m ys = .ok q := by
  induction xs generalizing p with
  | nil =>
    rw [walk]
    exact ⟨fun h => ⟨p, rfl, h⟩, fun ⟨m, hm, h⟩ => by cases hm; exact h⟩
  | cons x xs ih =>
    rw [List.cons_append, walk_cons_iff, ih]
    simp only [walk_cons_iff, and_assoc, exists_and_left]

/-- A walk ends where the steps lead, whatever the disk holds. -/
theorem follow_eq_of_walk {pieces : List String} (h : d.walk p pieces = .ok q) :
    p.follow pieces = q := by
  induction pieces generalizing p with
  | nil =>
    rw [walk] at h
    cases h
    rfl
  | cons piece rest ih =>
    rw [Place.follow_cons]
    exact ih (walk_cons_iff.mp h).2

theorem isDirectory_of_walk {pieces : List String} (h : d.walk p pieces = .ok q)
    (hq : d.isDirectory q = true) : d.isDirectory p = true := by
  cases pieces with
  | nil =>
    rw [walk] at h
    cases h
    exact hq
  | cons piece rest => exact (walk_cons_iff.mp h).1.directory

theorem isSome_of_isDirectory (h : d.isDirectory p = true) : (d.get? p).isSome = true := by
  rw [isDirectory_eq] at h
  cases hp : d.get? p with
  | none => rw [hp] at h; cases h
  | some e => rfl

theorem walk_of_directories (hd : ∀ p, d.isDirectory p = true → d'.isDirectory p = true)
    {pieces : List String} (h : d.walk p pieces = .ok q) (hq : d.isDirectory q = true) :
    d'.walk p pieces = .ok q := by
  induction pieces generalizing p with
  | nil =>
    rw [walk] at h ⊢
    exact h
  | cons piece rest ih =>
    obtain ⟨hallows, hrest⟩ := walk_cons_iff.mp h
    refine walk_cons_iff.mpr ⟨⟨hd p hallows.directory, ?_⟩, ih hrest⟩
    intro hstep hup
    have hnext := isDirectory_of_walk hrest hq
    rw [Place.follow_name hstep hup] at hnext
    exact ⟨(hallows.entry hstep hup).1, isSome_of_isDirectory (hd _ hnext)⟩

end Walk

section Target

/-- The path ends in the name of a file, be it there or not, in a directory that is there. -/
structure NamesFile (d : Disk) (cwd : Place) (path : String) (directory : Place) (name : String) :
    Prop where
  checked : checkPath path = .ok ()
  pieces : ∃ before, Path.pieces path = before ++ [name] ∧
    d.walk (start cwd path) before = .ok directory
  present : d.isDirectory directory = true
  isStep : Path.isStep name = true
  ne_up : name ≠ ".."
  short : name.utf8ByteSize ≤ maxNameSize
  free : d.isDirectory (directory ++ [name]) = false

variable {d d' : Disk} {cwd p : Place} {path : String}

theorem ite_error_eq_ok_iff {ε α : Type} {c : Prop} [Decidable c] {e : ε} {x : Except ε α} {a : α} :
    (if c then .error e else x) = .ok a ↔ ¬ c ∧ x = .ok a := by
  by_cases hc : c
  · rw [if_pos hc]
    exact ⟨nofun, fun h => absurd hc h.1⟩
  · rw [if_neg hc]
    exact ⟨fun h => ⟨hc, h⟩, fun h => h.2⟩

theorem fromUTF8?_toUTF8 (s : String) : String.fromUTF8? s.toUTF8 = some s :=
  dif_pos s.isValidUTF8

theorem exists_namesFile (h : d.target cwd path = .ok p) :
    ∃ directory name, p = directory ++ [name] ∧ d.NamesFile cwd path directory name := by
  unfold target at h
  cases hchecked : checkPath path with
  | error e => rw [hchecked] at h; cases h
  | ok _ =>
  simp only [hchecked, bind, Except.bind] at h
  split at h
  · cases h
  rename_i name before hname
  cases hwalk : d.walk (start cwd path) before.reverse with
  | error e => simp only [hwalk] at h; cases h
  | ok directory =>
  simp only [hwalk] at h
  change (if _ then _ else _) = _ at h
  simp only [ite_error_eq_ok_iff, Bool.not_eq_true', Bool.not_eq_false, Bool.or_eq_true,
    decide_eq_true_eq, not_or, Nat.not_lt, Bool.not_eq_true] at h
  obtain ⟨hpresent, ⟨hdot, hup⟩, hshort, hfree, htrailing, hp⟩ := h
  have hnonempty := List.head?_dropWhile_not String.isEmpty (Path.pieces path).reverse
  rw [hname] at hnonempty
  have hpieces : (Path.pieces path).reverse = name :: before := by
    rw [← List.takeWhile_append_dropWhile (p := String.isEmpty) (l := (Path.pieces path).reverse),
      List.isEmpty_iff.mp htrailing, hname, List.nil_append]
  refine ⟨directory, name, (Except.ok.inj hp).symm, hchecked, ⟨before.reverse, ?_, hwalk⟩, hpresent,
    ?_, hup, hshort, hfree⟩
  · rw [← List.reverse_reverse (Path.pieces path), hpieces, List.reverse_cons]
  · rw [Path.isStep, show name.isEmpty = false from hnonempty, decide_eq_true hdot]
    rfl

namespace NamesFile

variable {directory : Place} {name : String}

theorem ofPath_eq (h : d.NamesFile cwd path directory name) :
    Place.ofPath cwd path = directory ++ [name] := by
  obtain ⟨before, hpieces, hwalk⟩ := h.pieces
  rw [Place.ofPath, hpieces, Place.follow_append, follow_eq_of_walk hwalk,
    Place.follow_name h.isStep h.ne_up]

theorem read_eq (h : d.NamesFile cwd path directory name)
    (hd : ∀ p, d.isDirectory p = true → d'.isDirectory p = true) {text : String}
    (hfile : d'.get? (directory ++ [name]) = some (.ofText text)) : d'.read cwd path = .ok text := by
  obtain ⟨before, hpieces, hwalk⟩ := h.pieces
  have hfind : d'.find cwd path = .ok (directory ++ [name]) := by
    have hnonempty : path.isEmpty = false := by
      apply Bool.eq_false_iff.mpr
      intro hempty
      rw [String.isEmpty_iff] at hempty
      subst hempty
      have hlast := congrArg List.getLast? hpieces
      rw [List.getLast?_concat] at hlast
      obtain rfl : "" = name := Option.some.inj hlast
      exact absurd h.isStep (by decide)
    rw [find, h.checked, hnonempty, hpieces]
    change d'.walk _ _ = _
    refine walk_append_iff.mpr ⟨directory, walk_of_directories hd hwalk h.present, ?_⟩
    rw [walk_cons_iff, Place.follow_name h.isStep h.ne_up]
    refine ⟨⟨hd _ h.present, fun _ _ => ⟨h.short, ?_⟩⟩, rfl⟩
    rw [hfile]
    rfl
  simp only [read, hfind, bind, Except.bind, hfile, Entry.ofText, fromUTF8?_toUTF8]

end NamesFile

end Target

section Operations

variable {o : Obstacle} {cwd : Place} {path text : String} {d d' : Disk}

/-- The place is as it was, or it held nothing and is a directory now, which satisfies `way`. -/
def Spares (way : Place → Prop) (d d' : Disk) (q : Place) : Prop :=
  d'.get? q = d.get? q ∨ (way q ∧ d.get? q = none ∧ d'.get? q = some .directory)

def AddsDirectories (way : Place → Prop) (d d' : Disk) : Prop :=
  ∀ q, Spares way d d' q

theorem Spares.congr {way : Place → Prop} {made : Disk} {q : Place} (h : Spares way d made q)
    (heq : d'.get? q = made.get? q) : Spares way d d' q := by
  unfold Spares
  rw [heq]
  exact h

theorem AddsDirectories.refl (way : Place → Prop) (d : Disk) : AddsDirectories way d d :=
  fun _ => .inl rfl

theorem AddsDirectories.mono {way way' : Place → Prop} (h : AddsDirectories way d d')
    (hway : ∀ q, way q → way' q) : AddsDirectories way' d d' :=
  fun q => (h q).imp id fun ⟨hq, hnone, hsome⟩ => ⟨hway q hq, hnone, hsome⟩

theorem AddsDirectories.trans {way : Place → Prop} {d'' : Disk} (h : AddsDirectories way d d')
    (h' : AddsDirectories way d' d'') : AddsDirectories way d d'' := by
  intro q
  rcases h' q with heq | ⟨hq, hnone, hsome⟩
  · exact (h q).congr heq
  · refine .inr ⟨hq, ?_, hsome⟩
    rcases h q with heq | ⟨-, -, hdirectory⟩
    · rw [← heq, hnone]
    · rw [hnone] at hdirectory
      cases hdirectory

/-- A place on the way of some pieces of a path from a place. -/
structure OnWay (p : Place) (pieces : List String) (q : Place) : Prop where
  eq_follow : ∃ before, before <+: pieces ∧ q = p.follow before
  not_hidden : ¬ q.IsHidden

theorem OnWay.later {p : Place} {piece : String} {rest : List String} {q : Place}
    (h : OnWay (p.follow [piece]) rest q) : OnWay p (piece :: rest) q := by
  obtain ⟨before, hbefore, hq⟩ := h.eq_follow
  exact ⟨⟨piece :: before, List.cons_prefix_cons.mpr ⟨rfl, hbefore⟩,
    hq.trans (p.follow_cons piece before).symm⟩, h.not_hidden⟩

theorem makeWay_addsDirectories (p : Place) (pieces : List String) (d : Disk) :
    AddsDirectories (OnWay p pieces) d (makeWay o p pieces d).2 := by
  induction pieces generalizing p d with
  | nil => exact .refl _ _
  | cons piece rest ih =>
    rw [makeWay]
    -- In the order of the checks; only the last case makes a directory.
    split
    · exact .refl _ _
    split
    · rename_i hstep
      have hsame := Place.follow_of_not_isStep (by simpa using hstep) p
      exact (ih p d).mono fun q hq => .later (by rwa [hsame])
    rename_i hstep
    split
    · rename_i hup
      subst hup
      exact (ih p.parent d).mono fun q hq => .later hq
    rename_i hup
    have hname := Place.follow_name (by simpa using hstep) hup p
    split
    · exact .refl _ _
    rename_i hshort
    split
    · exact (ih (p ++ [piece]) d).mono fun q hq => .later (by rwa [hname])
    rename_i hnone
    split
    · exact .refl _ _
    have hmade : AddsDirectories (OnWay p (piece :: rest)) d
        (d.put (p ++ [piece]) .directory) := by
      intro q
      unfold Spares
      rw [get?_put (by simp), Function.update_apply]
      split
      · rename_i hq
        subst hq
        have heq : p ++ [piece] = p.follow [piece] := hname.symm
        refine .inr ⟨⟨⟨[piece], ?_, heq⟩, Place.not_isHidden (Nat.not_lt.mp hshort) p⟩, ?_, rfl⟩
        · exact List.cons_prefix_cons.mpr ⟨rfl, List.nil_prefix⟩
        · simpa using hnone
      · exact .inl rfl
    exact hmade.trans ((ih (p ++ [piece]) _).mono fun q hq => .later (by rwa [hname]))

theorem makeDirectories_addsDirectories (d : Disk) :
    AddsDirectories (OnWay (start cwd path) (Path.pieces path)) d
      (d.makeDirectories o cwd path).2 := by
  have hway := makeWay_addsDirectories (o := o) (start cwd path) (Path.pieces path) d
  unfold makeDirectories
  split
  · exact .refl _ _
  split
  · exact .refl _ _
  split <;> (rename_i heq; rw [heq] at hway; exact hway)

/-- A text stands at a place that held nothing and that no path leads to. -/
structure Stages (d d' : Disk) (p : Place) (text : String) : Prop where
  hidden : p.IsHidden
  absent : d.get? p = none
  get?_eq : d'.get? = Function.update d.get? p (some (.ofText text))

theorem stages_of_stage {p : Place} (h : d.stage o cwd path text = (.ok p, d')) :
    Stages d d' p text := by
  unfold stage at h
  split at h
  · cases h
  rename_i directory _
  have hhidden := isHidden_freshName directory d
  simp only at h
  split at h
  · cases h
  split at h
  · cases h
  cases h
  refine ⟨hhidden, get?_freshName directory d, ?_⟩
  rw [get?_put hhidden.ne_nil, get?_put hhidden.ne_nil, Function.update_idem]

namespace Stages

variable {d₁ d₂ d₃ : Disk} {p q : Place} {text' : String}

theorem get?_remove (h : Stages d d' p text) : (d'.remove p).get? = d.get? := by
  rw [Disk.get?_remove h.hidden.ne_nil, h.get?_eq, Function.update_idem, ← h.absent,
    Function.update_eq_self]

theorem get?_self (h : Stages d d' p text) : d'.get? p = some (.ofText text) := by
  rw [h.get?_eq, Function.update_self]

theorem congr {later : Disk} (h : Stages d d' p text) (heq : later.get? = d'.get?) :
    Stages d later p text where
  hidden := h.hidden
  absent := h.absent
  get?_eq := heq.trans h.get?_eq

/-- Of two texts that were staged the second may be taken for the first. -/
theorem swap (h : Stages d₁ d₂ p text) (h' : Stages d₂ d₃ q text') :
    Stages d₁ (d₃.remove p) q text' ∧ Stages (d₃.remove p) d₃ p text := by
  have hne : q ≠ p := by
    rintro rfl
    have habsent := h'.absent
    rw [h.get?_self] at habsent
    cases habsent
  have hp : d₃.get? p = some (.ofText text) := by
    rw [h'.get?_eq, Function.update_of_ne hne.symm, h.get?_self]
  have hremoved : (d₃.remove p).get? = Function.update d₁.get? q (some (.ofText text')) := by
    rw [Disk.get?_remove h.hidden.ne_nil, h'.get?_eq, Function.update_comm hne,
      ← Disk.get?_remove h.hidden.ne_nil, h.get?_remove]
  refine ⟨⟨h'.hidden, ?_, hremoved⟩, ⟨h.hidden, ?_, ?_⟩⟩
  · rw [← h'.absent, h.get?_eq, Function.update_of_ne hne]
  · rw [Disk.get?_remove h.hidden.ne_nil, Function.update_self]
  · rw [Disk.get?_remove h.hidden.ne_nil, Function.update_idem, ← hp, Function.update_eq_self]

/-- What is staged does not get in the way of a file that a path leads to. -/
theorem put (h : Stages d d' p text) {e : Entry} (hne : q ≠ []) (hq : ¬ q.IsHidden) :
    Stages (d.put q e) (d'.put q e) p text := by
  have hpq := h.hidden.ne hq
  refine ⟨h.hidden, ?_, ?_⟩
  · rw [get?_put hne, Function.update_of_ne hpq, h.absent]
  · rw [get?_put hne, get?_put hne, h.get?_eq, Function.update_comm hpq]

end Stages

theorem get?_of_stage_error {e : SystemError} (h : d.stage o cwd path text = (.error e, d')) :
    d'.get? = d.get? := by
  unfold stage at h
  split at h
  · cases h
    rfl
  rename_i directory _
  have hhidden := isHidden_freshName directory d
  have hcreated : Stages d (d.put (directory ++ [d.freshName]) (.ofText ""))
      (directory ++ [d.freshName]) "" :=
    ⟨hhidden, get?_freshName directory d, get?_put hhidden.ne_nil _ _⟩
  simp only at h
  split at h
  · cases h
    rfl
  split at h
  · cases h
    exact hcreated.get?_remove
  · cases h

theorem move_error {e : SystemError} {source : Place}
    (h : d.move o cwd source path = (.error e, d')) : d' = d := by
  unfold move at h
  split at h
  · cases h
    rfl
  split at h <;> cases h <;> rfl

/-- A text was moved from where it was to the file that a path names. -/
structure Moves (d d' : Disk) (cwd : Place) (path : String) (source p : Place) (text : String) :
    Prop where
  names : ∃ directory name, p = directory ++ [name] ∧ d.NamesFile cwd path directory name
  present : d.get? source = some (.ofText text)
  eq_put : d' = (d.remove source).put p (.ofText text)

theorem moves_of_move {p source : Place} (hsource : d.get? source = some (.ofText text))
    (h : d.move o cwd source path = (.ok p, d')) : Moves d d' cwd path source p text := by
  unfold move at h
  rw [hsource] at h
  split at h
  · cases h
  rename_i q hq
  split at h
  · cases h
  · rename_i heq
    cases heq
  · rename_i heq
    cases heq
    cases h
    exact ⟨exists_namesFile hq, hsource, rfl⟩

namespace Moves

variable {p source : Place}

theorem ofPath_eq (h : Moves d d' cwd path source p text) : Place.ofPath cwd path = p := by
  obtain ⟨directory, name, rfl, hnames⟩ := h.names
  exact hnames.ofPath_eq

theorem ne_nil (h : Moves d d' cwd path source p text) : p ≠ [] := by
  obtain ⟨directory, name, rfl, -⟩ := h.names
  exact List.append_ne_nil_of_right_ne_nil directory (List.cons_ne_nil name [])

theorem not_isHidden (h : Moves d d' cwd path source p text) : ¬ p.IsHidden := by
  obtain ⟨directory, name, rfl, hnames⟩ := h.names
  exact Place.not_isHidden hnames.short directory

theorem get?_eq {start : Disk} (h : Moves d d' cwd path source p text)
    (hstages : Stages start d source text) : d'.get? = (start.put p (.ofText text)).get? := by
  rw [h.eq_put, get?_put h.ne_nil, hstages.get?_remove, get?_put h.ne_nil]

theorem isDirectory (h : Moves d d' cwd path source p text) (hne : source ≠ []) {q : Place}
    (hq : d.isDirectory q = true) : d'.isDirectory q = true := by
  have hsource : q ≠ source := by
    rintro rfl
    rw [isDirectory_eq, h.present] at hq
    cases hq
  have htarget : q ≠ p := by
    rintro rfl
    obtain ⟨directory, name, rfl, hnames⟩ := h.names
    rw [hnames.free] at hq
    cases hq
  rw [isDirectory_eq, h.eq_put, get?_put h.ne_nil, Function.update_of_ne htarget,
    Disk.get?_remove hne, Function.update_of_ne hsource]
  exact hq

theorem read_eq {later : Disk} (h : Moves d d' cwd path source p text)
    (hd : ∀ q, d.isDirectory q = true → later.isDirectory q = true) {text' : String}
    (hfile : later.get? p = some (.ofText text')) : later.read cwd path = .ok text' := by
  obtain ⟨directory, name, rfl, hnames⟩ := h.names
  exact hnames.read_eq hd hfile

end Moves

end Operations

end Disk

end Runbooks
