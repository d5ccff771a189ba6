import Mathlib.Data.List.Basic
import Runbooks.CommandLine.Invocation

/-!
Where a command line's settings come from. What its words give is explicit, was checked, and is the
same whatever variables are set; variables only fill in what the words leave open.
-/

namespace Runbooks.CommandLine

theorem bind_eq_ok {ε α β : Type} {x : Except ε α} {f : α → Except ε β} {b : β}
    (h : (x >>= f) = .ok b) : ∃ a, x = .ok a ∧ f a = .ok b := by
  cases x with
  | error e => cases h
  | ok a => exact ⟨a, rfl, h⟩

theorem eq_ok_of_complain {α : Type} {spec : Spec} {x : Except Complaint α} {a : α}
    (h : spec.complain x = .ok a) : x = .ok a := by
  cases x with
  | error c => cases h
  | ok a' => exact congrArg Except.ok (Except.ok.inj h)

theorem eq_ok_of_mem_of_forM {ε α : Type} {f : α → Except ε Unit} {xs : List α}
    (h : xs.forM f = .ok ()) : ∀ x ∈ xs, f x = .ok () := by
  induction xs with
  | nil => nofun
  | cons x xs ih =>
    obtain ⟨_, hx, hxs⟩ := bind_eq_ok h
    exact List.forall_mem_cons.mpr ⟨hx, ih hxs⟩

section Given

variable {slot : Slot} {values : List String} {m m' : Matches} {spec : Spec} {g : Given}

/-- The kind of the values that an option takes, if it takes any. -/
def Slot.kind? : Slot → Option ValueKind
  | .switch s =>
    match s.effect with
    | .value _ kind => some kind
    | _ => none
  | .positional _ => none

/-- What the command line gives to a slot: it is explicit, and an option that takes a value has one
of its kind. -/
structure Slot.Yields (slot : Slot) (g : Given) : Prop where
  key : g.key = slot.key
  explicit : g.explicit = true
  values : ∀ kind, slot.kind? = some kind →
    g.values ≠ [] ∧ ∀ v ∈ g.values, checkValue kind slot.text v = .ok ()

theorem yields_of_give (h : Matches.give slot values m = .ok m') :
    ∃ g, slot.Yields g ∧ m' = m.add g := by
  unfold Matches.give at h
  cases slot with
  | positional p =>
    obtain ⟨_, _, h⟩ := bind_eq_ok h
    obtain ⟨_, _, h⟩ := bind_eq_ok h
    exact ⟨_, ⟨rfl, rfl, nofun⟩, (Except.ok.inj h).symm⟩
  | switch s =>
    cases heffect : s.effect with
    | value name kind =>
      simp only [heffect] at h
      split at h
      · cases h
      rename_i hvalues
      obtain ⟨_, _, h⟩ := bind_eq_ok h
      obtain ⟨_, hchecked, h⟩ := bind_eq_ok h
      refine ⟨_, ⟨rfl, rfl, fun kind' hkind => ?_⟩, (Except.ok.inj h).symm⟩
      have heq : kind = kind' := by simpa [Slot.kind?, heffect] using hkind
      subst heq
      exact ⟨fun hnil => hvalues (List.isEmpty_iff.mpr hnil), eq_ok_of_mem_of_forM hchecked⟩
    | count =>
      simp only [heffect] at h
      refine ⟨_, ⟨rfl, rfl, fun kind hkind => ?_⟩, (Except.ok.inj h).symm⟩
      simp [Slot.kind?, heffect] at hkind
    | flag | help | version =>
      simp only [heffect] at h
      obtain ⟨_, _, h⟩ := bind_eq_ok h
      refine ⟨_, ⟨rfl, rfl, fun kind hkind => ?_⟩, (Except.ok.inj h).symm⟩
      simp [Slot.kind?, heffect] at hkind

def Spec.slots (spec : Spec) : List Slot :=
  spec.switches.map .switch ++ spec.positionals.map .positional

/-- All that is given comes from the command's own slots, and so does what is pending. -/
structure Spec.Holds (spec : Spec) (m : Matches) : Prop where
  given : ∀ g ∈ m.given, ∃ slot ∈ spec.slots, slot.Yields g
  pending : ∀ slot values, m.pending = some (slot, values) → slot ∈ spec.slots

theorem Spec.switch_mem_slots {s : Switch} (h : s ∈ spec.switches) : .switch s ∈ spec.slots :=
  List.mem_append.mpr (.inl (List.mem_map_of_mem h))

theorem Spec.positional_mem_slots {p : Positional} (h : p ∈ spec.positionals) :
    .positional p ∈ spec.slots :=
  List.mem_append.mpr (.inr (List.mem_map_of_mem h))

end Given

namespace Spec.Holds

variable {spec : Spec} {m m' : Matches} {s : Switch} {slot : Slot} {values : List String}

theorem empty (spec : Spec) : spec.Holds {} where
  given := nofun
  pending := nofun

theorem await_slot (hm : spec.Holds m) (hslot : slot ∈ spec.slots) :
    spec.Holds { m with pending := some (slot, values) } where
  given := hm.given
  pending slot' values' h := by
    obtain rfl := (Prod.mk.inj (Option.some.inj h)).1
    exact hslot

theorem give (hm : spec.Holds m) (hslot : slot ∈ spec.slots)
    (h : Matches.give slot values m = .ok m') : spec.Holds m' := by
  obtain ⟨g, hyields, rfl⟩ := yields_of_give h
  refine ⟨fun g' hg' => ?_, hm.pending⟩
  rcases List.mem_append.mp hg' with hold | hnew
  · exact hm.given g' (List.mem_filter.mp hold).1
  · rw [List.mem_singleton.mp hnew]
    exact ⟨slot, hslot, hyields⟩

theorem resolve (hm : spec.Holds m) (h : m.resolve = .ok m') : spec.Holds m' := by
  unfold Matches.resolve at h
  split at h
  · obtain rfl := Except.ok.inj h
    exact hm
  · rename_i slot values hpending
    have hcleared : spec.Holds { m with pending := none } := ⟨hm.given, nofun⟩
    exact hcleared.give (hm.pending slot values hpending) h

theorem react (hm : spec.Holds m) (hs : s ∈ spec.switches) {long : Bool}
    (h : spec.react s long values m = .ok m') : spec.Holds m' := by
  obtain ⟨m₁, hresolve, h⟩ := bind_eq_ok h
  have hm₁ := hm.resolve (eq_ok_of_complain hresolve)
  split at h
  · cases h
  · cases h
  · exact hm₁.give (switch_mem_slots hs) (eq_ok_of_complain h)

theorem await (hm : spec.Holds m) (hs : s ∈ spec.switches) (h : spec.await s m = .ok m') :
    spec.Holds m' := by
  obtain ⟨m₁, hresolve, h⟩ := bind_eq_ok h
  obtain rfl := Except.ok.inj h
  exact (hm.resolve (eq_ok_of_complain hresolve)).await_slot (switch_mem_slots hs)

theorem longOption (hm : spec.Holds m) {word : List Char} (h : spec.longOption word m = .ok m') :
    spec.Holds m' := by
  unfold Spec.longOption at h
  extract_lets name value at h
  split at h
  · cases h
  · rename_i hfind _
    have hs := List.mem_of_find?_eq_some hfind
    split at h
    · exact hm.react hs h
    · cases h
  · rename_i hfind _
    have hs := List.mem_of_find?_eq_some hfind
    split at h
    · exact hm.await hs h
    · exact hm.react hs h

theorem shortOptions (hm : spec.Holds m) {letters : List Char}
    (h : spec.shortOptions letters m = .ok m') : spec.Holds m' := by
  induction letters generalizing m with
  | nil =>
    obtain rfl := Except.ok.inj h
    exact hm
  | cons c rest ih =>
    unfold Spec.shortOptions at h
    split at h
    · cases h
    rename_i hfind
    have hs := List.mem_of_find?_eq_some hfind
    split at h
    · split at h
      · exact hm.await hs h
      · exact hm.react hs h
      · exact hm.react hs h
    · obtain ⟨m₁, hreact, h⟩ := bind_eq_ok h
      exact ih (hm.react hs hreact) h

theorem argument (hm : spec.Holds m) {position position' : Nat} {behindDashes : Bool}
    {word : String} (h : spec.argument position behindDashes word m = .ok (m', position')) :
    spec.Holds m' := by
  unfold Spec.argument at h
  simp only at h
  split at h
  · split at h <;> cases h
  rename_i p hp
  have hslot := positional_mem_slots (List.mem_of_getElem? hp)
  have hresolved : ∀ {m₁ position₁}, (do
      let m ← spec.complain m.resolve
      return ({ m with pending := some (.positional p, [word]) }, position₁)) =
        .ok (m₁, position') → spec.Holds m₁ := by
    intro m₁ position₁ h
    obtain ⟨m₂, hresolve, h⟩ := bind_eq_ok h
    obtain rfl := (Prod.mk.inj (Except.ok.inj h)).1
    exact (hm.resolve (eq_ok_of_complain hresolve)).await_slot hslot
  split at h
  · cases h
  split at h
  · split at h
    · obtain rfl := (Prod.mk.inj (Except.ok.inj h)).1
      exact hm.await_slot hslot
    · exact hresolved h
  · exact hresolved h

theorem scan (hm : spec.Holds m) {position : Nat} {behindDashes : Bool} {words : List String}
    {called : Option (Spec × List String)}
    (h : spec.scan position behindDashes words m = .ok (m', called)) :
    spec.Holds m' ∧ ∀ c rest, called = some (c, rest) → c ∈ commands := by
  induction words generalizing m position behindDashes with
  | nil =>
    obtain ⟨rfl, rfl⟩ := Prod.mk.inj (Except.ok.inj h)
    exact ⟨hm, nofun⟩
  | cons word rest ih =>
    unfold Spec.scan at h
    simp only at h
    -- The cases are those of a word: behind the dashes, a command, the dashes themselves, a long
    -- option, short ones, the value of an option that awaits it, an argument.
    generalize hcalled : (if (spec.isProgram && !m.awaits) = true then command? word else none) =
      found at h
    split at h
    · obtain ⟨⟨m₁, position₁⟩, hargument, h⟩ := bind_eq_ok h
      exact ih (hm.argument hargument) h
    split at h
    · rename_i c
      split at h
      · obtain ⟨_, hhelp, h⟩ := bind_eq_ok h
        obtain ⟨rfl, rfl⟩ := Prod.mk.inj (Except.ok.inj h)
        exact ⟨hm, nofun⟩
      · obtain ⟨rfl, rfl⟩ := Prod.mk.inj (Except.ok.inj h)
        refine ⟨hm, fun c' rest' heq => ?_⟩
        obtain ⟨rfl, rfl⟩ := Prod.mk.inj (Option.some.inj heq)
        have hcommand := (Option.ite_none_right_eq_some.mp hcalled).2
        exact List.mem_of_find?_eq_some hcommand
    split at h
    · exact ih hm h
    split at h
    · obtain ⟨m₁, hlong, h⟩ := bind_eq_ok h
      exact ih (hm.longOption hlong) h
    split at h
    · obtain ⟨m₁, hshort, h⟩ := bind_eq_ok h
      exact ih (hm.shortOptions hshort) h
    split at h
    · rename_i s hpending
      exact ih (hm.await_slot (hm.pending _ _ hpending)) h
    · obtain ⟨⟨m₁, position₁⟩, hargument, h⟩ := bind_eq_ok h
      exact ih (hm.argument hargument) h

end Spec.Holds

section Variables

variable {vars : Variables} {spec : Spec} {switches : List Switch} {m m' : Matches} {g : Given}

/-- No variable is set. -/
def noVariables : Variables :=
  fun _ => none

/-- What its variable gives to an option that takes a value. -/
def Switch.fill? (vars : Variables) (s : Switch) : Option Given :=
  match s.variableName.bind vars, s.effect with
  | some v, .value _ _ => some ⟨s.long, [v], false⟩
  | _, _ => none

/-- What the variables give for a key: the first option with this name and a value takes it. -/
def filled? (vars : Variables) (switches : List Switch) (key : String) : Option Given :=
  switches.findSome? fun s => if s.long = key then s.fill? vars else none

theorem Switch.eq_of_fill? {s : Switch} (h : s.fill? vars = some g) :
    ∃ v, s.variableName.bind vars = some v ∧ g = ⟨s.long, [v], false⟩ := by
  unfold Switch.fill? at h
  split at h
  · rename_i v _ _ hv _
    exact ⟨v, hv, (Option.some.inj h).symm⟩
  · cases h

theorem Switch.fill?_eq_some {s : Switch} {v name : String} {kind : ValueKind}
    (hv : s.variableName.bind vars = some v) (heffect : s.effect = .value name kind) :
    s.fill? vars = some ⟨s.long, [v], false⟩ := by
  simp only [Switch.fill?, hv, heffect]

theorem filled?_cons (s : Switch) (switches : List Switch) (key : String) :
    filled? vars (s :: switches) key =
      if s.long = key then (s.fill? vars).or (filled? vars switches key)
      else filled? vars switches key := by
  unfold filled?
  rw [List.findSome?_cons]
  by_cases hkey : s.long = key
  · rw [if_pos hkey, if_pos hkey]
    cases s.fill? vars <;> rfl
  · rw [if_neg hkey, if_neg hkey]

theorem eq_of_filled? {key : String} (h : filled? vars switches key = some g) :
    ∃ s ∈ switches, s.long = key ∧ ∃ v, s.variableName.bind vars = some v ∧
      g = ⟨key, [v], false⟩ := by
  obtain ⟨s, hs, hfilled⟩ := List.exists_of_findSome?_eq_some h
  obtain ⟨rfl, hfill⟩ := Option.ite_none_right_eq_some.mp hfilled
  obtain ⟨v, hv, rfl⟩ := Switch.eq_of_fill? hfill
  exact ⟨s, hs, rfl, v, hv, rfl⟩

theorem filled?_isSome {s : Switch} (hs : s ∈ switches) {v : String}
    (hv : s.variableName.bind vars = some v) (hvalue : s.valueName?.isSome) :
    (filled? vars switches s.long).isSome := by
  rw [filled?, List.findSome?_isSome_iff]
  refine ⟨s, hs, ?_⟩
  unfold Switch.valueName? at hvalue
  split at hvalue
  · rename_i heffect
    rw [if_pos rfl, Switch.fill?_eq_some hv heffect]
    rfl
  · cases hvalue

theorem find?_add (m : Matches) (g : Given) (key : String) :
    (m.add g).find? key = if g.key = key then some g else m.find? key := by
  unfold Matches.add Matches.find?
  rw [List.find?_append, List.find?_filter]
  split
  · rename_i hkey
    have hnone : m.given.find? (fun a => a.key ≠ g.key ∧ a.key = key) = none := by
      rw [List.find?_eq_none]
      intro a _
      simp [hkey]
    simp only [decide_eq_true_eq]
    rw [hnone, Option.none_or, List.find?_cons_of_pos (by simpa using hkey)]
  · rename_i hkey
    have hsame : (fun a : Given => decide (a.key ≠ g.key ∧ a.key = key)) =
        fun a => decide (a.key = key) := by
      funext a
      by_cases ha : a.key = key <;> simp [ha, Ne.symm hkey]
    simp only [decide_eq_true_eq]
    rw [hsame, List.find?_cons_of_neg (by simpa using hkey), List.find?_nil, Option.or_none]

theorem has_eq_isSome (m : Matches) (key : String) : m.has key = (m.find? key).isSome := by
  rw [Matches.has, Matches.find?, Bool.eq_iff_iff, List.any_eq_true, List.find?_isSome]

theorem find?_addVariables (h : Spec.addVariables vars switches m = .ok m') (key : String) :
    m'.find? key = (m.find? key).or (filled? vars switches key) := by
  induction switches generalizing m with
  | nil =>
    obtain rfl := Except.ok.inj h
    exact (Option.or_none).symm
  | cons s rest ih =>
    rw [filled?_cons]
    unfold Spec.addVariables at h
    split at h
    · rename_i v name kind hv heffect
      rw [Switch.fill?_eq_some hv heffect]
      split at h
      · rename_i hhas
        rw [ih h]
        split
        · rename_i hkey
          subst hkey
          obtain ⟨g, hg⟩ := Option.isSome_iff_exists.mp ((has_eq_isSome m s.long).symm.trans hhas)
          rw [hg, Option.some_or, Option.some_or]
        · rfl
      · rename_i hhas
        obtain ⟨_, _, h⟩ := bind_eq_ok h
        rw [ih h, find?_add]
        split
        · rename_i hkey
          subst hkey
          have hnone : m.find? s.long = none := by
            simpa [has_eq_isSome] using hhas
          rw [hnone, Option.none_or]
        · rfl
    · rename_i hother
      have hfill : s.fill? vars = none := by
        unfold Switch.fill?
        split
        · rename_i v name kind hv heffect
          exact absurd heffect (hother v name kind hv)
        · rfl
      rw [ih h, hfill, Option.none_or, ite_self]

theorem addVariables_noVariables : Spec.addVariables noVariables switches m = .ok m := by
  induction switches with
  | nil => rfl
  | cons s rest ih =>
    have hnone : s.variableName.bind noVariables = none := by
      cases s.variableName <;> rfl
    simp only [Spec.addVariables, hnone, ih]

/-- No option has the name of a positional argument. -/
def Spec.Separate (spec : Spec) : Prop :=
  ∀ p ∈ spec.positionals, ∀ s ∈ spec.switches, s.long ≠ p.key

instance (spec : Spec) : Decidable spec.Separate :=
  inferInstanceAs (Decidable (∀ p ∈ spec.positionals, ∀ s ∈ spec.switches, s.long ≠ p.key))

theorem filled?_of_separate (hspec : spec.Separate) {p : Positional} (hp : p ∈ spec.positionals) :
    filled? vars spec.switches p.key = none := by
  rw [filled?, List.findSome?_eq_none_iff]
  intro s hs
  exact if_neg (hspec p hp s hs)

/-- Variables fill in what the words leave open; they change nothing else. -/
theorem complete_variables (hspec : spec.Separate) (hm : spec.Holds m)
    (h : Spec.complete vars spec m = .ok m') :
    ∃ bare, Spec.complete noVariables spec m = .ok bare ∧ spec.Holds bare ∧
      ∀ key, m'.find? key = (bare.find? key).or (filled? vars spec.switches key) := by
  obtain ⟨bare, hresolve, h⟩ := bind_eq_ok h
  obtain ⟨m₁, hvariables, h⟩ := bind_eq_ok h
  have hfind := find?_addVariables (eq_ok_of_complain hvariables)
  -- No variable gives an argument, so that the same ones are missing with and without variables.
  have hhas : ∀ p ∈ spec.positionals, m₁.has p.key = bare.has p.key := by
    intro p hp
    rw [has_eq_isSome, has_eq_isSome, hfind, filled?_of_separate hspec hp, Option.or_none]
  have hmissing : (spec.positionals.filter fun p => !p.rest && !m₁.has p.key) =
      spec.positionals.filter fun p => !p.rest && !bare.has p.key := by
    apply List.filter_congr
    intro p hp
    rw [hhas p hp]
  rw [hmissing] at h
  simp only at h
  split at h
  · rename_i hnone
    obtain rfl := Except.ok.inj h
    refine ⟨bare, ?_, hm.resolve (eq_ok_of_complain hresolve), hfind⟩
    have hbare : spec.complain (Spec.addVariables noVariables spec.switches bare) = .ok bare := by
      rw [addVariables_noVariables]
      rfl
    simp only [Spec.complete, hresolve, hbare, bind, Except.bind, hnone, if_true]
    rfl
  · cases h

end Variables

section Calls

variable {vars : Variables} {words : List String} {call : Call} {key : String}

theorem separate_of_mem_commands : ∀ spec ∈ Spec.commands, spec.Separate := by
  decide

theorem separate_program : Spec.program.Separate := by
  decide

/-- A call as its words alone spell it. -/
structure Bare (words : List String) (bare : Call) : Prop where
  reads : Call.read noVariables words = .ok bare
  spec_mem : bare.spec ∈ Spec.commands
  inner : bare.spec.Holds bare.inner
  outer : Spec.program.Holds bare.outer

theorem Spec.Holds.explicit {spec : Spec} {m : Matches} {g : Given} (hm : spec.Holds m)
    (h : m.find? key = some g) : g.explicit = true := by
  obtain ⟨slot, -, hyields⟩ := hm.given g (List.mem_of_find?_eq_some h)
  exact hyields.explicit

/-- What a call says beyond its words comes from variables. -/
structure Fills (vars : Variables) (bare call : Call) : Prop where
  spec_eq : bare.spec = call.spec
  find?_eq : ∀ key, call.find? key = ((bare.find? key).or (filled? vars call.spec.switches key)).or
    (filled? vars Spec.program.switches key)

/-- Of what is given behind a command and in front of it, what counts. -/
def strongest : Option Given → Option Given → Option Given
  | some i, some o => if o.explicit && !i.explicit then some o else some i
  | some i, none => some i
  | none, o => o

theorem find?_eq_strongest (c : Call) (key : String) :
    c.find? key = strongest (c.inner.find? key) (c.outer.find? key) := by
  unfold Call.find?
  cases c.inner.find? key <;> cases c.outer.find? key <;> rfl

section Strongest

variable {i o fi fo : Option Given}

theorem strongest_of_explicit (hi : ∀ g, i = some g → g.explicit = true) :
    strongest i o = i.or o := by
  cases i with
  | none => rfl
  | some i =>
    have hexplicit := hi i rfl
    cases o with
    | none => rfl
    | some o => simp [strongest, hexplicit]

theorem strongest_or (hi : ∀ g, i = some g → g.explicit = true)
    (ho : ∀ g, o = some g → g.explicit = true) (hfi : ∀ g, fi = some g → g.explicit = false)
    (hfo : ∀ g, fo = some g → g.explicit = false) :
    strongest (i.or fi) (o.or fo) = ((strongest i o).or fi).or fo := by
  rw [strongest_of_explicit hi]
  cases i with
  | some i =>
    have hexplicit := hi i rfl
    cases o.or fo <;> simp [strongest, hexplicit]
  | none =>
    cases fi with
    | none => cases o <;> simp [strongest]
    | some fi =>
      have hvariable := hfi fi rfl
      cases o with
      | some o => simp [strongest, ho o rfl, hvariable]
      | none =>
        cases fo with
        | none => rfl
        | some fo => simp [strongest, hfo fo rfl]

end Strongest

theorem find?_eq_or {bare : Call} (h : Bare words bare) (key : String) :
    bare.find? key = (bare.inner.find? key).or (bare.outer.find? key) := by
  rw [find?_eq_strongest]
  exact strongest_of_explicit fun _ => h.inner.explicit

/-- A call is found in its words alone, and variables fill in what these leave open. -/
theorem exists_bare (h : Call.read vars words = .ok call) :
    ∃ bare, Bare words bare ∧ Fills vars bare call := by
  unfold Call.read at h
  obtain ⟨⟨outer, called⟩, hscan, h⟩ := bind_eq_ok h
  obtain ⟨houter, hcalled⟩ := (Spec.Holds.empty Spec.program).scan hscan
  rcases called with _ | ⟨spec, rest⟩
  · obtain ⟨m, -, h⟩ := bind_eq_ok h
    split at h <;> cases h
  have hspec := hcalled spec rest rfl
  obtain ⟨⟨inner, called'⟩, hscan', h⟩ := bind_eq_ok h
  obtain ⟨inner', hinner, h⟩ := bind_eq_ok h
  obtain ⟨outer', houter', h⟩ := bind_eq_ok h
  obtain rfl := Except.ok.inj h
  have hbegun := ((Spec.Holds.empty spec).scan hscan').1
  obtain ⟨bareInner, hcomplete, hholds, hfind⟩ :=
    complete_variables (separate_of_mem_commands spec hspec) hbegun hinner
  obtain ⟨bareOuter, hcomplete', hholds', hfind'⟩ :=
    complete_variables separate_program houter houter'
  have hbare : Bare words ⟨spec, bareOuter, bareInner⟩ := by
    refine ⟨?_, hspec, hholds, hholds'⟩
    simp only [Call.read, hscan, hscan', hcomplete, hcomplete', bind, Except.bind]
    rfl
  refine ⟨_, hbare, rfl, fun key => ?_⟩
  have hfilled : ∀ {switches g}, filled? vars switches key = some g → g.explicit = false := by
    intro switches g h
    obtain ⟨_, -, -, v, -, rfl⟩ := eq_of_filled? h
    rfl
  rw [find?_eq_strongest, find?_eq_strongest, hfind key, hfind' key]
  exact strongest_or (fun _ => hholds.explicit) (fun _ => hholds'.explicit) (fun _ => hfilled)
    fun _ => hfilled

end Calls

section Values

variable {vars : Variables} {words : List String} {bare call : Call} {key : String}
variable {kind : ValueKind} {α : Type}

/-- Where a key is an option, its values are of one kind. -/
def Takes (key : String) (kind : ValueKind) : Prop :=
  ∀ spec ∈ Spec.program :: Spec.commands, ∀ slot ∈ spec.slots,
    slot.key = key → slot.kind? = some kind

instance (key : String) (kind : ValueKind) : Decidable (Takes key kind) :=
  inferInstanceAs (Decidable (∀ spec ∈ Spec.program :: Spec.commands, ∀ slot ∈ spec.slots,
    slot.key = key → slot.kind? = some kind))

theorem Bare.exists_value (h : Bare words bare) (takes : Takes key kind) {g : Given}
    (hfind : bare.find? key = some g) :
    ∃ v argument, g.values.head? = some v ∧ checkValue kind argument v = .ok () := by
  obtain ⟨spec, hspec, m, hm, hmfind⟩ : ∃ spec ∈ Spec.program :: Spec.commands,
      ∃ m, spec.Holds m ∧ m.find? key = some g := by
    rw [find?_eq_or h, Option.or_eq_some_iff] at hfind
    rcases hfind with hinner | ⟨-, houter⟩
    · exact ⟨bare.spec, List.mem_cons_of_mem _ h.spec_mem, bare.inner, h.inner, hinner⟩
    · exact ⟨Spec.program, List.mem_cons_self, bare.outer, h.outer, houter⟩
  obtain ⟨slot, hslot, hyields⟩ := hm.given g (List.mem_of_find?_eq_some hmfind)
  have hkey : slot.key = key := by
    have := List.find?_some hmfind
    rw [← hyields.key]
    simpa using this
  obtain ⟨hne, hchecked⟩ := hyields.values kind (takes spec hspec slot hslot hkey)
  obtain ⟨v, rest, hvalues⟩ := List.exists_cons_of_ne_nil hne
  exact ⟨v, slot.text, by rw [hvalues]; rfl, hchecked v (by rw [hvalues]; exact List.mem_cons_self)⟩

/-- The value of an option where it is given, and another one where it is not. -/
def Call.Chooses (c : Call) (key : String) (read : String → Option α) (otherwise used : α) : Prop :=
  match c.find? key with
  | none => used = otherwise
  | some g => ∃ v, g.values.head? = some v ∧ read v = some used

theorem Bare.chooses (h : Bare words bare) (takes : Takes key kind) {read : String → Option α}
    (hread : ∀ argument v, checkValue kind argument v = .ok () → (read v).isSome) (otherwise : α) :
    bare.Chooses key read otherwise (((bare.value? key).bind read).getD otherwise) := by
  unfold Call.Chooses Call.value?
  split
  · rename_i hfind
    rw [hfind]
    rfl
  · rename_i g hfind
    obtain ⟨v, argument, hvalue, hchecked⟩ := h.exists_value takes hfind
    obtain ⟨used, hused⟩ := Option.isSome_iff_exists.mp (hread argument v hchecked)
    refine ⟨v, hvalue, ?_⟩
    rw [hfind, Option.bind_some, hvalue, Option.bind_some, hused, Option.getD_some]

/-- Where a key is an option, its variable is `name?`. -/
def FilledBy (key : String) (name? : Option String) : Prop :=
  ∀ spec ∈ Spec.program :: Spec.commands, ∀ s ∈ spec.switches,
    s.long = key → s.variableName = name?

instance (key : String) (name? : Option String) : Decidable (FilledBy key name?) :=
  inferInstanceAs (Decidable (∀ spec ∈ Spec.program :: Spec.commands, ∀ s ∈ spec.switches,
    s.long = key → s.variableName = name?))

theorem FilledBy.eq_of_filled? {name? : Option String} (hkey : FilledBy key name?) {spec : Spec}
    (hspec : spec ∈ Spec.program :: Spec.commands) {g : Given}
    (h : filled? vars spec.switches key = some g) :
    ∃ v, name?.bind vars = some v ∧ g = ⟨key, [v], false⟩ := by
  obtain ⟨s, hs, hlong, v, hv, rfl⟩ := CommandLine.eq_of_filled? h
  rw [hkey spec hspec s hs hlong] at hv
  exact ⟨v, hv, rfl⟩

namespace Fills

theorem filled (h : Fills vars bare call) (hbare : Bare words bare) {name? : Option String}
    (hkey : FilledBy key name?) (hfind : bare.find? key = none) {g : Given}
    (hg : call.find? key = some g) : ∃ v, name?.bind vars = some v ∧ g = ⟨key, [v], false⟩ := by
  rw [h.find?_eq, hfind, Option.none_or, Option.or_eq_some_iff] at hg
  rcases hg with hspec | ⟨-, hprogram⟩
  · exact hkey.eq_of_filled? (List.mem_cons_of_mem _ (h.spec_eq ▸ hbare.spec_mem)) hspec
  · exact hkey.eq_of_filled? List.mem_cons_self hprogram

theorem find?_eq_of_none (h : Fills vars bare call) (hbare : Bare words bare)
    (hkey : FilledBy key none) : call.find? key = bare.find? key := by
  cases hfind : bare.find? key with
  | some g => rw [h.find?_eq, hfind, Option.some_or, Option.some_or]
  | none =>
    cases hcall : call.find? key with
    | none => rfl
    | some g =>
      obtain ⟨v, hv, -⟩ := h.filled hbare hkey hfind hcall
      cases hv

theorem value?_eq_or (h : Fills vars bare call) (hbare : Bare words bare) (takes : Takes key kind)
    {name : String} (hkey : FilledBy key (some name)) {s : Switch}
    (hs : s ∈ call.spec.switches ++ Spec.program.switches) (hlong : s.long = key)
    (hname : s.variableName = some name) (hvalue : s.valueName?.isSome) :
    call.value? key = (bare.value? key).or (vars name) := by
  unfold Call.value?
  cases hfind : bare.find? key with
  | some g =>
    obtain ⟨v, argument, hv, -⟩ := hbare.exists_value takes hfind
    rw [h.find?_eq, hfind, Option.some_or, Option.some_or, Option.bind_some, hv, Option.some_or]
  | none =>
    rw [Option.bind_none, Option.none_or]
    cases hcall : call.find? key with
    | some g =>
      obtain ⟨v, hv, rfl⟩ := h.filled hbare hkey hfind hcall
      exact hv.symm
    | none =>
      rw [Option.bind_none]
      rw [h.find?_eq, hfind, Option.none_or, Option.or_eq_none_iff] at hcall
      by_contra hne
      obtain ⟨v, hv⟩ := Option.ne_none_iff_exists'.mp (Ne.symm hne)
      have hbind : s.variableName.bind vars = some v := by rw [hname, Option.bind_some, hv]
      subst hlong
      rcases List.mem_append.mp hs with hspec | hprogram
      · have hsome := filled?_isSome hspec hbind hvalue
        rw [hcall.1] at hsome
        cases hsome
      · have hsome := filled?_isSome hprogram hbind hvalue
        rw [hcall.2] at hsome
        cases hsome

end Fills

end Values

end Runbooks.CommandLine
