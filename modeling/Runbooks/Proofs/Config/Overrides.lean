import Mathlib.Data.List.Forall2
import Mathlib.Data.List.Induction
import Mathlib.Data.List.TakeWhile
import Runbooks.Proofs.Config.Precedence

namespace Runbooks.Config

/-- The words for a truth value. -/
def flagWords : Bool → List String
  | true => ["1", "true", "yes", "on"]
  | false => ["0", "false", "no", "off", ""]

/-- A text with hyphens for underscores. -/
def hyphenated (s : String) : String :=
  String.ofList (s.toList.map fun c => if c = '_' then '-' else c)

namespace Key

/-- What a text means as the value of a key's variable. White space around the words for truth
values and modes does not matter, around the names of formats it does. -/
def Means : (k : Key) → String → k.Value → Prop
  | debug, s, b => lowerAscii (trimmed s) ∈ flagWords b
  | mode, s, m => hyphenated (lowerAscii (trimmed s)) = m.name
  | logFormat, s, f => lowerAscii s = f.name
  | outputDir, s, v => v = s
  | executable, s, v => v = s
  | logLevel, s, v => v = s
  | inventoryName, _, _ => False
  | playbookName, _, _ => False
  | debugVerbosity, _, _ => False
  | extraArgs, _, _ => False

/-- What is said of a text that is no truth value. -/
def noFlag (s : String) : Failure :=
  .setting "RUNBOOK_DEBUG" ("expected a boolean, got '" ++ lowerAscii (trimmed s) ++ "'")

def noMode (s : String) : Failure :=
  .setting "inventory.mode" ("unknown mode '" ++ hyphenated (lowerAscii (trimmed s)) ++
    "', expected 'address-aware' or 'uniform'")

def noFormat (s : String) : Failure :=
  .setting "RUNBOOK_LOG_FORMAT"
    ("unknown format '" ++ lowerAscii s ++ "', expected 'text' or 'json'")

/-- What is said against a text as the value of a key's variable. -/
def objection? : Key → String → Option Failure
  | debug, s =>
    if lowerAscii (trimmed s) ∈ flagWords true ++ flagWords false then none else some (noFlag s)
  | mode, s =>
    if hyphenated (lowerAscii (trimmed s)) ∈ ["address-aware", "uniform"] then none
    else some (noMode s)
  | logFormat, s => if lowerAscii s ∈ ["text", "json"] then none else some (noFormat s)
  | _, _ => none

/-- The text of a key's variable, if the key has one that is set. -/
def given? (k : Key) (vars : Variables) : Option String :=
  k.setting.override?.bind fun v => vars v.name

/-- Why the variable of a key stops the overrides, if it does. -/
def stops? (k : Key) (vars : Variables) : Option Failure :=
  (k.given? vars).bind k.objection?

end Key

/-- A way to read texts that takes for a key what is meant for it, and objects to the rest. -/
structure Key.Takes (k : Key) (read : String → Except Failure k.Value) : Prop where
  value_iff : ∀ s v, read s = .ok v ↔ k.Means s v
  objection_iff : ∀ s f, read s = .error f ↔ k.objection? s = some f

section Texts

theorem takes_all {k : Key} {f : String → k.Value} (hmeans : ∀ s v, k.Means s v ↔ v = f s)
    (hnever : ∀ s, k.objection? s = none) : k.Takes fun s => .ok (f s) := by
  refine ⟨fun s v => ?_, fun s e => ?_⟩
  · rw [hmeans, Except.ok.injEq, eq_comm]
  · rw [hnever]
    exact ⟨nofun, nofun⟩

/-- A key that looks its values up by words objects to a text that is none of them. -/
theorem takes_words {k : Key} {read : String → Except Failure k.Value}
    (value? : String → Option k.Value) (words : List String) (word : String → String)
    (objection : String → Failure)
    (hread : ∀ s, read s = (value? (word s)).elim (.error (objection s)) .ok)
    (hmeans : ∀ s v, k.Means s v ↔ value? (word s) = some v)
    (hwords : ∀ w, (value? w).isSome ↔ w ∈ words)
    (hobjection : ∀ s, k.objection? s = if word s ∈ words then none else some (objection s)) :
    k.Takes read := by
  have hcases : ∀ s, (∃ v, value? (word s) = some v ∧ word s ∈ words) ∨
      (value? (word s) = none ∧ word s ∉ words) := by
    intro s
    rw [← hwords]
    cases hvalue : value? (word s) with
    | none => exact .inr ⟨rfl, nofun⟩
    | some v => exact .inl ⟨v, rfl, rfl⟩
  refine ⟨fun s v => ?_, fun s f => ?_⟩
  · rw [hread, hmeans]
    obtain ⟨w, hvalue, -⟩ | ⟨hvalue, -⟩ := hcases s <;> simp [hvalue]
  · rw [hread, hobjection]
    obtain ⟨w, hvalue, hmem⟩ | ⟨hvalue, hmem⟩ := hcases s <;> simp [hvalue, hmem]

def flagOfWord? (word : String) : Option Bool :=
  if word ∈ flagWords true then some true
  else if word ∈ flagWords false then some false
  else none

theorem flagOfWord?_eq_some_iff (word : String) (b : Bool) :
    flagOfWord? word = some b ↔ word ∈ flagWords b := by
  have hdisjoint : ∀ w ∈ flagWords true, w ∉ flagWords false := by decide
  unfold flagOfWord?
  by_cases htrue : word ∈ flagWords true
  · have hfalse := hdisjoint word htrue
    cases b <;> simp [htrue, hfalse]
  · by_cases hfalse : word ∈ flagWords false <;> cases b <;> simp [htrue, hfalse]

theorem flagOfText?_eq_elim (s : String) : flagOfText? "RUNBOOK_DEBUG" s =
    (flagOfWord? (lowerAscii (trimmed s))).elim (.error (Key.noFlag s)) .ok := by
  have hread : flagOfText? "RUNBOOK_DEBUG" s =
      if lowerAscii (trimmed s) ∈ flagWords true then .ok true
      else if lowerAscii (trimmed s) ∈ flagWords false then .ok false
      else .error (Key.noFlag s) := by
    simp only [← List.contains_iff_mem]
    rfl
  rw [hread, flagOfWord?]
  split_ifs <;> rfl

theorem takes_flag : Key.Takes .debug (flagOfText? "RUNBOOK_DEBUG") := by
  refine takes_words flagOfWord? (flagWords true ++ flagWords false)
    (fun s => lowerAscii (trimmed s)) Key.noFlag flagOfText?_eq_elim (fun s b => ?_) (fun w => ?_)
    fun _ => rfl
  · exact (flagOfWord?_eq_some_iff _ b).symm
  · simp only [Option.isSome_iff_exists, flagOfWord?_eq_some_iff, Bool.exists_bool, List.mem_append,
      or_comm]

theorem takes_mode : Key.Takes .mode InventoryMode.ofText? := by
  have hnormalize : ∀ s, InventoryMode.normalize s = hyphenated (lowerAscii (trimmed s)) :=
    fun _ => rfl
  refine takes_words InventoryMode.named? ["address-aware", "uniform"]
    (fun s => hyphenated (lowerAscii (trimmed s))) Key.noMode (fun s => ?_) (fun s m => ?_)
    (fun w => ?_) fun _ => rfl
  · unfold InventoryMode.ofText?
    rw [hnormalize]
    cases InventoryMode.named? (hyphenated (lowerAscii (trimmed s))) <;> rfl
  · unfold InventoryMode.named?
    cases m <;> split_ifs <;> simp_all [Key.Means, InventoryMode.name]
  · unfold InventoryMode.named?
    split_ifs <;> simp_all

theorem takes_format : Key.Takes .logFormat (formatOfText? "RUNBOOK_LOG_FORMAT") := by
  refine takes_words LogFormat.named? ["text", "json"] lowerAscii Key.noFormat
    (fun s => ?_) (fun s f => ?_) (fun w => ?_) fun _ => rfl
  · unfold formatOfText?
    cases LogFormat.named? (lowerAscii s) <;> rfl
  · unfold LogFormat.named?
    cases f <;> split_ifs <;> simp_all [Key.Means, LogFormat.name]
  · unfold LogFormat.named?
    split_ifs <;> simp_all

end Texts

section Steps

variable {vars : Variables} {c c' : Config} {o : Override} {k : Key}

/-- An override reads its variable as its key takes it, and sets the key to what it reads. -/
def Override.Follows (o : Override) (k : Key) : Prop :=
  ∃ read, k.Takes read ∧ k.setting.override? = some ⟨o.name, fun s => (read s).toOption⟩ ∧
    o.apply = fun s c => do let v ← read s; .ok (c.set k v)

theorem follows_overrides : List.Forall₂ Override.Follows overrides overridden := by
  have htexts : Key.Takes .outputDir .ok ∧ Key.Takes .executable .ok ∧ Key.Takes .logLevel .ok :=
    ⟨takes_all (fun _ _ => Iff.rfl) fun _ => rfl, takes_all (fun _ _ => Iff.rfl) fun _ => rfl,
      takes_all (fun _ _ => Iff.rfl) fun _ => rfl⟩
  obtain ⟨houtputDir, hexecutable, hlogLevel⟩ := htexts
  exact .cons ⟨_, houtputDir, rfl, rfl⟩ <| .cons ⟨_, takes_flag, rfl, rfl⟩ <|
    .cons ⟨_, takes_mode, rfl, rfl⟩ <| .cons ⟨_, hexecutable, rfl, rfl⟩ <|
    .cons ⟨_, hlogLevel, rfl, rfl⟩ <| .cons ⟨_, takes_format, rfl, rfl⟩ .nil

theorem exists_follows (hk : k ∈ overridden) : ∃ o : Override, o.Follows k := by
  obtain ⟨i, hi, rfl⟩ := List.getElem_of_mem hk
  have hlength := follows_overrides.length_eq
  exact ⟨_, follows_overrides.get (hlength ▸ hi) hi⟩

namespace Key

theorem stops?_eq_none_iff :
    k.stops? vars = none ↔ ∀ s, k.given? vars = some s → k.objection? s = none :=
  Option.bind_eq_none_iff

theorem Takes.objection?_eq_none_iff {read : String → Except Failure k.Value} (h : k.Takes read)
    (s : String) : k.objection? s = none ↔ (read s).toOption.isSome := by
  cases hread : read s with
  | error f =>
    rw [(h.objection_iff s f).mp hread]
    exact ⟨nofun, nofun⟩
  | ok v =>
    refine ⟨fun _ => rfl, fun _ => Option.eq_none_iff_forall_ne_some.mpr fun f hf => ?_⟩
    have herror := (h.objection_iff s f).mpr hf
    rw [hread] at herror
    cases herror

end Key

namespace Override.Follows

theorem given?_eq (h : o.Follows k) : k.given? vars = vars o.name := by
  obtain ⟨read, -, hoverride, -⟩ := h
  rw [Key.given?, hoverride, Option.bind_some]

theorem sets (h : o.Follows k) : o.Sets k := by
  obtain ⟨read, -, hoverride, happly⟩ := h
  obtain ⟨name, apply⟩ := o
  obtain rfl : apply = _ := happly
  exact Override.sets_of_read k read hoverride

theorem validIn (h : o.Follows k) (hstops : k.stops? vars = none) : k.ValidIn vars := by
  have hnone := Key.stops?_eq_none_iff.mp hstops
  rw [h.given?_eq] at hnone
  obtain ⟨read, htakes, hoverride, -⟩ := h
  intro v s hv hs
  obtain rfl := Option.some.inj (hoverride.symm.trans hv)
  exact (htakes.objection?_eq_none_iff s).mp (hnone s hs)

theorem varied?_eq_some_iff (h : o.Follows k) (v : k.Value) :
    k.varied? vars = some v ↔ ∃ s, k.given? vars = some s ∧ k.Means s v := by
  have hgiven : k.given? vars = vars o.name := h.given?_eq
  obtain ⟨read, htakes, hoverride, -⟩ := h
  have hread : ∀ s, (read s).toOption = some v ↔ k.Means s v := by
    intro s
    rw [← htakes.value_iff]
    cases read s <;> simp [Except.toOption]
  rw [Key.varied?, hoverride, Option.bind_some, Option.bind_eq_some_iff, hgiven]
  exact exists_congr fun s => and_congr_right fun _ => hread s

theorem exists_means (h : o.Follows k) (hstops : k.stops? vars = none) {s : String}
    (hs : k.given? vars = some s) : ∃ v, k.varied? vars = some v ∧ k.Means s v := by
  have hnone := Key.stops?_eq_none_iff.mp hstops s hs
  have hvaried (v : k.Value) :
      k.varied? vars = some v ↔ ∃ s, k.given? vars = some s ∧ k.Means s v :=
    h.varied?_eq_some_iff v
  obtain ⟨read, htakes, -, -⟩ := h
  obtain ⟨v, hv⟩ := Option.isSome_iff_exists.mp ((htakes.objection?_eq_none_iff s).mp hnone)
  have hmeans : k.Means s v := by
    rw [← htakes.value_iff]
    cases hread : read s with
    | error f =>
      rw [hread] at hv
      cases hv
    | ok w =>
      rw [hread] at hv
      exact congrArg Except.ok (Option.some.inj hv)
  exact ⟨v, (hvaried v).mpr ⟨s, hs, hmeans⟩, hmeans⟩

theorem applyAll_of_stops (h : o.Follows k) {f : Failure} (hstops : k.stops? vars = some f)
    (os : List Override) (c : Config) : applyAll vars (o :: os) c = (some f, c) := by
  obtain ⟨s, hs, hobjection⟩ := Option.bind_eq_some_iff.mp hstops
  rw [h.given?_eq] at hs
  obtain ⟨read, htakes, -, happly⟩ := h
  have herror : o.apply s c = .error f := by
    rw [happly]
    change (read s >>= fun v => .ok (c.set k v)) = .error f
    rw [(htakes.objection_iff s f).mpr hobjection]
    rfl
  rw [applyAll, hs]
  simp only [herror]

end Override.Follows

/-- Of some keys, those before the first whose variable stops the overrides. -/
def unstopped (vars : Variables) (ks : List Key) : List Key :=
  ks.takeWhile fun k => (k.stops? vars).isNone

theorem of_mem_unstopped {ks : List Key} (hk : k ∈ unstopped vars ks) :
    k ∈ ks ∧ k.stops? vars = none := by
  unfold unstopped at hk
  have hnone := List.mem_takeWhile_imp hk
  exact ⟨(List.takeWhile_sublist _).subset hk, Option.isNone_iff_eq_none.mp hnone⟩

/-- The first objection stops the overrides; the keys before it are settled, and all others are as
they were. -/
theorem applyAll_settles (vars : Variables) {os : List Override} {ks : List Key}
    (h : List.Forall₂ Override.Follows os ks) (c : Config) :
    ∃ c', applyAll vars os c = (ks.findSome? fun k => k.stops? vars, c') ∧
      ∀ k : Key, k.setting.inConfig c' =
        (if k ∈ unstopped vars ks then k.varied? vars else none).getD (k.setting.inConfig c) := by
  -- What an override leaves is where the ones behind it start, hence any `c`.
  induction h generalizing c with
  | nil => exact ⟨c, rfl, fun k => rfl⟩
  | @cons o k os ks hfollows _ ih =>
    cases hstops : k.stops? vars with
    | some f =>
      have hnothing : unstopped vars (k :: ks) = [] :=
        List.takeWhile_cons_of_neg (by rw [hstops]; exact Bool.false_ne_true)
      refine ⟨c, ?_, fun k' => ?_⟩
      · rw [hfollows.applyAll_of_stops hstops, List.findSome?_cons, hstops]
      · rw [hnothing]
        rfl
    | none =>
      obtain ⟨c', happly, hkeys⟩ := ih ((k.varied? vars).elim c (c.set k))
      have hmore : unstopped vars (k :: ks) = k :: unstopped vars ks :=
        List.takeWhile_cons_of_pos (by rw [hstops]; rfl)
      refine ⟨c', ?_, fun k' => ?_⟩
      · rw [applyAll_cons hfollows.sets (hfollows.validIn hstops), happly, List.findSome?_cons,
          hstops]
      · rw [hkeys k', getD_inConfig_elim_set, hmore]

end Steps

section Rounds

variable {vars : Variables} {c c' : Config} {k : Key}

/-- The keys whose variables the overrides get to. -/
def reached (vars : Variables) : List Key :=
  unstopped vars overridden

/-- What a round gives a key, if it gets to the key's variable and finds it set. -/
def Key.taken? (k : Key) (vars : Variables) : Option k.Value :=
  if k ∈ reached vars then k.varied? vars else none

/-- A configuration after overrides from several sets of variables, one after the other, whether
or not they were stopped. -/
def applyRounds (rounds : List Variables) (c : Config) : Config :=
  rounds.foldl (fun c vars => (applyOverrides vars c).2) c

theorem taken?_eq_some_iff (k : Key) (vars : Variables) (v : k.Value) :
    k.taken? vars = some v ↔
      k ∈ reached vars ∧ ∃ s, k.given? vars = some s ∧ k.Means s v := by
  unfold Key.taken?
  by_cases hk : k ∈ reached vars
  · obtain ⟨o, hfollows⟩ := exists_follows (of_mem_unstopped hk).1
    rw [if_pos hk, hfollows.varied?_eq_some_iff]
    exact (and_iff_right hk).symm
  · rw [if_neg hk]
    exact ⟨nofun, fun h => absurd h.1 hk⟩

theorem applyOverrides_settles (vars : Variables) (c : Config) :
    (applyOverrides vars c).1 = overridden.findSome? (fun k => k.stops? vars) ∧
      ∀ k : Key, k.setting.inConfig (applyOverrides vars c).2 =
        (k.taken? vars).getD (k.setting.inConfig c) := by
  obtain ⟨c', happly, hkeys⟩ := applyAll_settles vars follows_overrides c
  rw [applyOverrides, happly]
  exact ⟨rfl, hkeys⟩

theorem inConfig_applyRounds (rounds : List Variables) (c : Config) (k : Key) :
    k.setting.inConfig (applyRounds rounds c) =
      (rounds.filterMap k.taken?).getLast?.getD (k.setting.inConfig c) := by
  induction rounds using List.reverseRecOn with
  | nil => rfl
  | append_singleton rounds vars ih =>
    have hlast : applyRounds (rounds ++ [vars]) c =
        (applyOverrides vars (applyRounds rounds c)).2 := by
      rw [applyRounds, List.foldl_append]
      rfl
    rw [hlast, (applyOverrides_settles vars _).2 k, ih, List.filterMap_append, List.getLast?_append]
    cases htaken : k.taken? vars <;> simp [htaken]

/-- What applying overrides to a configuration did: what stopped them, if anything, and what
configuration they left. -/
structure Applied (vars : Variables) (c : Config) (stop : Option Failure) (c' : Config) : Prop where
  succeeds_iff : stop = none ↔
    (∀ s, vars "RUNBOOK_DEBUG" = some s →
      lowerAscii (trimmed s) ∈ ["1", "true", "yes", "on", "0", "false", "no", "off", ""]) ∧
    (∀ s, vars "RUNBOOK_INVENTORY_MODE" = some s →
      hyphenated (lowerAscii (trimmed s)) ∈ ["address-aware", "uniform"]) ∧
    ∀ s, vars "RUNBOOK_LOG_FORMAT" = some s → lowerAscii s ∈ ["text", "json"]
  reaches_all : stop = none → reached vars = overridden
  fails_iff : ∀ f, stop = some f ↔ ∃ k after s, overridden = reached vars ++ k :: after ∧
    k.given? vars = some s ∧ k.objection? s = some f
  changed : ∀ k ∈ reached vars, ∀ s, k.given? vars = some s → k.Means s (k.setting.inConfig c')
  kept : ∀ k : Key, (k ∈ reached vars → k.given? vars = none) →
    k.setting.inConfig c' = k.setting.inConfig c
  again : applyOverrides vars c' = (stop, c')

theorem unstopped_eq_self_iff (ks : List Key) :
    unstopped vars ks = ks ↔ ks.findSome? (fun k => k.stops? vars) = none := by
  rw [unstopped, List.takeWhile_eq_self_iff, List.findSome?_eq_none_iff]
  exact forall₂_congr fun _ _ => Option.isNone_iff_eq_none

theorem findSome?_stops_eq_some_iff (ks : List Key) (f : Failure) :
    ks.findSome? (fun k => k.stops? vars) = some f ↔
      ∃ k after s, ks = unstopped vars ks ++ k :: after ∧ k.given? vars = some s ∧
        k.objection? s = some f := by
  rw [List.findSome?_eq_some_iff]
  constructor
  · rintro ⟨before, k, after, rfl, hk, hbefore⟩
    obtain ⟨s, hs, hobjection⟩ := Option.bind_eq_some_iff.mp hk
    have hunstopped : unstopped vars (before ++ k :: after) = before := by
      rw [unstopped, List.takeWhile_append_of_pos fun k hk => by rw [hbefore k hk]; rfl,
        List.takeWhile_cons_of_neg (by rw [hk]; exact Bool.false_ne_true), List.append_nil]
    exact ⟨k, after, s, by rw [hunstopped], hs, hobjection⟩
  · rintro ⟨k, after, s, hks, hs, hobjection⟩
    refine ⟨unstopped vars ks, k, after, hks, ?_, fun k hk => ?_⟩
    · exact Option.bind_eq_some_iff.mpr ⟨s, hs, hobjection⟩
    · exact (of_mem_unstopped hk).2

/-- Only three variables can stop the overrides. -/
theorem findSome?_stops_eq_none_iff :
    overridden.findSome? (fun k => k.stops? vars) = none ↔
      (∀ s, vars "RUNBOOK_DEBUG" = some s →
        lowerAscii (trimmed s) ∈ ["1", "true", "yes", "on", "0", "false", "no", "off", ""]) ∧
      (∀ s, vars "RUNBOOK_INVENTORY_MODE" = some s →
        hyphenated (lowerAscii (trimmed s)) ∈ ["address-aware", "uniform"]) ∧
      ∀ s, vars "RUNBOOK_LOG_FORMAT" = some s → lowerAscii s ∈ ["text", "json"] := by
  have hite : ∀ (p : Prop) [Decidable p] (f : Failure), (if p then none else some f) = none ↔ p := by
    intro p _ f
    split_ifs with h <;> simp [h]
  rw [List.findSome?_eq_none_iff]
  simp only [overridden, List.forall_mem_cons, Key.stops?_eq_none_iff, Key.objection?, hite]
  simp [Key.given?, Key.setting, flagWords]

theorem applyOverrides_applied (vars : Variables) (c : Config) :
    Applied vars c (applyOverrides vars c).1 (applyOverrides vars c).2 := by
  obtain ⟨hstop, hkeys⟩ := applyOverrides_settles vars c
  exact {
    succeeds_iff := by
      rw [hstop]
      exact findSome?_stops_eq_none_iff
    reaches_all := fun hnone => (unstopped_eq_self_iff overridden).mpr (hstop.symm.trans hnone)
    fails_iff := fun f => by
      rw [hstop]
      exact findSome?_stops_eq_some_iff overridden f
    changed := by
      intro k hk s hs
      obtain ⟨o, hfollows⟩ := exists_follows (of_mem_unstopped hk).1
      obtain ⟨v, hvaried, hmeans⟩ := hfollows.exists_means (of_mem_unstopped hk).2 hs
      rw [hkeys k, Key.taken?, if_pos hk, hvaried]
      exact hmeans
    kept := by
      intro k hk
      have htaken : k.taken? vars = none := by
        refine Option.eq_none_iff_forall_ne_some.mpr fun v hv => ?_
        obtain ⟨hreached, s, hs, -⟩ := (taken?_eq_some_iff k vars v).mp hv
        rw [hk hreached] at hs
        cases hs
      rw [hkeys k, htaken]
      rfl
    again := by
      obtain ⟨hstop', hkeys'⟩ := applyOverrides_settles vars (applyOverrides vars c).2
      refine Prod.ext (hstop'.trans hstop.symm) (eq_of_inConfig fun k => ?_)
      rw [hkeys' k, hkeys k]
      cases k.taken? vars <;> rfl }

/-- Overrides settle the keys of the variables before the first that is invalid, and no others; over
rounds each key has the value of the last round that got to its variable and found it set. -/
theorem overrides_apply_as_prefix :
    (∀ vars c, Applied vars c (applyOverrides vars c).1 (applyOverrides vars c).2) ∧
    (∀ (k : Key) (vars : Variables) (v : k.Value), k.taken? vars = some v ↔
      k ∈ reached vars ∧ ∃ s, k.given? vars = some s ∧ k.Means s v) ∧
    ∀ (rounds : List Variables) (c : Config) (k : Key),
      k.setting.inConfig (applyRounds rounds c) =
        (rounds.filterMap k.taken?).getLast?.getD (k.setting.inConfig c) :=
  ⟨applyOverrides_applied, taken?_eq_some_iff, inConfig_applyRounds⟩

/-- What stands before an unknown mode is applied, what stands behind it is not. -/
example :
    applyOverrides (fun name =>
      if name = "RUNBOOK_OUTPUT_DIR" then some "out"
      else if name = "RUNBOOK_INVENTORY_MODE" then some " Side_Ways"
      else if name = "RUNBOOK_LOG_LEVEL" then some "debug" else none) {} =
    (some (.setting "inventory.mode"
      "unknown mode 'side-ways', expected 'address-aware' or 'uniform'"), { outputDir := "out" }) := by
  decide +kernel

end Rounds

end Runbooks.Config
