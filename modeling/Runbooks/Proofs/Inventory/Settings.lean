import Mathlib.Data.List.Induction
import Mathlib.Data.List.Nodup
import Runbooks.Inventory.Generation
import Runbooks.Proofs.Shell.Reading

namespace Runbooks.HostLine

/-- The variables a line may have. -/
def hostVars : List String :=
  [userVar, sshKeyVar, pythonVar, becomeVar, connectionVar]

inductive Value where
  | text (s : String)
  | flag (b : Bool)
  deriving DecidableEq, Repr

def Value.shown : Value → String
  | .text s => s
  | .flag b => flagText b

/-- A variable and its value, which may be absent. -/
structure Setting where
  key : String
  value : Option Value
  deriving DecidableEq, Repr

def setAll (settings : List Setting) (l : HostLine) : HostLine :=
  settings.foldl (fun l s => l.set s.key (s.value.map Value.shown)) l

/-- The settings that give a value, as pairs. -/
def given (settings : List Setting) : List (String × String) :=
  settings.filterMap fun s => s.value.map fun v => (s.key, v.shown)

/-- The variables that are given a value, in the order in which they first are. -/
def firstGiven (settings : List Setting) : List String :=
  ((given settings).map Prod.fst).eraseDups

/-- The last value that a variable is given. -/
def lastGiven (key : String) (settings : List Setting) : Option String :=
  (given settings).reverse.lookup key

theorem map_fst_put (key value : String) (vars : List (String × String)) :
    (put key value vars).map Prod.fst =
      if key ∈ vars.map Prod.fst then vars.map Prod.fst else vars.map Prod.fst ++ [key] := by
  induction vars with
  | nil => simp [put]
  | cons p vars ih =>
    obtain ⟨k, v⟩ := p
    by_cases hk : k = key
    · simp [put, hk]
    · rw [put, if_neg hk, List.map_cons, ih]
      by_cases hmem : key ∈ vars.map Prod.fst
      · rw [if_pos hmem, List.map_cons, if_pos (List.mem_cons_of_mem k hmem)]
      · have hcons : key ∉ k :: vars.map Prod.fst := by
          simp only [List.mem_cons, not_or]
          exact ⟨fun h => hk h.symm, hmem⟩
        rw [if_neg hmem, List.map_cons, if_neg hcons, List.cons_append]

theorem lookup_cons_ite (key k v : String) (vars : List (String × String)) :
    ((k, v) :: vars).lookup key = if key = k then some v else vars.lookup key := by
  by_cases h : key = k
  · rw [h, List.lookup_cons_self, if_pos rfl]
  · rw [List.lookup_cons, beq_false_of_ne h, if_neg h]

theorem lookup_put (key value k : String) (vars : List (String × String)) :
    (put key value vars).lookup k = if k = key then some value else vars.lookup k := by
  induction vars with
  | nil => rw [put, lookup_cons_ite]
  | cons p vars ih =>
    obtain ⟨k', v⟩ := p
    rw [put]
    split
    · rename_i hk'
      rw [lookup_cons_ite, lookup_cons_ite, hk']
      split <;> rfl
    · rename_i hk'
      rw [lookup_cons_ite, lookup_cons_ite, ih]
      by_cases hk : k = key
      · have hne : k ≠ k' := fun h => hk' (h ▸ hk)
        simp only [if_pos hk, if_neg hne]
      · rw [if_neg hk, if_neg hk]

theorem put_of_new {key value : String} {vars : List (String × String)}
    (h : key ∉ vars.map Prod.fst) : put key value vars = vars ++ [(key, value)] := by
  induction vars with
  | nil => rfl
  | cons p vars ih =>
    obtain ⟨k, v⟩ := p
    simp only [List.map_cons, List.mem_cons, not_or] at h
    rw [put, if_neg (Ne.symm h.1), ih h.2, List.cons_append]

theorem nodup_put {key value : String} {vars : List (String × String)}
    (h : (vars.map Prod.fst).Nodup) : ((put key value vars).map Prod.fst).Nodup := by
  rw [map_fst_put]
  split
  · exact h
  · rename_i hk
    exact List.nodup_append.mpr ⟨h, List.nodup_singleton key, by
      intro a ha b hb
      rw [List.mem_singleton.mp hb]
      exact fun hab => hk (hab ▸ ha)⟩

theorem lookup_of_mem {vars : List (String × String)} (h : (vars.map Prod.fst).Nodup)
    {p : String × String} (hp : p ∈ vars) : vars.lookup p.1 = some p.2 := by
  obtain ⟨before, after, rfl⟩ := List.append_of_mem hp
  apply List.lookup_eq_some_iff.mpr
  refine ⟨before, after, rfl, ?_⟩
  intro q hq
  rw [List.map_append, List.map_cons] at h
  have hne := (List.nodup_append.mp h).2.2 q.1 (List.mem_map_of_mem hq) p.1 List.mem_cons_self
  simpa using hne.symm

def putAll (pairs vars : List (String × String)) : List (String × String) :=
  pairs.foldl (fun vars p => put p.1 p.2 vars) vars

theorem putAll_append_singleton (pairs vars : List (String × String)) (p : String × String) :
    putAll (pairs ++ [p]) vars = put p.1 p.2 (putAll pairs vars) :=
  List.foldl_append

theorem address_setAll (settings : List Setting) (l : HostLine) :
    (l.setAll settings).address = l.address := by
  induction settings generalizing l with
  | nil => rfl
  | cons s settings ih =>
    have hs : (l.set s.key (s.value.map Value.shown)).address = l.address := by
      unfold set
      split <;> rfl
    exact (ih _).trans hs

theorem vars_setAll (settings : List Setting) (l : HostLine) :
    (l.setAll settings).vars = putAll (given settings) l.vars := by
  induction settings generalizing l with
  | nil => rfl
  | cons s settings ih =>
    have hrun := ih (l.set s.key (s.value.map Value.shown))
    obtain ⟨key, value⟩ := s
    cases value <;> exact hrun

theorem nodup_putAll (pairs : List (String × String)) : ((putAll pairs []).map Prod.fst).Nodup := by
  induction pairs using List.reverseRecOn with
  | nil => exact List.nodup_nil
  | append_singleton pairs p ih =>
    rw [putAll_append_singleton]
    exact nodup_put ih

theorem eraseDups_append_singleton (keys : List String) (key : String) :
    (keys ++ [key]).eraseDups = if key ∈ keys then keys.eraseDups else keys.eraseDups ++ [key] := by
  rw [List.eraseDups_append]
  by_cases h : key ∈ keys <;> simp [List.removeAll, List.eraseDups_cons, h]

theorem map_fst_putAll (pairs : List (String × String)) :
    (putAll pairs []).map Prod.fst = (pairs.map Prod.fst).eraseDups := by
  induction pairs using List.reverseRecOn with
  | nil => rfl
  | append_singleton pairs p ih =>
    -- The keys after `pairs` are their first occurrences, so `p` is new to both or to neither.
    rw [putAll_append_singleton, map_fst_put, ih, List.map_append, List.map_singleton,
      eraseDups_append_singleton]
    simp only [List.mem_eraseDups]

theorem lookup_putAll (pairs : List (String × String)) (key : String) :
    (putAll pairs []).lookup key = pairs.reverse.lookup key := by
  induction pairs using List.reverseRecOn with
  | nil => rfl
  | append_singleton pairs p ih =>
    rw [putAll_append_singleton, lookup_put, ih, List.reverse_append, List.reverse_singleton,
      List.singleton_append, lookup_cons_ite]

theorem putAll_of_nodup {pairs : List (String × String)} (h : (pairs.map Prod.fst).Nodup) :
    putAll pairs [] = pairs := by
  induction pairs using List.reverseRecOn with
  | nil => rfl
  | append_singleton pairs p ih =>
    rw [List.map_append, List.map_singleton, List.nodup_append] at h
    obtain ⟨hpairs, -, hdisjoint⟩ := h
    rw [putAll_append_singleton, ih hpairs]
    exact put_of_new fun hp => hdisjoint p.1 hp p.1 List.mem_cons_self rfl

/-- The pair of a variable with a value. -/
def pairOf (key : String) (value : Option String) : List (String × String) :=
  value.toList.map fun v => (key, v)

theorem given_nil : given [] = [] := rfl

theorem given_cons (s : Setting) (settings : List Setting) :
    given (s :: settings) = pairOf s.key (s.value.map Value.shown) ++ given settings := by
  obtain ⟨key, value⟩ := s
  cases value <;> rfl

theorem keys_given_sublist (settings : List Setting) :
    ((given settings).map Prod.fst).Sublist (settings.map Setting.key) := by
  induction settings with
  | nil => exact List.Sublist.slnil
  | cons s settings ih =>
    obtain ⟨key, value⟩ := s
    cases value with
    | none => exact ih.cons key
    | some v => exact ih.cons_cons key

theorem vars_setAll_of_nodup {settings : List Setting} (h : (settings.map Setting.key).Nodup)
    (address : String) : (setAll settings { address }).vars = given settings := by
  rw [vars_setAll]
  exact putAll_of_nodup (h.sublist (keys_given_sublist settings))

theorem lookup_given_of_not_mem {settings : List Setting} {key : String}
    (h : key ∉ settings.map Setting.key) : (given settings).lookup key = none := by
  apply List.lookup_eq_none_iff.mpr
  intro p hp
  apply bne_iff_ne.mpr
  rintro rfl
  exact h ((keys_given_sublist settings).subset (List.mem_map_of_mem hp))

theorem inert_of_needless {c : Char} (h : needsQuotes c = false) :
    Shell.isActive c = false ∧ isBlank c = false := by
  refine ⟨Bool.eq_false_iff.mpr fun hactive => ?_, ?_⟩
  · simp only [Shell.isActive, Bool.or_eq_true, decide_eq_true_eq] at hactive
    rcases hactive with ((((rfl | rfl) | rfl) | rfl) | rfl) | rfl <;> exact absurd h (by decide)
  · simp only [needsQuotes, Bool.or_eq_false_iff] at h
    exact h.1.1.1.1.1

/-- A value is quoted as a shell word, or it needs no quotes and stays as it is. -/
theorem valueChars_cases (value : List Char) :
    valueChars value = Shell.quoteChars value ∨
      valueChars value = value ∧ ∀ c ∈ value, Shell.isActive c = false ∧ isBlank c = false := by
  unfold valueChars
  split
  · exact .inl rfl
  · rename_i hvalue
    simp only [Bool.or_eq_true, List.any_eq_true, not_or, not_exists, not_and,
      Bool.not_eq_true] at hvalue
    exact .inr ⟨rfl, fun c hc => inert_of_needless (hvalue.2 c hc)⟩

theorem reads_valueChars (value : List Char) :
    Shell.Reads .word .word (valueChars value) value := by
  rcases valueChars_cases value with heq | ⟨heq, hvalue⟩
  · rw [heq]
    exact Shell.reads_quoteChars value
  · rw [heq]
    exact Shell.reads_of_inactive fun c hc => (hvalue c hc).1

theorem countP_valueChars {p : Char → Bool} (hquote : p '\'' = false) (hescape : p '\\' = false)
    (value : List Char) : (valueChars value).countP p = value.countP p := by
  rcases valueChars_cases value with heq | ⟨heq, -⟩
  · rw [heq, Shell.countP_quoteChars hquote hescape]
  · rw [heq]

/-- A text that stands for itself in a word and that a word may begin with. -/
def IsPlain (key : List Char) : Prop :=
  (∀ c ∈ key, Shell.isActive c = false) ∧ ∃ c rest, key = c :: rest ∧ c ≠ '#'

theorem reads_plain {key : List Char} (h : IsPlain key) : Shell.Reads .gap .word key key := by
  obtain ⟨hactive, c, rest, rfl, hc⟩ := h
  have hfirst := Shell.reads_first (hactive c List.mem_cons_self) hc
  have hrest := Shell.reads_of_inactive fun d hd => hactive d (List.mem_cons_of_mem c hd)
  exact hfirst.trans hrest

theorem isPlain_of_mem_hostVars {key : String} (h : key ∈ hostVars) : IsPlain key.toList := by
  have hinactive (hall : key.toList.all (!Shell.isActive ·) = true) :
      ∀ c ∈ key.toList, Shell.isActive c = false := by
    simpa only [List.all_eq_true, Bool.not_eq_true'] using hall
  simp only [hostVars, List.mem_cons, List.not_mem_nil, or_false] at h
  rcases h with rfl | rfl | rfl | rfl | rfl <;>
    exact ⟨hinactive (by decide), _, _, rfl, by decide⟩

/-- The word that a variable is to be read as. -/
def word (var : String × String) : String :=
  var.1 ++ "=" ++ var.2

theorem reads_var {var : String × String} (h : IsPlain var.1.toList) :
    Shell.Reads .gap .word (var.1.toList ++ '=' :: valueChars var.2.toList) (word var).toList := by
  have hequals : Shell.Reads .word .word ['='] ['='] := Shell.reads_inactive (by decide)
  have hword := (reads_plain h).trans (hequals.trans (reads_valueChars var.2.toList))
  simpa [word] using hword

theorem text_eq_append (l : HostLine) :
    l.text = l.address ++ String.ofList (l.vars.flatMap varChars) := by
  rw [text, String.ofList_append, String.ofList_toList]

theorem split_vars {vars : List (String × String)} (h : ∀ p ∈ vars, IsPlain p.1.toList) :
    Shell.split (String.ofList (vars.flatMap varChars)) = some (vars.map word) := by
  have hitems := Shell.splitFrom_gap_items fun p hp => reads_var (h p hp)
  change Shell.splitFrom .gap [] (vars.flatMap varChars) = _ at hitems
  rw [Shell.split, String.toList_ofList, hitems]
  simp

/-- Whatever values the variables of a line are given, and however often: behind the address stands
one word for each variable with a value, in the order of its first value and with its last one. -/
theorem settings_read_back (address : String) (settings : List Setting)
    (h : ∀ s ∈ settings, s.key ∈ hostVars) :
    ∃ (behind : String) (vars : List (String × String)),
      (setAll settings { address }).text = address ++ behind ∧
      Shell.split behind = some (vars.map fun (key, value) => key ++ "=" ++ value) ∧
      vars.map Prod.fst = firstGiven settings ∧
      (∀ p ∈ vars, lastGiven p.1 settings = some p.2) ∧
      ∀ key, (setAll settings { address }).get? key = lastGiven key settings := by
  have hvars : (setAll settings { address }).vars = putAll (given settings) [] :=
    vars_setAll settings { address }
  have hlookup (key : String) : (putAll (given settings) []).lookup key = lastGiven key settings :=
    lookup_putAll (given settings) key
  refine ⟨_, putAll (given settings) [], ?_, split_vars ?_, map_fst_putAll _, ?_, ?_⟩
  · rw [text_eq_append, address_setAll, hvars]
  · intro p hp
    apply isPlain_of_mem_hostVars
    have hkey : p.1 ∈ firstGiven settings := by
      rw [firstGiven, ← map_fst_putAll]
      exact List.mem_map_of_mem hp
    rw [firstGiven, List.mem_eraseDups, given, List.map_filterMap, List.mem_filterMap] at hkey
    obtain ⟨s, hs, hvalue⟩ := hkey
    obtain ⟨v, _, hv⟩ : ∃ v, s.value = some v ∧ s.key = p.1 := by simpa using hvalue
    exact hv ▸ h s hs
  · intro p hp
    rw [← hlookup]
    exact lookup_of_mem (nodup_putAll _) hp
  · intro key
    rw [get?, hvars, hlookup]

/-- A value set twice, one with every kind of quote, an empty one and an absent one. -/
theorem settings_read_back_quoted :
    let settings : List Setting := [
      ⟨userVar, some (.text "")⟩, ⟨sshKeyVar, some (.text "it's \\ \"#;\"\n~")⟩,
      ⟨becomeVar, some (.flag false)⟩, ⟨pythonVar, none⟩, ⟨userVar, some (.text "a b")⟩]
    (∀ s ∈ settings, s.key ∈ hostVars) ∧
    ∃ (behind : String) (vars : List (String × String)),
      (setAll settings { address := "web" }).text = "web" ++ behind ∧
      Shell.split behind = some (vars.map fun (key, value) => key ++ "=" ++ value) ∧
      vars.map Prod.fst = firstGiven settings ∧
      (∀ p ∈ vars, lastGiven p.1 settings = some p.2) ∧
      ∀ key, (setAll settings { address := "web" }).get? key = lastGiven key settings := by
  refine ⟨by decide, ?_⟩
  exact settings_read_back "web" _ (by decide)

end Runbooks.HostLine
