import Mathlib.Algebra.Ring.Nat
import Runbooks.Proofs.Inventory.Meaning

namespace Runbooks

section Ended

variable {α : Type} [DecidableEq α]

theorem length_splitOn (c : α) (s : List α) : (s.splitOn c).length = s.count c + 1 := by
  induction s with
  | nil => rfl
  | cons a s ih =>
    rw [List.splitOn_cons_eq_if_modifyHead, List.count_cons]
    by_cases h : a = c
    · simp [h, ih]
    · simp [h, ih]

theorem count_flatMap_ended (c : α) (parts : List (List α)) :
    (parts.flatMap (· ++ [c])).count c = parts.length + (parts.map (List.count c)).sum := by
  induction parts with
  | nil => rfl
  | cons p parts ih =>
    rw [List.flatMap_cons, List.count_append, List.count_append, List.count_singleton_self, ih,
      List.length_cons, List.map_cons, List.sum_cons]
    omega

/-- Parts that each end in `c` are what lies between the occurrences of `c` exactly if none has one
inside. -/
theorem splitOn_flatMap_ended_iff (c : α) (parts : List (List α)) :
    (parts.flatMap (· ++ [c])).splitOn c = parts ++ [[]] ↔ ∀ p ∈ parts, c ∉ p := by
  constructor
  · intro h p hp
    have hlength := congrArg List.length h
    rw [length_splitOn, count_flatMap_ended, List.length_append, List.length_singleton] at hlength
    have hsum : (parts.map (List.count c)).sum = 0 := by omega
    rw [List.sum_eq_zero_iff_forall_eq_nat] at hsum
    exact List.count_eq_zero.mp (hsum _ (List.mem_map_of_mem hp))
  · intro h
    induction parts with
    | nil => rfl
    | cons p parts ih =>
      rw [List.flatMap_cons, List.append_assoc, List.singleton_append,
        List.splitOn_append_cons_self_of_not_mem (h p List.mem_cons_self),
        ih fun q hq => h q (List.mem_cons_of_mem p hq), List.cons_append]

end Ended

def lineFeeds (s : String) : Nat :=
  s.toList.count '\n'

theorem map_count_toList (ss : List String) :
    (ss.map String.toList).map (List.count '\n') = ss.map lineFeeds := by
  rw [List.map_map]
  rfl

namespace HostLine

theorem count_valueChars (value : List Char) :
    (valueChars value).count '\n' = value.count '\n' :=
  countP_valueChars rfl rfl value

/-- The line feeds in names and values of variables. -/
def varFeeds (vars : List (String × String)) : Nat :=
  (vars.map fun p => lineFeeds p.1 + lineFeeds p.2).sum

theorem lineFeeds_text (l : HostLine) : lineFeeds l.text = lineFeeds l.address + varFeeds l.vars := by
  have hvars : (l.vars.flatMap varChars).count '\n' = varFeeds l.vars := by
    rw [List.count_flatMap]
    congr 1
    apply List.map_congr_left
    intro p _
    simp [varChars, count_valueChars, lineFeeds]
  rw [lineFeeds, text, String.toList_ofList, List.count_append, hvars]
  rfl

theorem varFeeds_append (vars vars' : List (String × String)) :
    varFeeds (vars ++ vars') = varFeeds vars + varFeeds vars' := by
  rw [varFeeds, List.map_append, List.sum_append]
  rfl

theorem varFeeds_pairOf {key : String} (hkey : lineFeeds key = 0) (value : Option String) :
    varFeeds (pairOf key value) = (value.toList.map lineFeeds).sum := by
  cases value <;> simp [varFeeds, pairOf, hkey]

theorem varFeeds_become (env : Environment) :
    varFeeds (pairOf becomeVar (env.become.map flagText)) = 0 := by
  rcases env.become with _ | _ | _ <;> rfl

theorem varFeeds_localVars (env : Environment) :
    varFeeds (localVars env) = (env.python.toList.map lineFeeds).sum := by
  have hconnection : varFeeds [(connectionVar, "local")] = 0 := rfl
  rw [localVars, ← List.singleton_append, varFeeds_append, varFeeds_append, hconnection,
    varFeeds_pairOf rfl, varFeeds_become, Nat.zero_add, Nat.add_zero]

theorem varFeeds_remoteVars (env : Environment) : varFeeds (remoteVars env) =
    ((env.user.toList ++ (env.sshKey.toList ++ env.python.toList)).map lineFeeds).sum := by
  rw [remoteVars, varFeeds_append, varFeeds_append, varFeeds_append, varFeeds_pairOf rfl,
    varFeeds_pairOf rfl, varFeeds_pairOf rfl, varFeeds_become, Nat.add_zero, List.map_append,
    List.map_append, List.sum_append, List.sum_append]

def textsOf (mode : InventoryMode) (h : Host) (env : Environment) : List String :=
  match mode.connection h with
  | .local => h.address :: env.python.toList
  | .ssh => h.address :: (env.user.toList ++ (env.sshKey.toList ++ env.python.toList))

theorem lineFeeds_ofHost (mode : InventoryMode) (h : Host) (env : Environment) :
    lineFeeds (ofHost mode h env).text = ((textsOf mode h env).map lineFeeds).sum := by
  have hdescribes := ofHost_describes mode h env
  rw [lineFeeds_text, hdescribes.address, textsOf]
  by_cases hl : mode.IsLocal h
  · rw [hdescribes.local_vars hl, (mode.connection_eq h).1.mpr hl, varFeeds_localVars]
    rfl
  · rw [hdescribes.remote_vars hl, (mode.connection_eq h).2.mpr hl, varFeeds_remoteVars]
    rfl

theorem lineFeed_not_mem_ofHost_iff (mode : InventoryMode) (h : Host) (env : Environment) :
    '\n' ∉ (ofHost mode h env).text.toList ↔ ∀ s ∈ textsOf mode h env, '\n' ∉ s.toList := by
  rw [← List.count_eq_zero, ← lineFeeds, lineFeeds_ofHost, List.sum_eq_zero_iff_forall_eq_nat,
    List.forall_mem_map]
  simp only [lineFeeds, List.count_eq_zero]

end HostLine

namespace Inventory

theorem toList_text (i : Inventory) :
    i.text.toList = (i.lines.map String.toList).flatMap (· ++ ['\n']) := by
  rw [text, String.toList_join, List.flatMap_map, List.flatMap_map]
  simp only [String.toList_append]
  rfl

def lineOf (mode : InventoryMode) (r : Runbook) (h : Host) : String :=
  (HostLine.ofHost mode h (Environment.resolve r.environment h.override)).text

def textsOf (mode : InventoryMode) (r : Runbook) (h : Host) : List String :=
  HostLine.textsOf mode h (Environment.resolve r.environment h.override)

theorem lineFeeds_lineOf (mode : InventoryMode) (r : Runbook) (h : Host) :
    lineFeeds (lineOf mode r h) = ((textsOf mode r h).map lineFeeds).sum :=
  HostLine.lineFeeds_ofHost mode h _

theorem lines_generate (mode : InventoryMode) (r : Runbook) :
    (generate mode r.hosts r.environment).lines = "[managed]" :: r.hosts.map (lineOf mode r) := by
  rw [lines, generate, List.map_map]
  rfl

/-- Every line feed in the texts of a host adds a line to the header and the lines of the hosts;
these are the lines of the file exactly if there is none. -/
theorem line_feeds_add_lines (mode : InventoryMode) (r : Runbook) :
    ((generate mode r.hosts r.environment).text.toList.count '\n' =
      r.hosts.length + 1 + (r.hosts.map fun h => ((textsOf mode r h).map lineFeeds).sum).sum) ∧
    ((generate mode r.hosts r.environment).text.toList.splitOn '\n' =
        ("[managed]" :: r.hosts.map (lineOf mode r)).map String.toList ++ [[]] ↔
      ∀ h ∈ r.hosts, ∀ s ∈ textsOf mode r h, '\n' ∉ s.toList) := by
  rw [toList_text, lines_generate]
  constructor
  · have hheader : lineFeeds "[managed]" = 0 := rfl
    have hhosts : (r.hosts.map (lineOf mode r)).map lineFeeds =
        r.hosts.map fun h => ((textsOf mode r h).map lineFeeds).sum := by
      rw [List.map_map]
      apply List.map_congr_left
      intro h _
      rw [Function.comp_apply, lineFeeds_lineOf]
    rw [count_flatMap_ended, map_count_toList, List.length_map, List.length_cons, List.length_map,
      List.map_cons, List.sum_cons, hheader, Nat.zero_add, hhosts]
  · have hheader : '\n' ∉ "[managed]".toList := by decide
    rw [splitOn_flatMap_ended_iff, List.forall_mem_map, List.forall_mem_cons, List.forall_mem_map]
    simp only [lineOf, HostLine.lineFeed_not_mem_ofHost_iff, textsOf, hheader, not_false_eq_true,
      true_and]

/-- A runbook with a line feed in an address is accepted, and its host has two lines. -/
theorem line_feed_in_address_takes_two_lines :
    ∃ r, Runbook.create? "n" {} [{ address := "a\nb" }] [.shell "s" "true"] = .ok r ∧
      r.hosts.length + 1 = 2 ∧
      (generate .addressAware r.hosts r.environment).text = "[managed]\na\nb\n" ∧
      (generate .addressAware r.hosts r.environment).text.toList.splitOn '\n' =
        ["[managed]".toList, "a".toList, "b".toList, []] := by
  refine ⟨_, rfl, rfl, ?_, ?_⟩
  · decide +kernel
  · decide +kernel

end Inventory

end Runbooks
