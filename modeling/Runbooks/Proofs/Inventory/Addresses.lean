import Runbooks.Proofs.Inventory.Meaning
import Runbooks.Proofs.Shell.Words

namespace Runbooks

namespace HostLine

/-- What a line is to say: it begins neither a group nor a comment, its first word is the address, and
the other words are the variables. -/
structure NamesHost (l : HostLine) : Prop where
  unmarked : ∀ c ∈ l.text.toList.head?, c ≠ '[' ∧ c ≠ '#' ∧ c ≠ ';'
  words : Shell.split l.text = some (l.address :: l.vars.map word)

instance (l : HostLine) : Decidable l.NamesHost :=
  -- Over the one character that there may be, not over all characters.
  decidable_of_iff (l.text.toList.head?.all (fun c => c ≠ '[' ∧ c ≠ '#' ∧ c ≠ ';') = true ∧
      Shell.split l.text = some (l.address :: l.vars.map word))
    ⟨fun ⟨unmarked, words⟩ => ⟨by simpa [Option.all_eq_true] using unmarked, words⟩,
      fun ⟨unmarked, words⟩ => ⟨by simpa [Option.all_eq_true] using unmarked, words⟩⟩

/-- A text of characters without a meaning to a shell, and without one to the engine where it
begins. -/
structure IsHostName (a : List Char) : Prop where
  plain : IsPlain a
  unmarked : ∀ c ∈ a.head?, c ≠ '[' ∧ c ≠ ';'

/-- At the end of a line an escape mark has nothing to escape and stands for itself. -/
def EndsEscaping (a : List Char) : Prop :=
  ∃ b, a = b ++ ['\\'] ∧ (b = [] ∨ IsHostName b)

variable {l : HostLine}

theorem toList_text (l : HostLine) : l.text.toList = l.address.toList ++ l.vars.flatMap varChars :=
  String.toList_ofList

theorem split_text_eq_some_iff (l : HostLine) (words : List String) :
    Shell.split l.text = some words ↔
      Shell.splitFrom .gap [] (l.address.toList ++ l.vars.flatMap varChars) =
        some (words.map String.toList) := by
  rw [Shell.split, toList_text, Option.map_eq_some_iff]
  constructor
  · rintro ⟨parts, hparts, rfl⟩
    simp [hparts, Function.comp_def]
  · intro h
    exact ⟨_, h, by simp [Function.comp_def]⟩

theorem inert_flatMap_varChars (vars : List (String × String)) :
    Shell.inert (vars.flatMap varChars) =
      Shell.inert ((vars.map word).map String.toList).flatten := by
  induction vars with
  | nil => rfl
  | cons p vars ih =>
    have hvalue : Shell.inert (valueChars p.2.toList) = Shell.inert p.2.toList :=
      countP_valueChars rfl rfl _
    have hvar : Shell.inert (varChars p) = Shell.inert (word p).toList := by
      have hspace : Shell.inert [' '] = 0 := rfl
      have hword : (word p).toList = p.1.toList ++ '=' :: p.2.toList := by
        rw [word, String.toList_append, String.toList_append, List.append_assoc]
        rfl
      calc Shell.inert (varChars p)
          = Shell.inert p.1.toList + Shell.inert ('=' :: valueChars p.2.toList) := by
            rw [varChars, Shell.inert_cons ' ' (_ ++ _), Shell.inert_append, hspace, Nat.zero_add]
        _ = Shell.inert p.1.toList + Shell.inert ('=' :: p.2.toList) := by
            rw [Shell.inert_cons '=' (valueChars _), hvalue, ← Shell.inert_cons]
        _ = Shell.inert (word p).toList := by
            rw [hword, Shell.inert_append]
    rw [List.flatMap_cons, List.map_cons, List.map_cons, List.flatten_cons, Shell.inert_append,
      Shell.inert_append, ih, hvar]

theorem varChars_begin {vars : List (String × String)} (h : ∀ p ∈ vars, IsPlain p.1.toList) :
    vars.flatMap varChars = [] ∨
      ∃ c rest, vars.flatMap varChars = ' ' :: c :: rest ∧ Shell.isActive c = false := by
  cases vars with
  | nil => exact .inl rfl
  | cons p vars =>
    obtain ⟨hactive, c, rest, hkey, -⟩ := h p List.mem_cons_self
    rw [hkey] at hactive
    rw [List.flatMap_cons, varChars, hkey]
    exact .inr ⟨c, _, rfl, hactive c List.mem_cons_self⟩

theorem splitFrom_escape_at_end {b : List Char} (h : b = [] ∨ IsPlain b) :
    Shell.splitFrom .gap [] (b ++ ['\\']) = some [b ++ ['\\']] := by
  rcases h with rfl | hplain
  · rfl
  · rw [reads_plain hplain [] ['\\']]
    simp [Shell.splitFrom]

/-- Of the address nothing may be lost, and it may swallow nothing of the variables. -/
theorem words_iff (h : ∀ p ∈ l.vars, IsPlain p.1.toList) :
    Shell.split l.text = some (l.address :: l.vars.map word) ↔
      IsPlain l.address.toList ∨
        (l.vars = [] ∧ ∃ b, l.address.toList = b ++ ['\\'] ∧ (b = [] ∨ IsPlain b)) := by
  rw [split_text_eq_some_iff, List.map_cons]
  constructor
  · intro hsplit
    obtain ⟨htakes, c, taken, haddress, hc⟩ :=
      Shell.takes_of_splitFrom (varChars_begin h) (inert_flatMap_varChars l.vars).symm hsplit
    rcases htakes.inactive_of_length_le (Nat.le_refl _) with hall | ⟨hvars, b, hb, hall⟩
    · exact .inl ⟨hall, c, taken, haddress, hc⟩
    · refine .inr ⟨?_, b, hb, ?_⟩
      · by_contra hne
        obtain ⟨p, vars, hvars'⟩ := List.exists_cons_of_ne_nil hne
        rw [hvars', List.flatMap_cons, varChars] at hvars
        cases hvars
      · cases b with
        | nil => exact .inl rfl
        | cons d b =>
          rw [haddress] at hb
          obtain ⟨rfl, -⟩ : c = d ∧ taken = b ++ ['\\'] := by simpa using hb
          exact .inr ⟨hall, c, b, rfl, hc⟩
  · rintro (hplain | ⟨hvars, b, haddress, hb⟩)
    · have hitems := Shell.splitFrom_word_items (fun p hp => reads_var (h p hp))
        (l.address.toList.reverse ++ [])
      rw [reads_plain hplain]
      change Shell.splitFrom .word (l.address.toList.reverse ++ []) (l.vars.flatMap varChars) = _
        at hitems
      rw [hitems]
      simp [Function.comp_def]
    · rw [hvars, haddress, List.flatMap_nil, List.append_nil, splitFrom_escape_at_end hb]
      rfl

theorem head?_text (l : HostLine) {c : Char} {rest : List Char} (h : l.address.toList = c :: rest) :
    l.text.toList.head? = some c := by
  rw [toList_text, h]
  rfl

theorem namesHost_iff (h : ∀ p ∈ l.vars, IsPlain p.1.toList) :
    l.NamesHost ↔ IsHostName l.address.toList ∨
      (l.vars = [] ∧ EndsEscaping l.address.toList) := by
  constructor
  · rintro ⟨hunmarked, hwords⟩
    have hhead {b rest : List Char} (hb : IsPlain b) (haddress : l.address.toList = b ++ rest) :
        IsHostName b := by
      refine ⟨hb, fun c hc => ?_⟩
      obtain ⟨-, d, rest', rfl, -⟩ := hb
      obtain rfl : d = c := by simpa using hc
      have hmarks := hunmarked d (head?_text l haddress)
      exact ⟨hmarks.1, hmarks.2.2⟩
    rcases (words_iff h).mp hwords with hplain | ⟨hvars, b, haddress, hb⟩
    · exact .inl (hhead hplain (List.append_nil _).symm)
    · exact .inr ⟨hvars, b, haddress, hb.imp_right fun hb => hhead hb haddress⟩
  · intro hname
    have hhead {b rest : List Char} (hb : IsHostName b) (haddress : l.address.toList = b ++ rest) :
        ∀ c ∈ l.text.toList.head?, c ≠ '[' ∧ c ≠ '#' ∧ c ≠ ';' := by
      intro c hc
      obtain ⟨⟨-, d, rest', rfl, hd⟩, hmarks⟩ := hb
      rw [head?_text l haddress] at hc
      obtain rfl : d = c := by simpa using hc
      exact ⟨(hmarks d rfl).1, hd, (hmarks d rfl).2⟩
    rcases hname with hname | ⟨hvars, b, haddress, hb⟩
    · exact ⟨hhead hname (List.append_nil _).symm, (words_iff h).mpr (.inl hname.plain)⟩
    · refine ⟨?_, (words_iff h).mpr (.inr ⟨hvars, b, haddress, hb.imp_right (·.plain)⟩)⟩
      rcases hb with rfl | hb
      · intro c hc
        rw [head?_text l haddress] at hc
        obtain rfl : '\\' = c := by simpa using hc
        decide
      · exact hhead hb haddress

theorem isPlain_of_mem_ofHost (mode : InventoryMode) (h : Host) (env : Environment) :
    ∀ p ∈ (ofHost mode h env).vars, IsPlain p.1.toList := by
  intro p hp
  rw [vars_ofHost] at hp
  have hkey := (keys_given_sublist _).subset (List.mem_map_of_mem hp)
  apply isPlain_of_mem_hostVars
  by_cases hl : mode.IsLocal h
  · rw [keys_settingsOf_local hl] at hkey
    simp only [List.mem_cons, List.not_mem_nil, or_false] at hkey
    rcases hkey with hkey | hkey | hkey <;> simp [hkey, hostVars]
  · rw [keys_settingsOf_remote hl] at hkey
    simp only [List.mem_cons, List.not_mem_nil, or_false] at hkey
    rcases hkey with hkey | hkey | hkey | hkey <;> simp [hkey, hostVars]

end HostLine

namespace Inventory

/-- Of the hosts of a runbook exactly those are named by their lines whose address is a host name, or
ends in an escape mark with nothing behind it. -/
theorem hosts_named_iff (mode : InventoryMode) (r : Runbook) :
    List.Forall₂ (fun h l => l.address = h.address ∧
        (l.NamesHost ↔ HostLine.IsHostName h.address.toList ∨
          (l.vars = [] ∧ HostLine.EndsEscaping h.address.toList)))
      r.hosts (generate mode r.hosts r.environment).hosts := by
  apply List.forall₂_map_right_iff.mpr
  apply List.forall₂_same.mpr
  intro h _
  have haddress := (HostLine.ofHost_describes mode h (r.environment.resolve h.override)).address
  have hnames := HostLine.namesHost_iff
    (HostLine.isPlain_of_mem_ofHost mode h (r.environment.resolve h.override))
  rw [haddress] at hnames
  exact ⟨haddress, hnames⟩

/-- Accepted addresses that set a variable of their own, make a comment or a header of the line, and
swallow the variable behind them. -/
theorem accepted_addresses_hijack_lines :
    ∃ r, Runbook.create? "n" { user := some "deploy" }
        [{ address := "web ansible_connection=local" }, { address := "#web" },
          { address := "[web]" }, { address := "web'" }] [.shell "s" "true"] = .ok r ∧
      (generate .addressAware r.hosts r.environment).lines =
        ["[managed]", "web ansible_connection=local ansible_user=deploy",
          "#web ansible_user=deploy", "[web] ansible_user=deploy", "web' ansible_user=deploy"] ∧
      (generate .addressAware r.hosts r.environment).hosts.map (Shell.split ·.text) =
        [some ["web", "ansible_connection=local", "ansible_user=deploy"], some [],
          some ["[web]", "ansible_user=deploy"], none] ∧
      ∀ l ∈ (generate .addressAware r.hosts r.environment).hosts, ¬ l.NamesHost := by
  refine ⟨_, rfl, ?_, ?_, ?_⟩
  · decide +kernel
  · decide +kernel
  · decide +kernel

end Inventory

end Runbooks
