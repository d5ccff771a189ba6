import Mathlib.Algebra.Ring.Nat
import Runbooks.Proofs.Inventory.Settings
import Runbooks.Proofs.Shell.Quotes

namespace Runbooks.HostLine

def behind (l : HostLine) : List Char :=
  l.vars.flatMap varChars

def written (var : String × String) : List Char :=
  var.1.toList ++ '=' :: valueChars var.2.toList

/-- The white space of a variable's value that gets no quotes. -/
def looseBlanks (var : String × String) : List Char :=
  Shell.unquotedBlanks var.2.toList

/-- A name that stands for itself and has no white space of any kind. -/
structure IsVarName (key : List Char) : Prop where
  plain : IsPlain key
  unbroken : ∀ c ∈ key, isBlank c = false

theorem isVarName_of_mem_hostVars {key : String} (h : key ∈ hostVars) : IsVarName key.toList := by
  have hall : ∀ k ∈ hostVars, k.toList.all (!isBlank ·) = true := by decide
  exact ⟨isPlain_of_mem_hostVars h, by simpa using hall key h⟩

theorem valueChars_leads_and_loose (value : List Char) :
    (valueChars value).foldl Shell.after .word = .word ∧
      Shell.loose .word (valueChars value) = Shell.unquotedBlanks value := by
  rcases valueChars_cases value with heq | ⟨heq, hvalue⟩
  · rw [heq]
    exact Shell.quoteChars_leads_and_loose value
  · have hblanks : value.filter isBlank = [] :=
      List.filter_eq_nil_iff.mpr fun c hc => Bool.eq_false_iff.mp (hvalue c hc).2
    have hinactive : ∀ c ∈ value, Shell.isActive c = false := fun c hc => (hvalue c hc).1
    rw [heq, Shell.unquotedBlanks, hblanks, ite_self, ← hblanks]
    exact ⟨Shell.leads_of_inactive hinactive, Shell.loose_of_inactive hinactive⟩

variable {var : String × String} {vars : List (String × String)} {p : Shell.Position}

theorem IsVarName.holds {key : List Char} (h : IsVarName key) :
    Shell.Holds .gap .word (key ++ ['=']) := by
  obtain ⟨⟨hactive, c, rest, rfl, hc⟩, hunbroken⟩ := h
  have hfirst : Shell.Holds .gap .word [c] :=
    ⟨Shell.after_gap_of_inactive (hactive c List.mem_cons_self) hc,
      by simp [Shell.loose, hunbroken c List.mem_cons_self]⟩
  have hrest : Shell.Holds .word .word rest := by
    have hinactive : ∀ d ∈ rest, Shell.isActive d = false :=
      fun d hd => hactive d (List.mem_cons_of_mem c hd)
    refine ⟨Shell.leads_of_inactive hinactive, ?_⟩
    rw [Shell.loose_of_inactive hinactive, List.filter_eq_nil_iff]
    exact fun d hd => Bool.eq_false_iff.mp (hunbroken d (List.mem_cons_of_mem c hd))
  have hequals : Shell.Holds .word .word ['='] := ⟨rfl, rfl⟩
  exact (hfirst.append hrest).append hequals

theorem written_eq_append (var : String × String) :
    written var = (var.1.toList ++ ['=']) ++ valueChars var.2.toList := by
  rw [written, List.append_assoc, List.singleton_append]

theorem written_leads_and_loose (h : IsVarName var.1.toList) :
    (written var).foldl Shell.after .gap = .word ∧
      Shell.loose .gap (written var) = looseBlanks var := by
  obtain ⟨hleads, hloose⟩ := valueChars_leads_and_loose var.2.toList
  rw [written_eq_append, List.foldl_append, Shell.loose_append, h.holds.leads, h.holds.tight]
  exact ⟨hleads, hloose⟩

theorem loose_flatMap_varChars (h : ∀ var ∈ vars, IsVarName var.1.toList)
    (hp : p = .gap ∨ p = .word) :
    Shell.loose p (vars.flatMap varChars) = vars.flatMap fun var => ' ' :: looseBlanks var := by
  induction vars generalizing p with
  | nil => rfl
  | cons var vars ih =>
    obtain ⟨hleads, hloose⟩ := written_leads_and_loose (h var List.mem_cons_self)
    have hvars := ih (fun v hv => h v (List.mem_cons_of_mem var hv)) (.inr rfl)
    have hspace : Shell.loose p (' ' :: (written var ++ vars.flatMap varChars)) =
        ' ' :: Shell.loose .gap (written var ++ vars.flatMap varChars) := by
      rcases hp with rfl | rfl <;> rfl
    rw [List.flatMap_cons, List.flatMap_cons]
    change Shell.loose p (' ' :: (written var ++ vars.flatMap varChars)) = _
    rw [hspace, Shell.loose_append, hleads, hloose, hvars, List.cons_append]

theorem pieces_flatMap_varChars (h : ∀ var ∈ vars, IsVarName var.1.toList)
    (hloose : ∀ var ∈ vars, looseBlanks var = []) (hp : p = .gap ∨ p = .word) :
    Shell.pieces p (vars.flatMap varChars) = [] :: vars.map written := by
  induction vars generalizing p with
  | nil => rfl
  | cons var vars ih =>
    have hvar := written_leads_and_loose (h var List.mem_cons_self)
    rw [hloose var List.mem_cons_self] at hvar
    have hholds : Shell.Holds .gap .word (written var) := ⟨hvar.1, hvar.2⟩
    have hvars := ih (fun v hv => h v (List.mem_cons_of_mem var hv))
      (fun v hv => hloose v (List.mem_cons_of_mem var hv)) (.inr rfl)
    have hspace : Shell.pieces p (' ' :: (written var ++ vars.flatMap varChars)) =
        [] :: Shell.pieces .gap (written var ++ vars.flatMap varChars) := by
      rcases hp with rfl | rfl <;> rfl
    rw [List.flatMap_cons]
    change Shell.pieces p (' ' :: (written var ++ vars.flatMap varChars)) = _
    rw [hspace, hholds.pieces_append, hvars, List.modifyHead_cons, List.append_nil, List.map_cons]

theorem length_flatMap_looseBlanks (vars : List (String × String)) :
    (vars.flatMap fun var => ' ' :: looseBlanks var).length =
      vars.length + (vars.map fun var => (looseBlanks var).length).sum := by
  induction vars with
  | nil => rfl
  | cons var vars ih =>
    rw [List.flatMap_cons, List.length_append, ih, List.length_cons, List.length_cons,
      List.map_cons, List.sum_cons]
    omega

/-- Behind the address all white space of a value stands outside quotes if the value has no character
with a meaning to a shell, and none does otherwise; the text has a piece for each variable, and one
more for every white space character that stands there. -/
theorem loose_white_space_adds_pieces (l : HostLine)
    (h : ∀ var ∈ l.vars, IsVarName var.1.toList) :
    l.text = l.address ++ String.ofList l.behind ∧
    Shell.loose .gap l.behind = l.vars.flatMap (fun var => ' ' :: looseBlanks var) ∧
    (Shell.pieces .gap l.behind).length =
      l.vars.length + 1 + (l.vars.map fun var => (looseBlanks var).length).sum ∧
    (Shell.pieces .gap l.behind = [] :: l.vars.map written ↔
      ∀ var ∈ l.vars, looseBlanks var = []) := by
  have hloose := loose_flatMap_varChars h (.inl rfl)
  have hlength : (Shell.pieces .gap l.behind).length =
      l.vars.length + 1 + (l.vars.map fun var => (looseBlanks var).length).sum := by
    rw [Shell.length_pieces, behind, hloose, length_flatMap_looseBlanks, Nat.add_right_comm]
  refine ⟨text_eq_append l, hloose, hlength, ?_, fun hall => ?_⟩
  · intro hpieces
    rw [hpieces, List.length_cons, List.length_map] at hlength
    have hsum : (l.vars.map fun var => (looseBlanks var).length).sum = 0 := by omega
    rw [List.sum_eq_zero_iff_forall_eq_nat, List.forall_mem_map] at hsum
    exact fun var hvar => List.length_eq_zero_iff.mp (hsum var hvar)
  · exact pieces_flatMap_varChars h hall (.inl rfl)

/-- A line whose user is cut at a carriage return and whose key is quoted around one. -/
def returning : HostLine where
  address := "web"
  vars := [(userVar, "a\rb"), (sshKeyVar, "c\r d")]

theorem loose_white_space_adds_pieces_returning :
    (∀ var ∈ returning.vars, IsVarName var.1.toList) ∧
    Shell.loose .gap returning.behind = [' ', '\r', ' '] ∧
    (Shell.pieces .gap returning.behind).length = 4 := by
  have hnames : ∀ var ∈ returning.vars, IsVarName var.1.toList := by
    have hkeys : ∀ var ∈ returning.vars, var.1 ∈ hostVars := by decide
    exact fun var hvar => isVarName_of_mem_hostVars (hkeys var hvar)
  obtain ⟨-, hloose, hlength, -⟩ := loose_white_space_adds_pieces returning hnames
  exact ⟨hnames, hloose.trans (by decide), hlength.trans (by decide)⟩

/-- A carriage return is white space, but no quotes are put around a value for it: one variable is
two pieces. -/
theorem carriage_return_cuts_variable :
    let l := ({ address := "web" } : HostLine).set userVar (some "a\rb")
    isBlank '\r' = true ∧
    l.text = "web ansible_user=a\rb" ∧
    '\r' ∈ Shell.loose .gap l.behind ∧
    l.vars.length = 1 ∧
    Shell.pieces .gap l.behind = [[], "ansible_user=a".toList, "b".toList] := by
  decide +kernel

end Runbooks.HostLine
