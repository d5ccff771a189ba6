import Runbooks.Text.Shell

namespace Runbooks.Shell

/-- From the position `p` on, `e` is read as `s` and leaves the cut at the position `q`, whatever
stands before and behind it. -/
def Reads (p q : Position) (e s : List Char) : Prop :=
  ∀ acc rest, splitFrom p acc (e ++ rest) = splitFrom q (s.reverse ++ acc) rest

theorem Reads.trans {p q r : Position} {e s e' s' : List Char} (h : Reads p q e s)
    (h' : Reads q r e' s') : Reads p r (e ++ e') (s ++ s') := by
  intro acc rest
  rw [List.append_assoc, h, h', List.reverse_append, List.append_assoc]

/-- A text written character by character, none of which moves the cut for good. -/
theorem reads_flatMap {p : Position} {f : Char → List Char} {s : List Char}
    (h : ∀ c ∈ s, Reads p p (f c) [c]) : Reads p p (s.flatMap f) s := by
  induction s with
  | nil => exact fun _ _ => rfl
  | cons c s ih =>
    have hc := h c List.mem_cons_self
    have hs := ih fun d hd => h d (List.mem_cons_of_mem c hd)
    exact hc.trans hs

/-- A character that a word ends at or that begins a quote or an escape. -/
def isActive (c : Char) : Bool :=
  c = '\'' || c = '"' || c = '\\' || c = '\t' || c = ' ' || c = '\n'

theorem isSpecial_of_isActive {c : Char} (h : isActive c = true) : isSpecial c = true := by
  simp only [isActive, Bool.or_eq_true, decide_eq_true_eq] at h
  rcases h with ((((rfl | rfl) | rfl) | rfl) | rfl) | rfl <;> decide

theorem reads_inactive {c : Char} (h : isActive c = false) : Reads .word .word [c] [c] := by
  simp only [isActive, Bool.or_eq_false_iff, decide_eq_false_iff_not] at h
  intro acc rest
  simp [splitFrom, h]

theorem reads_first {c : Char} (h : isActive c = false) (hc : c ≠ '#') :
    Reads .gap .word [c] [c] := by
  simp only [isActive, Bool.or_eq_false_iff, decide_eq_false_iff_not] at h
  intro acc rest
  simp [splitFrom, h, hc]

theorem reads_of_inactive {s : List Char} (h : ∀ c ∈ s, isActive c = false) :
    Reads .word .word s s := by
  have hs := reads_flatMap (f := fun c => [c]) fun c hc => reads_inactive (h c hc)
  simpa only [List.flatMap_singleton'] using hs

/-- A single quote leaves the quotes, stands escaped in the open word and enters quotes again. -/
theorem reads_escapeQuotes (s : List Char) : Reads .single .single (escapeQuotes s) s := by
  apply reads_flatMap
  intro c _ acc rest
  by_cases hc : c = '\''
  · subst hc
    simp [splitFrom]
  · simp [splitFrom, hc]

theorem reads_singleQuoted (s : List Char) :
    Reads .word .word ('\'' :: (escapeQuotes s ++ ['\''])) s := by
  have hopen : Reads .word .single ['\''] [] := fun _ _ => rfl
  have hclose : Reads .single .word ['\''] [] := fun _ _ => rfl
  simpa using hopen.trans ((reads_escapeQuotes s).trans hclose)

theorem reads_quoteChars (s : List Char) : Reads .word .word (quoteChars s) s := by
  unfold quoteChars
  split
  · exact reads_singleQuoted s
  · rename_i hs
    simp only [Bool.or_eq_true, List.any_eq_true, not_or, not_exists, not_and] at hs
    apply reads_of_inactive
    intro c hc
    exact Bool.eq_false_iff.mpr fun hactive => hs.2 c hc (isSpecial_of_isActive hactive)

theorem countP_quoteChars {p : Char → Bool} (hquote : p '\'' = false) (hescape : p '\\' = false)
    (s : List Char) : (quoteChars s).countP p = s.countP p := by
  have hescaped : (escapeQuotes s).countP p = s.countP p := by
    induction s with
    | nil => rfl
    | cons c s ih =>
      rw [escapeQuotes, List.flatMap_cons, List.countP_append, ← escapeQuotes, ih]
      by_cases hc : c = '\''
      · simp [hc, hquote, hescape]
      · rw [if_neg hc, ← List.countP_append, List.singleton_append]
  unfold quoteChars
  split
  · simp [hescaped, hquote]
  · rfl

section Words

variable {α : Type} {e w : α → List Char} {items : List α}

/-- The word at hand ends at the first space; every item behind it is a word of its own. -/
theorem splitFrom_word_items (h : ∀ a ∈ items, Reads .gap .word (e a) (w a)) (acc : List Char) :
    splitFrom .word acc (items.flatMap fun a => ' ' :: e a) =
      some (acc.reverse :: items.map w) := by
  induction items generalizing acc with
  | nil => rfl
  | cons a items ih =>
    have ha := h a List.mem_cons_self [] (items.flatMap fun a => ' ' :: e a)
    have hitems := ih (fun b hb => h b (List.mem_cons_of_mem a hb)) ((w a).reverse ++ [])
    rw [List.flatMap_cons, List.cons_append]
    have hstep : splitFrom .word acc (' ' :: (e a ++ items.flatMap fun a => ' ' :: e a)) =
        (splitFrom .gap [] (e a ++ items.flatMap fun a => ' ' :: e a)).map (acc.reverse :: ·) := rfl
    rw [hstep, ha, hitems]
    simp

theorem splitFrom_gap_items (h : ∀ a ∈ items, Reads .gap .word (e a) (w a)) :
    splitFrom .gap [] (items.flatMap fun a => ' ' :: e a) = some (items.map w) := by
  cases items with
  | nil => rfl
  | cons a items =>
    have ha := h a List.mem_cons_self [] (items.flatMap fun a => ' ' :: e a)
    have hitems := splitFrom_word_items (fun b hb => h b (List.mem_cons_of_mem a hb))
      ((w a).reverse ++ [])
    have hstep : splitFrom .gap [] (' ' :: (e a ++ items.flatMap fun a => ' ' :: e a)) =
        splitFrom .gap [] (e a ++ items.flatMap fun a => ' ' :: e a) := rfl
    rw [List.flatMap_cons, List.cons_append, hstep, ha, hitems]
    simp

end Words

end Runbooks.Shell
