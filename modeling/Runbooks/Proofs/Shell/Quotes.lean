import Runbooks.Proofs.Shell.Words
import Runbooks.Text.Blank

namespace Runbooks.Shell

def Position.quoted : Position → Bool
  | .single | .double | .doubleEscape => true
  | .gap | .gapEscape | .word | .wordEscape | .comment => false

/-- The position that a character leads to. -/
def after (p : Position) (c : Char) : Position :=
  match turn p c with
  | .goOn q _ => q
  | .endWord => .gap

/-- The white space of a text that stands outside quotes, in its order. -/
def loose : Position → List Char → List Char
  | _, [] => []
  | p, c :: rest =>
    if isBlank c && !p.quoted then c :: loose (after p c) rest else loose (after p c) rest

/-- A text cut at its white space outside quotes. -/
def pieces : Position → List Char → List (List Char)
  | _, [] => [[]]
  | p, c :: rest =>
    if isBlank c && !p.quoted then [] :: pieces (after p c) rest
    else (pieces (after p c) rest).modifyHead (c :: ·)

variable {p q r : Position} {c : Char} {s t : List Char}

theorem loose_append (p : Position) (s t : List Char) :
    loose p (s ++ t) = loose p s ++ loose (s.foldl after p) t := by
  induction s generalizing p with
  | nil => rfl
  | cons c s ih =>
    rw [List.cons_append, loose, loose, ih, List.foldl_cons]
    split <;> rfl

theorem length_pieces (p : Position) (s : List Char) :
    (pieces p s).length = (loose p s).length + 1 := by
  induction s generalizing p with
  | nil => rfl
  | cons c s ih =>
    rw [pieces, loose]
    split
    · rw [List.length_cons, List.length_cons, ih]
    · rw [List.length_modifyHead, ih]

/-- The text leads from one position to another, and nothing of it is cut. -/
structure Holds (p q : Position) (s : List Char) : Prop where
  leads : s.foldl after p = q
  tight : loose p s = []

theorem Holds.append (h : Holds p q s) (h' : Holds q r t) : Holds p r (s ++ t) where
  leads := by rw [List.foldl_append, h.leads, h'.leads]
  tight := by rw [loose_append, h.tight, h.leads, h'.tight, List.append_nil]

theorem Holds.pieces_append (h : Holds p q s) (t : List Char) :
    pieces p (s ++ t) = (pieces q t).modifyHead (s ++ ·) := by
  induction s generalizing p with
  | nil =>
    obtain rfl : p = q := h.leads
    exact (congrFun List.modifyHead_id (pieces p t)).symm
  | cons c s ih =>
    obtain ⟨hleads, htight⟩ := h
    rw [loose] at htight
    split at htight
    · cases htight
    · rename_i hc
      rw [List.cons_append, pieces, if_neg hc, ih ⟨hleads, htight⟩, List.modifyHead_modifyHead]
      rfl

theorem holds_flatMap {f : Char → List Char} (h : ∀ c, Holds p p (f c)) (s : List Char) :
    Holds p p (s.flatMap f) := by
  induction s with
  | nil => exact ⟨rfl, rfl⟩
  | cons c s ih => exact (h c).append ih

/-- Each quote inside leaves the quotes for an escaped one, of which nothing is white space. -/
theorem holds_escapeQuotes (s : List Char) : Holds .single .single (escapeQuotes s) := by
  refine holds_flatMap (fun c => ?_) s
  by_cases hc : c = '\''
  · subst hc
    exact ⟨rfl, rfl⟩
  · rw [if_neg hc]
    have hafter : after .single c = .single := by simp [after, turn, hc]
    exact ⟨hafter, by simp [loose, Position.quoted]⟩

theorem holds_singleQuoted (s : List Char) :
    Holds .word .word ('\'' :: (escapeQuotes s ++ ['\''])) := by
  have hopen : Holds .word .single ['\''] := ⟨rfl, rfl⟩
  have hclose : Holds .single .word ['\''] := ⟨rfl, rfl⟩
  exact hopen.append ((holds_escapeQuotes s).append hclose)

theorem after_word_of_inactive (h : isActive c = false) : after .word c = .word := by
  simp only [isActive, Bool.or_eq_false_iff, decide_eq_false_iff_not] at h
  simp [after, turn, h]

theorem after_gap_of_inactive (h : isActive c = false) (hc : c ≠ '#') : after .gap c = .word := by
  simp only [isActive, Bool.or_eq_false_iff, decide_eq_false_iff_not] at h
  simp [after, turn, h, hc]

theorem leads_of_inactive (h : ∀ c ∈ s, isActive c = false) : s.foldl after .word = .word := by
  induction s with
  | nil => rfl
  | cons c s ih =>
    rw [List.foldl_cons, after_word_of_inactive (h c List.mem_cons_self)]
    exact ih fun d hd => h d (List.mem_cons_of_mem c hd)

theorem loose_of_inactive (h : ∀ c ∈ s, isActive c = false) : loose .word s = s.filter isBlank := by
  induction s with
  | nil => rfl
  | cons c s ih =>
    rw [loose, after_word_of_inactive (h c List.mem_cons_self),
      ih fun d hd => h d (List.mem_cons_of_mem c hd), List.filter_cons]
    simp [Position.quoted]

/-- The white space of a text that no quotes are put around: all of it, if a shell has no meaning
for any character of the text. -/
def unquotedBlanks (s : List Char) : List Char :=
  if s.any isSpecial then [] else s.filter isBlank

theorem inactive_of_not_any_isSpecial (h : s.any isSpecial = false) :
    ∀ c ∈ s, isActive c = false := by
  intro c hc
  apply Bool.eq_false_iff.mpr
  intro hactive
  exact List.any_eq_false.mp h c hc (isSpecial_of_isActive hactive)

/-- A quoted text leads from inside a word to inside a word, and what is loose in it are the blanks
that get no quotes. -/
theorem quoteChars_leads_and_loose (s : List Char) :
    (quoteChars s).foldl after .word = .word ∧ loose .word (quoteChars s) = unquotedBlanks s := by
  unfold quoteChars unquotedBlanks
  cases hspecial : s.any isSpecial with
  | true =>
    rw [Bool.or_true, if_pos rfl, if_pos rfl]
    exact ⟨(holds_singleQuoted s).leads, (holds_singleQuoted s).tight⟩
  | false =>
    have hinactive := inactive_of_not_any_isSpecial hspecial
    cases s with
    | nil => exact ⟨rfl, rfl⟩
    | cons c s => exact ⟨leads_of_inactive hinactive, loose_of_inactive hinactive⟩

end Runbooks.Shell
