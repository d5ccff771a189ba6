import Mathlib.Data.List.Basic
import Runbooks.Proofs.Shell.Reading

/-!
What a line can have for its first word. The cut is taken apart into turns, one for each character.
Characters without a meaning to the shell are lost in comments only, and no word is longer than what
it is read from; where it is as long, every character of it stands for itself.
-/

namespace Runbooks.Shell

section Turns

/-- What one character does to the cut. -/
inductive Turn where
  /-- The cut goes on, and the word at hand gains some characters. -/
  | goOn (next : Position) (gained : List Char)
  /-- The word at hand is over. -/
  | endWord

def turn : Position → Char → Turn
  | .gap, c =>
    if c = '\'' then .goOn .single []
    else if c = '"' then .goOn .double []
    else if c = '\\' then .goOn .gapEscape []
    else if c = '\t' ∨ c = ' ' ∨ c = '\n' then .goOn .gap []
    else if c = '#' then .goOn .comment []
    else .goOn .word [c]
  | .gapEscape, c => if c = '\n' then .goOn .gap [] else .goOn .word [c]
  | .word, c =>
    if c = '\'' then .goOn .single []
    else if c = '"' then .goOn .double []
    else if c = '\\' then .goOn .wordEscape []
    else if c = '\t' ∨ c = ' ' ∨ c = '\n' then .endWord
    else .goOn .word [c]
  | .wordEscape, c => if c = '\n' then .goOn .word [] else .goOn .word [c]
  | .single, c => if c = '\'' then .goOn .word [] else .goOn .single [c]
  | .double, c =>
    if c = '"' then .goOn .word []
    else if c = '\\' then .goOn .doubleEscape []
    else .goOn .double [c]
  | .doubleEscape, c =>
    if c = '\n' then .goOn .double []
    else if c = '$' ∨ c = '\x60' ∨ c = '"' ∨ c = '\\' then .goOn .double [c]
    else .goOn .double ['\\', c]
  | .comment, c => if c = '\n' then .goOn .gap [] else .goOn .comment []

theorem splitFrom_cons (p : Position) (acc : List Char) (c : Char) (rest : List Char) :
    splitFrom p acc (c :: rest) = match turn p c with
      | .goOn q gained => splitFrom q (gained.reverse ++ acc) rest
      | .endWord => (splitFrom .gap [] rest).map (acc.reverse :: ·) := by
  cases p <;> simp only [splitFrom, turn] <;> split_ifs <;> rfl

def Position.inWord : Position → Bool
  | .word | .wordEscape | .single | .double | .doubleEscape => true
  | .gap | .gapEscape | .comment => false

/-- The escape mark that a position holds back between words. -/
def Position.held : Position → List Char
  | .gapEscape => ['\\']
  | _ => []

/-- One more than what a word at hand may still gain beyond the characters it is given: an escape
mark may be held back, and a quote has still to be closed. -/
def Position.reserve : Position → Nat
  | .wordEscape => 2
  | .single | .double => 0
  | _ => 1

variable {p q : Position} {c : Char} {gained : List Char}

theorem inWord_of_turn (hp : p.inWord = true) (h : turn p c = .goOn q gained) :
    q.inWord = true := by
  revert h
  cases p <;> simp only [Position.inWord, Bool.false_eq_true] at hp <;> simp only [turn] <;>
    split_ifs <;> intro h <;> cases h <;> rfl

theorem turn_eq_endWord (h : turn p c = .endWord) : p = .word ∧ turn .gap c = .goOn .gap [] := by
  revert h
  cases p <;> simp only [turn] <;> split_ifs <;> intro h <;> cases h
  simp

theorem turn_escape : turn .word '\\' = .goOn .wordEscape [] := rfl

theorem length_gained_le (hp : p.inWord = true) (h : turn p c = .goOn q gained) :
    gained.length + q.reserve ≤ 1 + p.reserve := by
  revert h
  cases p <;> simp only [Position.inWord, Bool.false_eq_true] at hp <;> simp only [turn] <;>
    split_ifs <;> intro h <;> cases h <;> simp [Position.reserve]

/-- The characters without a meaning to the shell. -/
def inert (s : List Char) : Nat :=
  s.countP (!isActive ·)

theorem inert_append (s t : List Char) : inert (s ++ t) = inert s + inert t :=
  List.countP_append

theorem inert_cons (c : Char) (s : List Char) : inert (c :: s) = inert [c] + inert s :=
  inert_append [c] s

theorem inert_reverse (s : List Char) : inert s.reverse = inert s :=
  List.countP_reverse

theorem inert_of_isActive (h : isActive c = true) : inert [c] = 0 := by
  simp [inert, h]

theorem gained_in_word (hp : p.inWord = true) (h : turn p c = .goOn q gained) :
    gained = [c] ∨ gained = ['\\', c] ∨ gained = [] ∧ isActive c = true := by
  revert h
  cases p <;> simp only [Position.inWord, Bool.false_eq_true] at hp <;> simp only [turn] <;>
    split_ifs <;> intro h <;> cases h <;> simp [isActive, *]

theorem gained_between (hp : p.inWord = false) (h : turn p c = .goOn q gained) :
    gained = [c] ∨ gained = [] := by
  revert h
  cases p <;> simp only [Position.inWord, Bool.true_eq_false] at hp <;> simp only [turn] <;>
    split_ifs <;> intro h <;> cases h <;> simp

/-- Inside a word no character is lost but for marks. -/
theorem inert_gained (hp : p.inWord = true) (h : turn p c = .goOn q gained) :
    inert gained = inert [c] := by
  rcases gained_in_word hp h with rfl | rfl | ⟨rfl, hc⟩
  · rfl
  · have hmark : inert ['\\'] = 0 := rfl
    rw [inert_cons, hmark, Nat.zero_add]
  · exact (inert_of_isActive hc).symm

theorem inert_gained_le (h : turn p c = .goOn q gained) : inert gained ≤ inert [c] := by
  cases hp : p.inWord with
  | true => exact Nat.le_of_eq (inert_gained hp h)
  | false =>
    rcases gained_between hp h with rfl | rfl
    · exact Nat.le_refl _
    · exact Nat.zero_le _

theorem inert_flatten_le {acc line : List Char} {words : List (List Char)}
    (h : splitFrom p acc line = some words) : inert words.flatten ≤ inert acc + inert line := by
  induction line generalizing p acc words with
  | nil =>
    cases p <;> simp only [splitFrom, Option.some.injEq, reduceCtorEq] at h <;> subst h <;>
      simp [inert, List.countP_append, isActive]
  | cons c rest ih =>
    rw [splitFrom_cons] at h
    rw [inert_cons c rest]
    split at h
    · rename_i hturn
      have hrest := ih h
      have hgained := inert_gained_le hturn
      rw [inert_append, inert_reverse] at hrest
      omega
    · obtain ⟨words', hwords, rfl⟩ := Option.map_eq_some_iff.mp h
      have hrest := ih hwords
      rw [List.flatten_cons, inert_append, inert_reverse]
      have hnil : inert [] = 0 := rfl
      omega

end Turns

section FirstWord

/-- Inside a word `taken` is read as `w`, and with it the word is over: the line ends there, or `rest`
begins with a character that words end at. -/
inductive Takes : Position → List Char → List Char → List Char → Prop
  | lineEnds : Takes .word [] [] []
  /-- An escape mark at the end of the line stands for itself. -/
  | escapeStays : Takes .wordEscape [] ['\\'] []
  | separated {c : Char} {rest : List Char} (h : turn .word c = .endWord) :
      Takes .word [] [] (c :: rest)
  | goesOn {p q : Position} {c : Char} {gained taken w rest : List Char}
      (h : turn p c = .goOn q gained) (later : Takes q taken w rest) :
      Takes p (c :: taken) (gained ++ w) rest

variable {p : Position} {taken w rest : List Char}

theorem exists_takes {acc line : List Char} {words : List (List Char)} (hp : p.inWord = true)
    (h : splitFrom p acc line = some words) :
    ∃ taken w rest further, Takes p taken w rest ∧ line = taken ++ rest ∧
      words = (acc.reverse ++ w) :: further ∧ splitFrom .gap [] rest = some further := by
  induction line generalizing p acc words with
  | nil =>
    cases p <;> simp only [splitFrom, Option.some.injEq, reduceCtorEq] at h <;>
      simp only [Position.inWord, Bool.false_eq_true] at hp
    · exact ⟨[], [], [], [], .lineEnds, rfl, by simp [← h], rfl⟩
    · exact ⟨[], ['\\'], [], [], .escapeStays, rfl, by simp [← h], rfl⟩
  | cons c line ih =>
    rw [splitFrom_cons] at h
    split at h
    · rename_i hturn
      obtain ⟨taken, w, rest, further, htakes, rfl, rfl, hfurther⟩ :=
        ih (inWord_of_turn hp hturn) h
      exact ⟨c :: taken, _, rest, further, .goesOn hturn htakes, rfl, by simp, hfurther⟩
    · rename_i hturn
      obtain ⟨further, hfurther, rfl⟩ := Option.map_eq_some_iff.mp h
      obtain ⟨rfl, hgap⟩ := turn_eq_endWord hturn
      refine ⟨[], [], c :: line, further, .separated hturn, rfl, by simp, ?_⟩
      rw [splitFrom_cons, hgap]
      exact hfurther

theorem turn_between {q : Position} {c : Char} {gained : List Char} (hp : p.inWord = false)
    (h : turn p c = .goOn q gained) :
    (q.inWord = false ∧ gained = [] ∧ ∃ passed, p.held ++ [c] = passed ++ q.held) ∨
    (q.inWord = true ∧ ∀ {taken w rest}, Takes q taken w rest → ∃ d taken',
      p.held ++ c :: taken = d :: taken' ∧ d ≠ '#' ∧
        Takes .word (d :: taken') (gained ++ w) rest) := by
  revert h
  cases p <;> simp only [Position.inWord, Bool.true_eq_false] at hp
  · simp only [turn]
    split_ifs with hsingle hdouble hescape hseparator hcomment <;> intro h <;> cases h
    · exact .inr ⟨rfl, fun later =>
        ⟨c, _, rfl, by simp [hsingle], .goesOn (by simp [turn, hsingle]) later⟩⟩
    · exact .inr ⟨rfl, fun later =>
        ⟨c, _, rfl, by simp [hdouble], .goesOn (by simp [turn, hdouble]) later⟩⟩
    · exact .inl ⟨rfl, rfl, [], by simp [Position.held, hescape]⟩
    · exact .inl ⟨rfl, rfl, [c], rfl⟩
    · exact .inl ⟨rfl, rfl, [c], rfl⟩
    · exact .inr ⟨rfl, fun later => ⟨c, _, rfl, hcomment, .goesOn (by simp [turn, *]) later⟩⟩
  · simp only [turn]
    split_ifs with hbreak <;> intro h <;> cases h
    · exact .inl ⟨rfl, rfl, ['\\', c], rfl⟩
    · have hword : turn .wordEscape c = .goOn .word [c] := if_neg hbreak
      refine .inr ⟨rfl, fun later => ?_⟩
      have hfirst := Takes.goesOn turn_escape (.goesOn hword later)
      exact ⟨'\\', _, rfl, by decide, hfirst⟩
  · simp only [turn]
    split_ifs <;> intro h <;> cases h
    · exact .inl ⟨rfl, rfl, [c], rfl⟩
    · exact .inl ⟨rfl, rfl, [c], rfl⟩

/-- What stands before the first word is passed over, and no word begins with a comment mark. -/
theorem exists_takes_of_gap {line first : List Char} {further : List (List Char)}
    (hp : p.inWord = false) (h : splitFrom p [] line = some (first :: further)) :
    ∃ skipped c taken rest, Takes .word (c :: taken) first rest ∧ c ≠ '#' ∧
      p.held ++ line = skipped ++ (c :: taken ++ rest) ∧ splitFrom .gap [] rest = some further := by
  induction line generalizing p with
  | nil =>
    cases p <;> simp only [Position.inWord, Bool.true_eq_false] at hp <;>
      simp only [splitFrom, Option.some.injEq, reduceCtorEq, List.cons.injEq] at h
    obtain ⟨rfl, rfl⟩ := h
    exact ⟨[], '\\', [], [], .goesOn turn_escape .escapeStays, by decide, rfl, rfl⟩
  | cons c line ih =>
    rw [splitFrom_cons] at h
    split at h
    · rename_i q gained hturn
      rcases turn_between hp hturn with ⟨hq, rfl, passed, hpassed⟩ | ⟨hq, hbegins⟩
      · obtain ⟨skipped, d, taken, rest, htakes, hd, hline, hfurther⟩ := ih hq h
        refine ⟨passed ++ skipped, d, taken, rest, htakes, hd, ?_, hfurther⟩
        rw [List.append_cons, hpassed, List.append_assoc, hline, List.append_assoc]
      · obtain ⟨taken, w, rest, further', htakes, rfl, hwords, hfurther⟩ := exists_takes hq h
        obtain ⟨d, taken', hline, hd, hfirst⟩ := hbegins htakes
        obtain ⟨rfl, rfl⟩ : first = gained ++ w ∧ further = further' := by simpa using hwords
        refine ⟨[], d, taken', rest, hfirst, hd, ?_, hfurther⟩
        rw [List.nil_append, ← hline, List.append_assoc, List.cons_append]
    · rename_i hturn
      cases (turn_eq_endWord hturn).1
      cases hp

namespace Takes

theorem inert_eq (hp : p.inWord = true) (h : Takes p taken w rest) : inert w = inert taken := by
  induction h with
  | lineEnds => rfl
  | escapeStays => rfl
  | separated => rfl
  | goesOn h _ ih => rw [inert_append, inert_cons, inert_gained hp h, ih (inWord_of_turn hp h)]

theorem length_le (hp : p.inWord = true) (h : Takes p taken w rest) :
    w.length + 1 ≤ taken.length + p.reserve := by
  induction h with
  | lineEnds => exact Nat.le_refl _
  | escapeStays => exact Nat.le_refl _
  | separated => exact Nat.le_refl _
  | goesOn h _ ih =>
    have hlater := ih (inWord_of_turn hp h)
    have hgained := length_gained_le hp h
    rw [List.length_append, List.length_cons]
    omega

theorem head_rest (h : Takes p taken w rest) {c : Char} (hc : rest.head? = some c) :
    isActive c = true := by
  induction h with
  | lineEnds => cases hc
  | escapeStays => cases hc
  | goesOn _ _ ih => exact ih hc
  | @separated d _ hturn =>
    obtain rfl : d = c := by simpa using hc
    have hseparator : d = '\t' ∨ d = ' ' ∨ d = '\n' := by
      revert hturn
      simp only [turn]
      split_ifs with _ _ _ hseparator <;> intro hturn <;> cases hturn
      exact hseparator
    rcases hseparator with rfl | rfl | rfl <;> rfl

/-- A word as long as what it is read from stands there character by character, but for an escape
mark at the end of the line. -/
theorem inactive_of_length_le (h : Takes .word taken w rest) (hlength : taken.length ≤ w.length) :
    (∀ c ∈ taken, isActive c = false) ∨
      (rest = [] ∧ ∃ b, taken = b ++ ['\\'] ∧ ∀ c ∈ b, isActive c = false) := by
  generalize hp : Position.word = p at h
  induction h with
  | lineEnds => exact .inl nofun
  | escapeStays => cases hp
  | separated => exact .inl nofun
  | @goesOn p q c gained taken w rest hturn later ih =>
    subst hp
    have hlater := later.length_le (inWord_of_turn rfl hturn)
    rw [List.length_append, List.length_cons] at hlength
    revert hturn
    simp only [turn]
    split_ifs with hsingle hdouble hescape hseparator <;> intro hturn <;> cases hturn
    -- An opened quote has to be closed, so that two marks are lost.
    · simp only [List.length_nil, Position.reserve] at hlength hlater
      omega
    · simp only [List.length_nil, Position.reserve] at hlength hlater
      omega
    · cases later with
      | escapeStays => exact .inr ⟨rfl, [], by rw [hescape]; rfl, nofun⟩
      | @goesOn _ q d gained taken w _ hturn later =>
        have hgained : q = .word ∧ gained.length ≤ 1 := by
          revert hturn
          simp only [turn]
          split_ifs <;> intro hturn <;> cases hturn <;> simp
        have hword := later.length_le (by rw [hgained.1]; rfl)
        rw [hgained.1] at hword
        simp only [List.length_nil, List.length_append, List.length_cons, Position.reserve]
          at hlength hword
        omega
    · simp only [List.length_singleton] at hlength
      have hc : isActive c = false := by
        simpa [isActive, hsingle, hdouble, hescape, and_assoc] using hseparator
      rcases ih (by omega) rfl with hall | ⟨hrest, b, rfl, hb⟩
      · exact .inl (List.forall_mem_cons.mpr ⟨hc, hall⟩)
      · exact .inr ⟨hrest, c :: b, rfl, List.forall_mem_cons.mpr ⟨hc, hb⟩⟩

end Takes

theorem nil_or_space_of_inert {more rest tail : List Char} {d : Char} (hd : isActive d = false)
    (h : more ++ rest = ' ' :: d :: tail) (hmore : inert more = 0) :
    more = [] ∨ more = [' '] ∧ rest = d :: tail := by
  rcases more with _ | ⟨b, _ | ⟨e, more⟩⟩
  · exact .inl rfl
  · obtain ⟨rfl, rfl⟩ : b = ' ' ∧ rest = d :: tail := by simpa using h
    exact .inr ⟨rfl, rfl⟩
  · obtain ⟨rfl, rfl, -⟩ : b = ' ' ∧ e = d ∧ more ++ rest = tail := by simpa using h
    simp [inert, hd] at hmore

/-- A line with a first word that it also begins with: if none of the characters behind it is lost
to the words that follow, the word is read from just these characters. -/
theorem takes_of_splitFrom {a tail : List Char} {further : List (List Char)}
    (htail : tail = [] ∨ ∃ c rest, tail = ' ' :: c :: rest ∧ isActive c = false)
    (hinert : inert further.flatten = inert tail)
    (h : splitFrom .gap [] (a ++ tail) = some (a :: further)) :
    Takes .word a a tail ∧ ∃ c taken, a = c :: taken ∧ c ≠ '#' := by
  obtain ⟨skipped, c, taken, rest, htakes, hc, hline, hfurther⟩ := exists_takes_of_gap rfl h
  change a ++ tail = skipped ++ (c :: taken ++ rest) at hline
  have hlength := htakes.length_le rfl
  change a.length + 1 ≤ (c :: taken).length + 1 at hlength
  have hrest : inert further.flatten ≤ 0 + inert rest := inert_flatten_le hfurther
  have hcount := congrArg inert hline
  simp only [inert_append, ← htakes.inert_eq rfl] at hcount
  have hall : skipped ++ c :: taken = a := by
    rw [← List.append_assoc] at hline
    rcases List.append_eq_append_iff.mp hline with ⟨more, hmore, htail'⟩ | ⟨less, hless, -⟩
    · have hinert' : inert more = 0 := by
        have := congrArg inert htail'
        rw [inert_append] at this
        omega
      rcases htail with rfl | ⟨d, tail, rfl, hd⟩
      · rw [hmore, (List.append_eq_nil_iff.mp htail'.symm).1, List.append_nil]
      rcases nil_or_space_of_inert hd htail'.symm hinert' with rfl | ⟨rfl, rfl⟩
      · rw [hmore, List.append_nil]
      · have hactive := htakes.head_rest rfl
        rw [hd] at hactive
        cases hactive
    · have hlengths := congrArg List.length hless
      simp only [List.length_append] at hlengths
      obtain rfl : less = [] := List.eq_nil_of_length_eq_zero (by omega)
      rw [hless, List.append_nil]
  obtain rfl : skipped = [] := by
    have hlengths := congrArg List.length hall
    rw [List.length_append] at hlengths
    exact List.eq_nil_of_length_eq_zero (by omega)
  rw [List.nil_append] at hall hline
  subst hall
  obtain rfl := List.append_cancel_left hline
  exact ⟨htakes, c, taken, rfl, hc⟩

end FirstWord

end Runbooks.Shell
