import Mathlib.Data.List.Basic
import Runbooks.Document.Json.Reader

namespace Runbooks

section Digits

theorem isDigit_eq (c : Char) : isDigit c = c.isDigit :=
  rfl

theorem isDigit_of_mem_decimalDigits {n : Nat} {c : Char} (h : c ∈ decimalDigits n) :
    isDigit c = true := by
  rw [isDigit_eq]
  exact Nat.isDigit_of_mem_toDigits (by decide) (by decide) h

theorem decimalDigits_eq_ite (n : Nat) :
    decimalDigits n =
      if n < 10 then [Nat.digitChar n] else decimalDigits (n / 10) ++ [Nat.digitChar (n % 10)] :=
  Nat.toDigits_eq_if (by decide)

theorem decimalDigits_ne_nil (n : Nat) : decimalDigits n ≠ [] := by
  rw [decimalDigits_eq_ite]
  split <;> simp

theorem head?_decimalDigits {n : Nat} (h : 0 < n) : (decimalDigits n).head? ≠ some '0' := by
  induction n using Nat.strongRecOn with
  | ind n ih =>
    rw [decimalDigits_eq_ite]
    split
    · rename_i hn
      have hdigits : ∀ d < 10, 0 < d → Nat.digitChar d ≠ '0' := by decide
      simpa using hdigits n hn h
    · rename_i hn
      rw [List.head?_append_of_ne_nil _ (decimalDigits_ne_nil _)]
      exact ih (n / 10) (by omega) (by omega)

theorem digitValue?_digitChar {d : Nat} (h : d < 10) : digitValue? (Nat.digitChar d) = some d := by
  have hall : ∀ d < 10, digitValue? (Nat.digitChar d) = some d := by decide
  exact hall d h

theorem foldl_decimalDigits (n : Nat) :
    (decimalDigits n).foldl (fun n c => n * 10 + (digitValue? c).getD 0) 0 = n := by
  induction n using Nat.strongRecOn with
  | ind n ih =>
    rw [decimalDigits_eq_ite]
    split
    · rename_i hn
      rw [List.foldl_cons, digitValue?_digitChar hn]
      simp
    · rename_i hn
      rw [List.foldl_append, ih (n / 10) (by omega), List.foldl_cons,
        digitValue?_digitChar (Nat.mod_lt n (by decide)), Option.getD_some, List.foldl_nil]
      omega

theorem isDigitOf_ten {c : Char} (h : isDigit c = true) : isDigitOf 10 c = true := by
  simp only [isDigit, Bool.and_eq_true, decide_eq_true_eq] at h
  have hle : c.toNat ≤ '9'.toNat := h.2
  have hlt : c.toNat - '0'.toNat < 10 := by
    change c.toNat ≤ 57 at hle
    change c.toNat - 48 < 10
    omega
  rw [isDigitOf, digitValue?, if_pos h]
  exact decide_eq_true hlt

theorem readNat?_decimalDigits (n : Nat) : readNat? 10 (decimalDigits n) = some n := by
  have hdigits : (decimalDigits n).all (isDigitOf 10) = true :=
    List.all_eq_true.mpr fun c hc => isDigitOf_ten (isDigit_of_mem_decimalDigits hc)
  have hne := decimalDigits_ne_nil n
  rw [readNat?, hdigits, foldl_decimalDigits]
  simp [hne]

theorem readNat?_hexDigits {n : Nat} (h : n < 0x20) :
    readNat? 16 (hexDigits false 4 n) = some n := by
  have hall : ∀ n < 0x20, readNat? 16 (hexDigits false 4 n) = some n := by decide
  exact hall n h

end Digits

namespace Json

section Lines

theorem lineFeed_not_mem_escapeChar (c : Char) : '\n' ∉ escapeChar c := by
  have hhex : ∀ n < 0x20, '\n' ∉ hexDigits false 4 n := by decide
  unfold escapeChar
  split_ifs with _ _ hfeed _ _ _ _ hcontrol
  all_goals try decide
  · simpa using hhex c.toNat hcontrol
  · simpa using Ne.symm hfeed

theorem lineFeed_not_mem_quoted (s : String) : '\n' ∉ quoted s := by
  simp [quoted, lineFeed_not_mem_escapeChar]

theorem lineFeed_not_mem_decimalText (n : Int) : '\n' ∉ (decimalText n).toList := by
  have hdigits : ∀ n, '\n' ∉ decimalDigits n := fun n h =>
    absurd (isDigit_of_mem_decimalDigits h) (by decide)
  cases n with
  | ofNat n => simpa [decimalText] using hdigits n
  | negSucc n => simpa [decimalText] using hdigits (n + 1)

mutual

theorem lineFeed_not_mem_render : ∀ v : Json, '\n' ∉ render v
  | .null => by decide
  | .bool true => by decide
  | .bool false => by decide
  | .number n => lineFeed_not_mem_decimalText n
  | .string s => lineFeed_not_mem_quoted s
  | .array items => by
    simpa [render] using lineFeed_not_mem_renderItems items
  | .object members => by
    simpa [render] using lineFeed_not_mem_renderMembers members

theorem lineFeed_not_mem_renderItems : ∀ vs : List Json, '\n' ∉ renderItems vs
  | [] => by simp [renderItems]
  | [v] => lineFeed_not_mem_render v
  | v :: w :: vs => by
    simp [renderItems, lineFeed_not_mem_render v, lineFeed_not_mem_renderItems (w :: vs)]

theorem lineFeed_not_mem_renderMembers : ∀ ms : List (String × Json), '\n' ∉ renderMembers ms
  | [] => by simp [renderMembers]
  | [(k, v)] => by
    simp [renderMembers, lineFeed_not_mem_quoted k, lineFeed_not_mem_render v]
  | (k, v) :: m :: ms => by
    simp [renderMembers, lineFeed_not_mem_quoted k, lineFeed_not_mem_render v,
      lineFeed_not_mem_renderMembers (m :: ms)]

end

end Lines

namespace Reader

section Strings

theorem hex4?_hexDigits {n : Nat} (h : n < 0x20) (rest : List Char) :
    hex4? (hexDigits false 4 n ++ rest) = some (n, rest) := by
  have hread := readNat?_hexDigits h
  simp only [hexDigits, List.nil_append, List.cons_append] at hread ⊢
  rw [hex4?, hread]
  rfl

theorem escape?_control {c : Char} (h : c.toNat < 0x20) (rest : List Char) :
    escape? ('u' :: (hexDigits false 4 c.toNat ++ rest)) = some (some c, rest) := by
  have hlead : isLead c.toNat = false := by
    simp only [isLead, Bool.and_eq_false_iff, decide_eq_false_iff_not]
    omega
  have htrail : isTrail c.toNat = false := by
    simp only [isTrail, Bool.and_eq_false_iff, decide_eq_false_iff_not]
    omega
  simp only [escape?, hex4?_hexDigits h, Option.bind_eq_bind, Option.bind_some, hlead, htrail,
    Bool.false_eq_true, if_false, Char.ofNat_toNat]

theorem string?_escapeChar (fuel : Nat) (acc : List Char) (c : Char) (rest : List Char) :
    string? (fuel + 1) (some acc) (escapeChar c ++ rest) = string? fuel (some (c :: acc)) rest := by
  unfold escapeChar
  split_ifs with h₁ h₂ h₃ h₄ h₅ h₆ h₇ hcontrol
  all_goals try (subst_vars; rfl)
  · simp [string?, escape?_control hcontrol]
  · simp [string?, h₁, h₂, hcontrol]

theorem string?_escaped (s : List Char) (fuel : Nat) (acc rest : List Char) (h : s.length < fuel) :
    string? fuel (some acc) (s.flatMap escapeChar ++ '"' :: rest) =
      some (some (String.ofList (acc.reverse ++ s)), rest) := by
  induction s generalizing fuel acc with
  | nil =>
    obtain ⟨fuel, rfl⟩ := Nat.exists_eq_succ_of_ne_zero (Nat.ne_of_gt h)
    simp [string?]
  | cons c s ih =>
    obtain ⟨fuel, rfl⟩ := Nat.exists_eq_succ_of_ne_zero (Nat.ne_of_gt (Nat.zero_lt_of_lt h))
    rw [List.flatMap_cons, List.append_assoc, string?_escapeChar, ih fuel (c :: acc) (by simpa using h)]
    simp

end Strings

section Numbers

/-- What may stand behind a value: nothing, or a mark that no number goes on with. -/
def Ends (rest : List Char) : Prop :=
  ∀ c ∈ rest.head?, c = ',' ∨ c = ']' ∨ c = '\x7d'

variable {digits rest : List Char}

theorem ends_nil : Ends [] := by
  intro c hc
  cases hc

theorem ends_cons {c : Char} (h : c = ',' ∨ c = ']' ∨ c = '\x7d') (rest : List Char) :
    Ends (c :: rest) := by
  intro d hd
  obtain rfl : c = d := by simpa using hd
  exact h

theorem takeWhile_dropWhile_digits (hdigits : ∀ c ∈ digits, isDigit c = true) (h : Ends rest) :
    (digits ++ rest).takeWhile isDigit = digits ∧ (digits ++ rest).dropWhile isDigit = rest := by
  rw [List.takeWhile_append_of_pos hdigits, List.dropWhile_append_of_pos hdigits]
  cases rest with
  | nil => exact ⟨List.append_nil digits, rfl⟩
  | cons c rest =>
    rcases h c rfl with rfl | rfl | rfl <;> exact ⟨List.append_nil digits, rfl⟩

theorem number?_of_digits (hdigits : ∀ c ∈ digits, isDigit c = true) (hne : digits ≠ [])
    (hzero : digits.head? = some '0' → digits.length = 1) (h : Ends rest) :
    number? (digits ++ rest) = some (.leaf none { count? := readNat? 10 digits }, rest) ∧
      number? ('-' :: (digits ++ rest)) = some (.leaf none {}, rest) := by
  obtain ⟨htake, hdrop⟩ := takeWhile_dropWhile_digits hdigits h
  have hunsigned : ∀ r, digits ++ rest = '-' :: r → False := by
    intro r hr
    obtain ⟨c, ds, rfl⟩ := List.exists_cons_of_ne_nil hne
    have hc := hdigits c List.mem_cons_self
    obtain ⟨rfl, -⟩ := List.cons.inj hr
    cases hc
  have hrefused : (digits.isEmpty ||
      decide (digits.length > 1) && decide (digits.head? = some '0')) = false := by
    rw [List.isEmpty_eq_false_iff.mpr hne, Bool.false_or, Bool.and_eq_false_iff,
      decide_eq_false_iff_not, decide_eq_false_iff_not]
    by_cases hhead : digits.head? = some '0'
    · exact .inl (by rw [hzero hhead]; decide)
    · exact .inr hhead
  have hrest : rest = [] ∨ ∃ c t, rest = c :: t ∧ (c = ',' ∨ c = ']' ∨ c = '\x7d') := by
    cases rest with
    | nil => exact .inl rfl
    | cons c t => exact .inr ⟨c, t, rfl, h c rfl⟩
  constructor
  · rw [number?, htake, hdrop, hrefused]
    · rcases hrest with rfl | ⟨c, t, rfl, rfl | rfl | rfl⟩ <;> rfl
    · exact hunsigned
  · rw [number?, htake, hdrop, hrefused]
    rcases hrest with rfl | ⟨c, t, rfl, rfl | rfl | rfl⟩ <;> rfl

theorem length_of_head?_decimalDigits {n : Nat} (h : (decimalDigits n).head? = some '0') :
    (decimalDigits n).length = 1 := by
  rcases Nat.eq_zero_or_pos n with rfl | hn
  · rfl
  · exact absurd h (head?_decimalDigits hn)

theorem number?_decimalText (n : Int) (h : Ends rest) :
    number? ((decimalText n).toList ++ rest) = some (numberTree n, rest) := by
  cases n with
  | ofNat n =>
    have hread := number?_of_digits (fun _ => isDigit_of_mem_decimalDigits)
      (decimalDigits_ne_nil n) length_of_head?_decimalDigits h
    rw [decimalText, String.toList_ofList, hread.1, readNat?_decimalDigits]
    rfl
  | negSucc n =>
    have hread := number?_of_digits (fun _ => isDigit_of_mem_decimalDigits)
      (decimalDigits_ne_nil (n + 1)) length_of_head?_decimalDigits h
    rw [decimalText, String.toList_ofList, numberTree, if_pos (Int.negSucc_lt_zero n)]
    exact hread.2

theorem exists_decimalText (n : Int) :
    ∃ c t, (decimalText n).toList = c :: t ∧ (isDigit c = true ∨ c = '-') := by
  cases n with
  | ofNat n =>
    obtain ⟨c, t, hct⟩ := List.exists_cons_of_ne_nil (decimalDigits_ne_nil n)
    refine ⟨c, t, by rw [decimalText, String.toList_ofList, hct], .inl ?_⟩
    exact isDigit_of_mem_decimalDigits (hct ▸ List.mem_cons_self)
  | negSucc n => exact ⟨'-', decimalDigits (n + 1), by rw [decimalText, String.toList_ofList], .inr rfl⟩

end Numbers

section Values

variable {fuel : Nat} {rest : List Char}

theorem skipSpaces_cons {c : Char} (h : isSpace c = false) (t : List Char) :
    skipSpaces (c :: t) = c :: t := by
  rw [skipSpaces, List.dropWhile_cons, h]
  rfl

theorem ne_of_isDigit {c d : Char} (h : isDigit c = true) (hd : isDigit d = false) : c ≠ d := by
  rintro rfl
  rw [h] at hd
  cases hd

theorem isSpace_of_isDigit {c : Char} (h : isDigit c = true) : isSpace c = false := by
  have hne : ∀ d, isDigit d = false → c ≠ d := fun _ => ne_of_isDigit h
  simp only [isSpace, hne ' ' rfl, hne '\n' rfl, hne '\t' rfl, hne '\r' rfl, decide_false,
    Bool.or_false]

theorem exists_render (v : Json) :
    ∃ c t, render v = c :: t ∧ isSpace c = false ∧ c ≠ ']' := by
  cases v with
  | null => exact ⟨_, _, rfl, by decide, by decide⟩
  | bool b => cases b <;> exact ⟨_, _, rfl, by decide, by decide⟩
  | number n =>
    obtain ⟨c, t, hct, hc | rfl⟩ := exists_decimalText n
    · exact ⟨c, t, hct, isSpace_of_isDigit hc, ne_of_isDigit hc rfl⟩
    · exact ⟨_, t, hct, by decide, by decide⟩
  | string s => exact ⟨_, _, rfl, by decide, by decide⟩
  | array items => exact ⟨_, _, rfl, by decide, by decide⟩
  | object members => exact ⟨_, _, rfl, by decide, by decide⟩

theorem exists_renderItems (v : Json) (vs : List Json) :
    ∃ c t, renderItems (v :: vs) = c :: t ∧ isSpace c = false ∧ c ≠ ']' := by
  obtain ⟨c, t, hct, hc⟩ := exists_render v
  cases vs with
  | nil => exact ⟨c, t, hct, hc⟩
  | cons w vs => exact ⟨c, _, by rw [renderItems, hct, List.cons_append], hc⟩

theorem exists_renderMembers (m : String × Json) (ms : List (String × Json)) :
    ∃ t, renderMembers (m :: ms) = '"' :: t := by
  cases ms with
  | nil => exact ⟨_, rfl⟩
  | cons m' ms => exact ⟨_, rfl⟩

theorem length_le_length_escaped (s : List Char) : s.length ≤ (s.flatMap escapeChar).length := by
  induction s with
  | nil => exact Nat.le_refl _
  | cons c s ih =>
    have hc : 0 < (escapeChar c).length := by
      unfold escapeChar
      split_ifs <;> exact Nat.zero_lt_succ _
    rw [List.flatMap_cons, List.length_append, List.length_cons]
    omega

theorem string?_quoted (s : String) (rest : List Char) :
    ∃ t, quoted s ++ rest = '"' :: t ∧ string? (t.length + 1) (some []) t = some (some s, rest) := by
  refine ⟨s.toList.flatMap escapeChar ++ '"' :: rest, ?_, ?_⟩
  · rw [quoted, List.cons_append, List.append_assoc, List.singleton_append]
  · have hlength := length_le_length_escaped s.toList
    rw [string?_escaped s.toList _ [] rest (by rw [List.length_append]; omega), List.reverse_nil,
      List.nil_append, String.ofList_toList]

theorem value?_string (s : String) (rest : List Char) :
    value? (fuel + 1) (quoted s ++ rest) = some (Tree.ofText s, rest) := by
  obtain ⟨t, hquoted, hread⟩ := string?_quoted s rest
  rw [hquoted, value?, skipSpaces_cons (by decide)]
  simp only [if_pos, hread]
  rfl

theorem value?_number (n : Int) (h : Ends rest) :
    value? (fuel + 1) ((decimalText n).toList ++ rest) = some (numberTree n, rest) := by
  have hread := number?_decimalText n h
  obtain ⟨c, t, hct, hc⟩ := exists_decimalText n
  rw [hct, List.cons_append] at hread ⊢
  rcases hc with hc | rfl
  · have hne : ∀ d, isDigit d = false → c ≠ d := fun _ => ne_of_isDigit hc
    rw [value?, skipSpaces_cons (isSpace_of_isDigit hc)]
    simp only [hread, hne '"' rfl, hne '[' rfl, hne '\x7b' rfl, hne 'n' rfl, hne 't' rfl,
      hne 'f' rfl, if_false]
  · rw [value?, skipSpaces_cons (by decide)]
    exact hread

theorem value?_bracket (s : List Char) :
    value? (fuel + 1) ('[' :: s) =
      match skipSpaces s with
      | ']' :: r => some (.list none .exact [], r)
      | _ => items? fuel [] s :=
  rfl

mutual

theorem value?_render : ∀ (v : Json) (fuel : Nat) (rest : List Char),
    2 * (render v).length ≤ fuel → Ends rest →
      value? fuel (render v ++ rest) = some (tree v, rest)
  | v, 0, _, hfuel, _ => by
    obtain ⟨c, t, hct, -⟩ := exists_render v
    rw [hct, List.length_cons] at hfuel
    omega
  | .null, fuel + 1, rest, _, _ => rfl
  | .bool true, fuel + 1, rest, _, _ => rfl
  | .bool false, fuel + 1, rest, _, _ => rfl
  | .number n, fuel + 1, rest, _, h => value?_number n h
  | .string s, fuel + 1, rest, _, _ => value?_string s rest
  | .array [], fuel + 1, rest, _, _ => rfl
  | .array (v :: vs), fuel + 1, rest, hfuel, _ => by
    have hitems := items?_render v vs fuel [] rest (by
      rw [render, List.length_cons, List.length_append, List.length_singleton] at hfuel
      omega)
    obtain ⟨c, t, hct, hspace, hc⟩ := exists_renderItems v vs
    rw [render, List.cons_append, List.append_assoc, List.singleton_append, value?_bracket]
    rw [hct, List.cons_append] at hitems ⊢
    rw [skipSpaces_cons hspace]
    split
    · rename_i heq
      exact absurd (List.cons.inj heq).1 hc
    · exact hitems
  | .object [], fuel + 1, rest, _, _ => rfl
  | .object (m :: ms), fuel + 1, rest, hfuel, _ => by
    have hmembers := members?_render m ms fuel [] rest (by
      rw [render, List.length_cons, List.length_append, List.length_singleton] at hfuel
      omega)
    obtain ⟨t, ht⟩ := exists_renderMembers m ms
    rw [render, List.cons_append, List.append_assoc, List.singleton_append, value?,
      skipSpaces_cons (by decide)]
    rw [ht, List.cons_append] at hmembers ⊢
    exact hmembers

/-- The items of a list, the first ones of which have been read. -/
theorem items?_render : ∀ (v : Json) (vs : List Json) (fuel : Nat) (acc : List Tree)
    (rest : List Char), 2 * (renderItems (v :: vs)).length + 1 ≤ fuel →
      items? fuel acc (renderItems (v :: vs) ++ ']' :: rest) =
        some (.list none .exact (acc.reverse ++ itemTrees (v :: vs)), rest)
  | v, [], fuel + 1, acc, rest, hfuel => by
    have hv := value?_render v fuel (']' :: rest) (by rw [renderItems] at hfuel; omega)
      (ends_cons (by simp) rest)
    rw [items?, renderItems, hv]
    simp only [skipSpaces_cons (show isSpace ']' = false by decide), itemTrees,
      List.reverse_cons]
  | v, w :: vs, fuel + 1, acc, rest, hfuel => by
    rw [renderItems, List.length_append, List.length_cons] at hfuel
    have hv := value?_render v fuel (',' :: (renderItems (w :: vs) ++ ']' :: rest)) (by omega)
      (ends_cons (by simp) _)
    have hvs := items?_render w vs fuel (tree v :: acc) rest (by omega)
    rw [items?, renderItems, List.append_assoc, List.cons_append, hv]
    simp only [skipSpaces_cons (show isSpace ',' = false by decide), hvs, itemTrees,
      List.reverse_cons, List.append_assoc, List.singleton_append]

theorem members?_render : ∀ (m : String × Json) (ms : List (String × Json)) (fuel : Nat)
    (acc : List (Tree × Tree)) (rest : List Char),
    2 * (renderMembers (m :: ms)).length + 1 ≤ fuel →
      members? fuel acc (renderMembers (m :: ms) ++ '\x7d' :: rest) =
        some (tableTree (acc.reverse ++ memberTrees (m :: ms)), rest)
  | (k, v), [], fuel + 1, acc, rest, hfuel => by
    rw [renderMembers, List.length_append, List.length_cons] at hfuel
    have hv := value?_render v fuel ('\x7d' :: rest) (by omega) (ends_cons (by simp) rest)
    obtain ⟨t, hquoted, hread⟩ := string?_quoted k (':' :: (render v ++ '\x7d' :: rest))
    rw [renderMembers, List.append_assoc, List.cons_append, hquoted, members?,
      skipSpaces_cons (by decide)]
    simp only [hread, skipSpaces_cons (show isSpace ':' = false by decide), hv,
      skipSpaces_cons (show isSpace '\x7d' = false by decide), memberTrees, List.reverse_cons,
      stringTree]
  | (k, v), m :: ms, fuel + 1, acc, rest, hfuel => by
    rw [renderMembers, List.length_append, List.length_cons, List.length_append,
      List.length_cons] at hfuel
    have hv := value?_render v fuel (',' :: (renderMembers (m :: ms) ++ '\x7d' :: rest))
      (by omega) (ends_cons (by simp) _)
    have hms := members?_render m ms fuel ((Tree.ofText k, tree v) :: acc) rest (by omega)
    obtain ⟨t, hquoted, hread⟩ := string?_quoted k
      (':' :: (render v ++ ',' :: (renderMembers (m :: ms) ++ '\x7d' :: rest)))
    rw [renderMembers, List.append_assoc, List.cons_append, List.append_assoc, List.cons_append,
      hquoted, members?, skipSpaces_cons (by decide)]
    simp only [hread, skipSpaces_cons (show isSpace ':' = false by decide), hv,
      skipSpaces_cons (show isSpace ',' = false by decide), memberTrees, List.reverse_cons,
      stringTree, hms, List.append_assoc, List.singleton_append]

end

end Values

end Reader

/-- What is written for a value is read as its tree. -/
theorem readTree?_text (v : Json) : readTree? v.text = some v.tree := by
  have hread := Reader.value?_render v (2 * v.render.length + 2) [] (by omega) Reader.ends_nil
  rw [List.append_nil] at hread
  rw [readTree?, text, String.toList_ofList]
  simp only [hread]
  rfl

end Json

end Runbooks
