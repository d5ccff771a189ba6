import Runbooks.Document.Tree

namespace Runbooks.Toml

def isSpace (c : Char) : Bool :=
  c = ' ' || c = '\t'

def skipSpaces (s : List Char) : List Char :=
  s.dropWhile isSpace

/-- What stands after a line break, which is a line feed with an optional carriage return. -/
def newline? : List Char → Option (List Char)
  | '\n' :: r => some r
  | '\r' :: '\n' :: r => some r
  | _ => none

/-- The characters of a comment and of a literal string, quotes aside. -/
def isPrintable (c : Char) : Bool :=
  c = '\t' || (0x20 ≤ c.toNat && c.toNat ≤ 0x7E) || 0x80 ≤ c.toNat

def isPlain (c : Char) : Bool :=
  isPrintable c && c ≠ '"' && c ≠ '\\'

def isLiteral (c : Char) : Bool :=
  isPrintable c && c ≠ '\''

/-- The character that `width` hexadecimal digits name. -/
def codePoint? (width : Nat) (s : List Char) : Option (Char × List Char) := do
  let digits := s.take width
  if digits.length ≠ width then none
  let n ← readNat? 16 digits
  if h : n.isValidChar then some (Char.ofNatAux n h, s.drop width) else none

/-- The character that an escape stands for, the backslash being read. -/
def escape? : List Char → Option (Char × List Char)
  | 'b' :: r => some ('\x08', r)
  | 'f' :: r => some ('\x0c', r)
  | 'n' :: r => some ('\n', r)
  | 'r' :: r => some ('\r', r)
  | 't' :: r => some ('\t', r)
  | '"' :: r => some ('"', r)
  | '\\' :: r => some ('\\', r)
  | 'u' :: r => codePoint? 4 r
  | 'U' :: r => codePoint? 8 r
  | _ => none

/-- A string in double quotes, the opening one being read. -/
def basicString? : Nat → List Char → List Char → Option (String × List Char)
  | 0, _, _ => none
  | _ + 1, _, [] => none
  | fuel + 1, acc, c :: rest =>
    if c = '"' then some (String.ofList acc.reverse, rest)
    else if c = '\\' then do
      let (d, rest) ← escape? rest
      basicString? fuel (d :: acc) rest
    else if isPlain c then basicString? fuel (c :: acc) rest
    else none

/-- A string in single quotes, the opening one being read. -/
def literalString? (s : List Char) : Option (String × List Char) :=
  match s.dropWhile isLiteral with
  | '\'' :: rest => some (String.ofList (s.takeWhile isLiteral), rest)
  | _ => none

/-- White space and line breaks after an escaped line break. -/
def skipFolded : Nat → List Char → List Char
  | 0, s => s
  | fuel + 1, s =>
    match newline? s with
    | some r => skipFolded fuel r
    | none =>
      match s with
      | c :: r => if isSpace c then skipFolded fuel r else s
      | [] => []

/-- What a run of quotes means in a string that three of them close: one or two belong to the
string, three end it, and up to two more stand before the end. -/
def quoteRun (count : Nat) : Option (Nat × Bool) :=
  if count < 3 then some (count, false)
  else if count < 6 then some (count - 3, true)
  else none

/-- A string of several lines in double quotes, without the opening quotes. -/
def basicLines? : Nat → List Char → List Char → Option (String × List Char)
  | 0, _, _ => none
  | _ + 1, _, [] => none
  | fuel + 1, acc, c :: rest =>
    if c = '"' then do
      let run := (c :: rest).takeWhile (· = '"')
      let after := (c :: rest).dropWhile (· = '"')
      let (kept, closed) ← quoteRun run.length
      let acc := List.replicate kept '"' ++ acc
      if closed then some (String.ofList acc.reverse, after) else basicLines? fuel acc after
    else if c = '\\' then
      match newline? (skipSpaces rest) with
      | some r => basicLines? fuel acc (skipFolded r.length r)
      | none => do
        let (d, rest) ← escape? rest
        basicLines? fuel (d :: acc) rest
    else match newline? (c :: rest) with
      | some r => basicLines? fuel ('\n' :: acc) r
      | none => if isPlain c then basicLines? fuel (c :: acc) rest else none

/-- A string of several lines in single quotes, without the opening quotes. -/
def literalLines? : Nat → List Char → List Char → Option (String × List Char)
  | 0, _, _ => none
  | _ + 1, _, [] => none
  | fuel + 1, acc, c :: rest =>
    if c = '\'' then do
      let run := (c :: rest).takeWhile (· = '\'')
      let after := (c :: rest).dropWhile (· = '\'')
      let (kept, closed) ← quoteRun run.length
      let acc := List.replicate kept '\'' ++ acc
      if closed then some (String.ofList acc.reverse, after) else literalLines? fuel acc after
    else match newline? (c :: rest) with
      | some r => literalLines? fuel ('\n' :: acc) r
      | none => if isLiteral c then literalLines? fuel (c :: acc) rest else none

/-- The first line break of a string of several lines does not count. -/
def skipFirstBreak (s : List Char) : List Char :=
  (newline? s).getD s

/-- A string in any of the four quotings. -/
def string? (s : List Char) : Option (String × List Char) :=
  match s with
  | '"' :: '"' :: '"' :: r => basicLines? (r.length + 1) [] (skipFirstBreak r)
  | '"' :: r => basicString? (r.length + 1) [] r
  | '\'' :: '\'' :: '\'' :: r => literalLines? (r.length + 1) [] (skipFirstBreak r)
  | '\'' :: r => literalString? r
  | _ => none

/-- Digits of a base, the first of them required, each underscore between two digits. -/
def digitRun? (base : Nat) : Nat → List Char → List Char → Option (List Char × List Char)
  | 0, _, _ => none
  | _ + 1, _, [] => none
  | fuel + 1, acc, c :: rest =>
    if isDigitOf base c then
      match rest with
      | '_' :: r => digitRun? base fuel (c :: acc) r
      | d :: _ =>
        if isDigitOf base d then digitRun? base fuel (c :: acc) rest
        else some ((c :: acc).reverse, rest)
      | [] => some ((c :: acc).reverse, [])
    else none

def digits? (base : Nat) (s : List Char) : Option (List Char × List Char) :=
  digitRun? base (s.length + 1) [] s

/-- A sign, and what stands after it. -/
def sign (s : List Char) : Option Char × List Char :=
  match s with
  | '+' :: r => (some '+', r)
  | '-' :: r => (some '-', r)
  | r => (none, r)

/-- Whole digits with an optional sign; a leading zero stands alone. -/
def wholeDigits? (s : List Char) : Option (List Char × List Char) :=
  match s with
  | '0' :: r => some (['0'], r)
  | r => digits? 10 r

/-- An integer leaf; only one that is not negative can be a count. -/
def integerTree (n : Int) : Tree :=
  .leaf none { count? := if n < 0 then none else some n.toNat }

def inRange (n : Int) : Bool :=
  -Int.pow 2 63 ≤ n && n < Int.pow 2 63

def integer? (s : List Char) : Option (Tree × List Char) :=
  let based (base : Nat) (r : List Char) : Option (Tree × List Char) := do
    let (ds, rest) ← digits? base r
    let n ← readNat? base ds
    if inRange n then some (integerTree n, rest) else none
  match s with
  | '0' :: 'x' :: r => based 16 r
  | '0' :: 'o' :: r => based 8 r
  | '0' :: 'b' :: r => based 2 r
  | _ => do
    let (mark, r) := sign s
    let (ds, rest) ← wholeDigits? r
    let n ← readNat? 10 ds
    let n : Int := if mark = some '-' then -n else n
    if inRange n then some (integerTree n, rest) else none

/-- The power of ten of a float with its letter. -/
def power? (s : List Char) : Option (List Char × List Char) :=
  match s with
  | c :: r =>
    if c = 'e' ∨ c = 'E' then do
      let (mark, r) := sign r
      let (ds, rest) ← digits? 10 r
      some ('e' :: (mark.toList ++ ds), rest)
    else none
  | [] => none

def word? (word : String) (s : List Char) : Option (List Char) :=
  if word.toList.isPrefixOf s then some (s.drop word.length) else none

/-- A number with a fraction or a power of ten, or one of the names for numbers that are none.
One too large is refused, one too far below zero is not. -/
def float? (s : List Char) : Option (Tree × List Char) :=
  let (mark, r) := sign s
  match word? "inf" r <|> word? "nan" r with
  | some rest => some (Tree.broken, rest)
  | none => do
    let (ds, r) ← wholeDigits? r
    let (numeral, rest) ← match r with
      | '.' :: r => do
        let (fs, r) ← digits? 10 r
        match power? r with
        | some (es, rest) => some (ds ++ '.' :: fs ++ es, rest)
        | none => some (ds ++ '.' :: fs, r)
      | r => do
        let (es, rest) ← power? r
        some (ds ++ es, rest)
    match Binary64.ofNumeral? (mark.toList ++ numeral) with
    | some (.infinite false) => none
    | some _ => some (Tree.broken, rest)
    | none => none

/-- A number of two digits within bounds. -/
def two? (low high : Nat) : List Char → Option (Nat × List Char)
  | a :: b :: r => do
    let n ← readNat? 10 [a, b]
    if low ≤ n ∧ n ≤ high then some (n, r) else none
  | _ => none

def daysIn (year month : Nat) : Nat :=
  let leap := year % 4 = 0 && (year % 100 ≠ 0 || year % 400 = 0)
  match month with
  | 2 => if leap then 29 else 28
  | 4 => 30
  | 6 => 30
  | 9 => 30
  | 11 => 30
  | _ => 31

/-- What stands after a date of the calendar. -/
def date? : List Char → Option (List Char)
  | a :: b :: c :: d :: '-' :: r => do
    let year ← readNat? 10 [a, b, c, d]
    match two? 1 12 r with
    | some (month, '-' :: r) =>
      let (_, r) ← two? 1 (daysIn year month) r
      some r
    | _ => none
  | _ => none

/-- What stands after a time of the day with seconds. -/
def time? (s : List Char) : Option (List Char) :=
  match two? 0 23 s with
  | some (_, ':' :: s) =>
    match two? 0 59 s with
    | some (_, ':' :: s) => do
      let (_, r) ← two? 0 60 s
      match r with
      | '.' :: d :: t => some (if isDigit d then t.dropWhile isDigit else r)
      | _ => some r
    | _ => none
  | _ => none

/-- What stands after a distance to universal time. -/
def offset? (s : List Char) : Option (List Char) :=
  match s with
  | 'Z' :: r => some r
  | 'z' :: r => some r
  | c :: r =>
    if c = '+' ∨ c = '-' then
      match two? 0 23 r with
      | some (_, ':' :: r) => (two? 0 59 r).map (·.2)
      | _ => none
    else none
  | [] => none

/-- What stands after a date, a time, or a date with a time. -/
def dateTime? (s : List Char) : Option (List Char) :=
  match date? s with
  | none => time? s
  | some r =>
    match r with
    | c :: t =>
      if c = 'T' ∨ c = 't' ∨ c = ' ' then
        match time? t with
        | some t => some ((offset? t).getD t)
        | none => some r
      else some r
    | [] => some []

/-- A date is read as a table with one entry that no record knows. -/
def dateTree : Tree :=
  .table none none [(Tree.ofText "$__toml_private_datetime", Tree.ofText "")]

/-- A string, a truth value, a date or a number. -/
def scalar? (s : List Char) : Option (Tree × List Char) :=
  match s with
  | [] => none
  | c :: _ =>
    if c = '"' ∨ c = '\'' then (string? s).map fun (t, r) => (Tree.ofText t, r)
    else if c = 't' then (word? "true" s).map (Tree.ofFlag true, ·)
    else if c = 'f' then (word? "false" s).map (Tree.ofFlag false, ·)
    else if c = 'i' ∨ c = 'n' then float? s
    else if c = '+' ∨ c = '-' ∨ isDigit c then
      (dateTime? s).map (dateTree, ·) <|> float? s <|> integer? s
    else none

end Runbooks.Toml
