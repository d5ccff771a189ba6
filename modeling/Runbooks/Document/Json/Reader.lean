import Runbooks.Document.Json

/-!
The tree of a JSON text. A string that pairs its surrogates wrongly is well formed but cannot be
read as a text, so it does no harm where nothing reads it.
-/

namespace Runbooks.Json.Reader

def isSpace (c : Char) : Bool :=
  c = ' ' || c = '\n' || c = '\t' || c = '\r'

def skipSpaces (s : List Char) : List Char :=
  s.dropWhile isSpace

/-- Four hexadecimal digits. -/
def hex4? : List Char → Option (Nat × List Char)
  | a :: b :: c :: d :: rest => (readNat? 16 [a, b, c, d]).map (·, rest)
  | _ => none

def isLead (n : Nat) : Bool := 0xD800 ≤ n && n ≤ 0xDBFF

def isTrail (n : Nat) : Bool := 0xDC00 ≤ n && n ≤ 0xDFFF

def paired (lead trail : Nat) : Char :=
  Char.ofNat ((lead - 0xD800) * 0x400 + (trail - 0xDC00) + 0x10000)

def simpleEscape? (c : Char) : Option Char :=
  if c = '"' ∨ c = '\\' ∨ c = '/' then some c
  else if c = 'b' then some '\x08'
  else if c = 'f' then some '\x0c'
  else if c = 'n' then some '\n'
  else if c = 'r' then some '\r'
  else if c = 't' then some '\t'
  else none

/-- A character of a string, or `none` for a surrogate that stands alone. -/
def escape? : List Char → Option (Option Char × List Char)
  | 'u' :: rest => do
    let (n, rest) ← hex4? rest
    if isLead n then
      match rest with
      | '\\' :: 'u' :: more =>
        match hex4? more with
        | some (m, more) => if isTrail m then some (some (paired n m), more) else some (none, rest)
        | none => some (none, rest)
      | _ => some (none, rest)
    else if isTrail n then some (none, rest)
    else some (some (Char.ofNat n), rest)
  | c :: rest => (simpleEscape? c).map fun d => (some d, rest)
  | [] => none

/-- The rest of a string after its opening quote; `acc` holds what was read, reversed, or nothing
after a lone surrogate. -/
def string? : Nat → Option (List Char) → List Char → Option (Option String × List Char)
  | 0, _, _ => none
  | _ + 1, _, [] => none
  | fuel + 1, acc, c :: rest =>
    if c = '"' then some (acc.map fun r => String.ofList r.reverse, rest)
    else if c = '\\' then do
      let (d, rest) ← escape? rest
      let next := match acc, d with
        | some r, some d => some (d :: r)
        | _, _ => none
      string? fuel next rest
    else if c.toNat < 0x20 then none
    else string? fuel (acc.map (c :: ·)) rest

def stringTree : Option String → Tree
  | some s => Tree.ofText s
  | none => Tree.broken

/-- Digits without a leading zero, then an optional fraction and an optional power of ten. -/
def number? (s : List Char) : Option (Tree × List Char) :=
  let (negative, s) := match s with
    | '-' :: r => (true, r)
    | r => (false, r)
  let whole := s.takeWhile isDigit
  let s := s.dropWhile isDigit
  if whole.isEmpty || (whole.length > 1 && whole.head? = some '0') then none
  else
    let afterFraction : Option (Bool × List Char) := match s with
      | '.' :: r =>
        if (r.takeWhile isDigit).isEmpty then none else some (true, r.dropWhile isDigit)
      | r => some (false, r)
    let power (r : List Char) : Option (Bool × List Char) :=
      let digits := match r with
        | '+' :: t => t
        | '-' :: t => t
        | t => t
      if (digits.takeWhile isDigit).isEmpty then none else some (true, digits.dropWhile isDigit)
    match afterFraction with
    | none => none
    | some (isFraction, r) =>
      let afterPower : Option (Bool × List Char) := match r with
        | 'e' :: t => power t
        | 'E' :: t => power t
        | t => some (false, t)
      match afterPower with
      | none => none
      | some (isPower, rest) =>
        let count := if negative || isFraction || isPower then none else readNat? 10 whole
        some (.leaf none { count? := count }, rest)

/-- A word that the text must go on with. -/
def word? (word : String) (value : Tree) (s : List Char) : Option (Tree × List Char) :=
  if word.toList.isPrefixOf s then some (value, s.drop word.length) else none

mutual

def value? : Nat → List Char → Option (Tree × List Char)
  | 0, _ => none
  | fuel + 1, s =>
    match skipSpaces s with
    | [] => none
    | c :: rest =>
      if c = '"' then (string? (rest.length + 1) (some []) rest).map fun (t, r) => (stringTree t, r)
      else if c = '[' then
        match skipSpaces rest with
        | ']' :: r => some (.list none .exact [], r)
        | _ => items? fuel [] rest
      else if c = '\x7b' then
        match skipSpaces rest with
        | '\x7d' :: r => some (tableTree [], r)
        | _ => members? fuel [] rest
      else if c = 'n' then word? "null" nullTree (c :: rest)
      else if c = 't' then word? "true" (Tree.ofFlag true) (c :: rest)
      else if c = 'f' then word? "false" (Tree.ofFlag false) (c :: rest)
      else number? (c :: rest)

/-- The items of a list and its closing bracket. -/
def items? : Nat → List Tree → List Char → Option (Tree × List Char)
  | 0, _, _ => none
  | fuel + 1, acc, s =>
    match value? fuel s with
    | none => none
    | some (v, rest) =>
      match skipSpaces rest with
      | ',' :: r => items? fuel (v :: acc) r
      | ']' :: r => some (.list none .exact (v :: acc).reverse, r)
      | _ => none

/-- The members of a table and its closing brace. -/
def members? : Nat → List (Tree × Tree) → List Char → Option (Tree × List Char)
  | 0, _, _ => none
  | fuel + 1, acc, s =>
    match skipSpaces s with
    | '"' :: rest =>
      match string? (rest.length + 1) (some []) rest with
      | none => none
      | some (key, rest) =>
        match skipSpaces rest with
        | ':' :: rest =>
          match value? fuel rest with
          | none => none
          | some (v, rest) =>
            match skipSpaces rest with
            | ',' :: r => members? fuel ((stringTree key, v) :: acc) r
            | '\x7d' :: r => some (tableTree ((stringTree key, v) :: acc).reverse, r)
            | _ => none
        | _ => none
    | _ => none

end

end Runbooks.Json.Reader

namespace Runbooks.Json

/-- The tree of a text that holds one JSON value and nothing else. -/
def readTree? (s : String) : Option Tree :=
  let chars := s.toList
  match Reader.value? (2 * chars.length + 2) chars with
  | some (t, rest) => if (Reader.skipSpaces rest).isEmpty then some t else none
  | none => none

end Runbooks.Json
