import Runbooks.Document.Toml.Scalar

/-!
The tree of a TOML text. Headers and dotted keys open tables step by step; an `Item` keeps what
may still be added to a table, so that no table is defined twice.
-/

namespace Runbooks.Toml

/-- What a key holds while a document is read. A table that a header or a dotted key only passed
through is `implied`; the one that dotted keys made is `dotted` as well. -/
inductive Item where
  | value (tree : Tree)
  | table (implied dotted : Bool) (entries : List (String × Item))
  | rows (tables : List (List (String × Item)))

abbrev Entries := List (String × Item)

namespace Entries

/-- The entries with one of them replaced, or added at the end. -/
def put (key : String) (item : Item) : Entries → Entries
  | [] => [(key, item)]
  | (k, i) :: rest => if k = key then (k, item) :: rest else (k, i) :: put key item rest

/-- Goes down a path, opens the tables that are missing, and changes the one at its end. A path
of dotted keys may enter only tables that are implied. -/
def descend {α : Type} (dotted : Bool) (change : Bool → Entries → Option (Entries × α)) :
    List String → Bool → Entries → Option (Entries × α)
  | [], isDotted, entries => change isDotted entries
  | key :: path, _, entries =>
    match entries.lookup key with
    | none => do
      let (inner, a) ← descend dotted change path dotted []
      some (put key (.table true dotted inner) entries, a)
    | some (.value _) => none
    | some (.rows tables) =>
      match tables.getLast? with
      | none => none
      | some last => do
        let (inner, a) ← descend dotted change path false last
        some (put key (.rows (tables.dropLast ++ [inner])) entries, a)
    | some (.table implied isDotted entered) =>
      if dotted && !implied then none
      else do
        let (inner, a) ← descend dotted change path isDotted entered
        some (put key (.table implied isDotted inner) entries, a)

/-- Adds a value under a path of keys, the last one given apart. A dotted path has to end in a
table made by dotted keys, a single key in one that was not. -/
def assign (path : List String) (key : String) (value : Tree) (entries : Entries) :
    Option Entries :=
  (descend true (fun isDotted inner =>
    if isDotted = path.isEmpty then none
    else if (inner.lookup key).isSome then none
    else some (inner ++ [(key, .value value)], ())) path false entries).map (·.1)

end Entries

/-- A table whose one entry is empty names an alternative by its key. -/
def tableTree (entries : List (Tree × Tree)) : Tree :=
  let choice := match entries with
    | [(key, .table _ _ [])] => key.text?
    | [(key, .list _ _ [])] => key.text?
    | _ => none
  .table none choice entries

mutual

/-- The tree of what a key holds in the end. -/
def Item.tree : Item → Tree
  | .value t => t
  | .table _ _ entries => tableTree (entryTrees entries)
  | .rows tables => .list none .lenient (rowTrees tables)

def entryTrees : List (String × Item) → List (Tree × Tree)
  | [] => []
  | (key, item) :: rest => (Tree.ofText key, item.tree) :: entryTrees rest

def rowTrees : List (List (String × Item)) → List Tree
  | [] => []
  | entries :: rest => tableTree (entryTrees entries) :: rowTrees rest

end

/-- A document while it is read: what the headers so far have closed, and the table that is
open. -/
structure Partial where
  closed : Entries := []
  path : List String := []
  isRow : Bool := false
  opened : Entries := []

namespace Partial

/-- Puts the open table where its header says. -/
def close? (d : Partial) : Option Entries :=
  match d.path.getLast? with
  | none => some d.opened
  | some key =>
    (Entries.descend false (fun _ parent =>
      match parent.lookup key with
      | none =>
        let item : Item := if d.isRow then .rows [d.opened] else .table false false d.opened
        some (parent ++ [(key, item)], ())
      | some (.rows tables) =>
        if d.isRow then some (Entries.put key (.rows (tables ++ [d.opened])) parent, ()) else none
      | some (.table true _ _) =>
        if d.isRow then none else some (Entries.put key (.table false false d.opened) parent, ())
      | some _ => none) d.path.dropLast false d.closed).map (·.1)

/-- Opens the table of a header; one that was only implied keeps what it holds. -/
def openTable? (path : List String) (d : Partial) : Option Partial := do
  let closed ← d.close?
  let key ← path.getLast?
  let (closed, kept) ← Entries.descend false (fun _ parent =>
    match parent.lookup key with
    | none => some (parent, [])
    | some (.table true false entries) => some (parent, entries)
    | some _ => none) path.dropLast false closed
  some { closed, path, isRow := false, opened := kept }

/-- Opens another table of a list of tables. -/
def openRow? (path : List String) (d : Partial) : Option Partial := do
  let closed ← d.close?
  let key ← path.getLast?
  let (closed, _) ← Entries.descend false (fun _ parent =>
    match parent.lookup key with
    | none => some (parent ++ [(key, .rows [])], ())
    | some (.rows _) => some (parent, ())
    | some _ => none) path.dropLast false closed
  some { closed, path, isRow := true, opened := [] }

end Partial

def isBareKey (c : Char) : Bool :=
  isDigit c || ('a' ≤ c && c ≤ 'z') || ('A' ≤ c && c ≤ 'Z') || c = '_' || c = '-'

/-- A bare key or a quoted one of a single line. -/
def simpleKey? (s : List Char) : Option (String × List Char) :=
  match s with
  | '"' :: r => basicString? (r.length + 1) [] r
  | '\'' :: r => literalString? r
  | _ =>
    let word := s.takeWhile isBareKey
    if word.isEmpty then none else some (String.ofList word, s.dropWhile isBareKey)

/-- Keys parted by points, with white space around each. -/
def dottedKey? : Nat → List Char → Option (List String × List Char)
  | 0, _ => none
  | fuel + 1, s => do
    let (key, r) ← simpleKey? (skipSpaces s)
    match skipSpaces r with
    | '.' :: r => do
      let (keys, rest) ← dottedKey? fuel r
      some (key :: keys, rest)
    | r => some ([key], r)

/-- How deep values and keys may nest. -/
def nestingLimit : Nat := 80

def key? (s : List Char) : Option (List String × List Char) := do
  let (keys, rest) ← dottedKey? (s.length + 1) s
  if keys.length < nestingLimit then some (keys, rest) else none

/-- What stands after a comment, if one stands here. -/
def skipComment (s : List Char) : List Char :=
  match s with
  | '#' :: r => r.dropWhile isPrintable
  | r => r

/-- White space, line breaks and comments, as they may stand between the items of a list. -/
def skipLines : Nat → List Char → List Char
  | 0, s => s
  | fuel + 1, s =>
    match newline? s with
    | some r => skipLines fuel r
    | none =>
      match s with
      | '#' :: _ => skipLines fuel (skipComment s)
      | c :: r => if isSpace c then skipLines fuel r else s
      | [] => []

def skipBetween (s : List Char) : List Char :=
  skipLines s.length s

mutual

/-- A value that may still nest `depth` levels deep. -/
def value? : Nat → Nat → List Char → Option (Tree × List Char)
  | 0, _, _ => none
  | fuel + 1, depth, s =>
    match s, depth with
    | '[' :: r, depth + 1 =>
      match skipBetween r with
      | ']' :: rest => some (.list none .lenient [], rest)
      | r => items? fuel depth [] r
    | '\x7b' :: r, depth + 1 =>
      match skipSpaces r with
      | '\x7d' :: rest => some (tableTree [], rest)
      | r => pairs? fuel depth [] r
    | s, _ => scalar? s

/-- The items of a list up to its bracket, which a comma may precede. -/
def items? : Nat → Nat → List Tree → List Char → Option (Tree × List Char)
  | 0, _, _, _ => none
  | fuel + 1, depth, acc, s => do
    let (v, r) ← value? fuel depth s
    match skipBetween r with
    | ',' :: r =>
      match skipBetween r with
      | ']' :: rest => some (.list none .lenient (v :: acc).reverse, rest)
      | r => items? fuel depth (v :: acc) r
    | ']' :: rest => some (.list none .lenient (v :: acc).reverse, rest)
    | _ => none

/-- The entries of a table in braces, all on one line. -/
def pairs? : Nat → Nat → Entries → List Char → Option (Tree × List Char)
  | 0, _, _, _ => none
  | fuel + 1, depth, acc, s => do
    let (keys, r) ← key? s
    let name ← keys.getLast?
    match r with
    | '=' :: r => do
      let (v, r) ← value? fuel depth (skipSpaces r)
      let acc ← Entries.assign keys.dropLast name v acc
      match skipSpaces r with
      | ',' :: r => pairs? fuel depth acc r
      | '\x7d' :: rest => some (tableTree (entryTrees acc), rest)
      | _ => none
    | _ => none

end

/-- The end of a line after white space and a comment. -/
def lineEnd? (s : List Char) : Option (List Char) :=
  match skipComment (skipSpaces s) with
  | [] => some []
  | r => newline? r

/-- A header in brackets: its path, whether it is a list's, and what stands after the line. -/
def header? (s : List Char) : Option (List String × Bool × List Char) :=
  match s with
  | '[' :: '[' :: r => do
    let (path, r) ← key? r
    match r with
    | ']' :: ']' :: r => (lineEnd? r).map (path, true, ·)
    | _ => none
  | '[' :: r => do
    let (path, r) ← key? r
    match r with
    | ']' :: r => (lineEnd? r).map (path, false, ·)
    | _ => none
  | _ => none

/-- A key with its value, and what stands after the line. -/
def assignment? (s : List Char) : Option (List String × Tree × List Char) := do
  let (path, r) ← key? s
  match r with
  | '=' :: r => do
    let r := skipSpaces r
    let (v, r) ← value? (2 * r.length + 2) (nestingLimit - 1) r
    (lineEnd? r).map (path, v, ·)
  | _ => none

/-- Reads line after line. -/
def lines? : Nat → Partial → List Char → Option Partial
  | 0, _, _ => none
  | fuel + 1, d, s =>
    match skipSpaces s with
    | [] => some d
    | c :: rest =>
      if c = '\n' ∨ c = '\r' ∨ c = '#' then do lines? fuel d (← lineEnd? (c :: rest))
      else if c = '[' then do
        let (path, isRow, r) ← header? (c :: rest)
        lines? fuel (← if isRow then d.openRow? path else d.openTable? path) r
      else do
        let (path, v, r) ← assignment? (c :: rest)
        let name ← path.getLast?
        let opened ← Entries.assign path.dropLast name v d.opened
        lines? fuel { d with opened } r

/-- The tree of a document; a byte order mark in front of it does not count. -/
def readTree? (s : String) : Option Tree := do
  let chars := match s.toList with
    | '\ufeff' :: r => r
    | r => r
  let d ← lines? (chars.length + 1) {} chars
  let entries ← d.close?
  some (tableTree (entryTrees entries))

end Runbooks.Toml
