import Runbooks.Document.Tree

namespace Runbooks

/-- A JSON value whose numbers are whole. -/
inductive Json where
  | null
  | bool (value : Bool)
  | number (value : Int)
  | string (value : String)
  | array (items : List Json)
  | object (members : List (String × Json))
  deriving Repr

namespace Json

/-- What an optional value is written as. -/
def ofOption {α : Type} (f : α → Json) : Option α → Json
  | none => .null
  | some a => f a

def texts (items : List String) : Json :=
  .array (items.map .string)

/-- Quotes, backslashes and control characters are escaped, everything else stands as it is. -/
def escapeChar (c : Char) : List Char :=
  if c = '"' then ['\\', '"']
  else if c = '\\' then ['\\', '\\']
  else if c = '\n' then ['\\', 'n']
  else if c = '\r' then ['\\', 'r']
  else if c = '\t' then ['\\', 't']
  else if c = '\x08' then ['\\', 'b']
  else if c = '\x0c' then ['\\', 'f']
  else if c.toNat < 0x20 then '\\' :: 'u' :: hexDigits false 4 c.toNat
  else [c]

def quoted (s : String) : List Char :=
  '"' :: (s.toList.flatMap escapeChar ++ ['"'])

mutual

/-- The compact text of a value. -/
def render : Json → List Char
  | .null => ['n', 'u', 'l', 'l']
  | .bool true => ['t', 'r', 'u', 'e']
  | .bool false => ['f', 'a', 'l', 's', 'e']
  | .number n => (decimalText n).toList
  | .string s => quoted s
  | .array items => '[' :: (renderItems items ++ [']'])
  | .object members => '\x7b' :: (renderMembers members ++ ['\x7d'])

def renderItems : List Json → List Char
  | [] => []
  | [v] => render v
  | v :: w :: rest => render v ++ ',' :: renderItems (w :: rest)

def renderMembers : List (String × Json) → List Char
  | [] => []
  | [(k, v)] => quoted k ++ ':' :: render v
  | (k, v) :: m :: rest => quoted k ++ ':' :: (render v ++ ',' :: renderMembers (m :: rest))

end

/-- The compact text of a value. -/
def text (v : Json) : String :=
  String.ofList v.render

/-- Absent as an optional value, and of no other use. -/
def nullTree : Tree :=
  .leaf none { presence := .absent, atom? := some .null }

/-- Only numbers that are not negative can be counts. -/
def numberTree (n : Int) : Tree :=
  .leaf none { count? := if n < 0 then none else some n.toNat }

/-- A table whose one member is null names an alternative by its key. -/
def tableTree (entries : List (Tree × Tree)) : Tree :=
  let choice := match entries with
    | [(key, value)] => if value.presence = .absent then key.text? else none
    | _ => none
  .table none choice entries

mutual

/-- The tree that the text of a value denotes. -/
def tree : Json → Tree
  | .null => nullTree
  | .bool b => Tree.ofFlag b
  | .number n => numberTree n
  | .string s => Tree.ofText s
  | .array items => .list none .exact (itemTrees items)
  | .object members => tableTree (memberTrees members)

def itemTrees : List Json → List Tree
  | [] => []
  | v :: rest => tree v :: itemTrees rest

def memberTrees : List (String × Json) → List (Tree × Tree)
  | [] => []
  | (k, v) :: rest => (Tree.ofText k, tree v) :: memberTrees rest

end

end Json

end Runbooks
