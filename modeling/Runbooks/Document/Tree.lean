import Runbooks.Text.Binary64

/-!
What a document says before anything is known about its meaning: a tree of tables, lists and
leaves. A leaf is described by how it may be read, so that readers of records need not know the
notation it was written in. Every notation delivers this tree.
-/

namespace Runbooks

/-- What a scalar is when nothing in particular is expected of it. -/
inductive Atom where
  | null
  | bool (value : Bool)
  | int (value : Int)
  | float (value : Binary64)
  | text (value : String)
  deriving DecidableEq, Repr

/-- What a node says about an optional value: it gives one, it stands for none, or it claims both
and cannot be read as either. -/
inductive Presence where
  | present
  | absent
  | contradictory
  deriving DecidableEq, Repr

/-- The readings that a scalar admits. -/
structure Leaf where
  /-- As a text. -/
  text? : Option String := none
  /-- As a truth value. -/
  flag? : Option Bool := none
  /-- As a count. -/
  count? : Option Nat := none
  /-- As the name of an alternative. -/
  choice? : Option String := none
  /-- With no expectation at all. -/
  atom? : Option Atom := none
  /-- As an optional value. -/
  presence : Presence := .present
  /-- It stands for a record without entries and for a list without items. -/
  hollow : Bool := false
  deriving DecidableEq, Repr

/-- Whether a list may also stand for a record, its items in the order of the fields. -/
inductive Row where
  | never
  /-- With no more items than there are fields. -/
  | exact
  /-- With any number of items, of which the surplus ones are passed over. -/
  | lenient
  deriving DecidableEq, Repr

/-- A document as a tree. An application tag is kept beside the node that carries it. -/
inductive Tree where
  | leaf (tag : Option String) (readings : Leaf)
  | list (tag : Option String) (row : Row) (items : List Tree)
  /-- A table; one that spells an alternative says which. -/
  | table (tag : Option String) (choice : Option String) (entries : List (Tree × Tree))
  /-- A node that the document names a second time. -/
  | alias (target : Tree)
  deriving Repr

namespace Tree

/-- A leaf that admits no reading. -/
def broken : Tree := leaf none {}

def ofText (s : String) : Tree :=
  leaf none { text? := some s, choice? := some s, atom? := some (.text s) }

def ofFlag (b : Bool) : Tree :=
  leaf none { flag? := some b, atom? := some (.bool b) }

def readings? : Tree → Option Leaf
  | leaf _ l => some l
  | list .. => none
  | table .. => none
  | .alias t => t.readings?

def text? (t : Tree) : Option String :=
  t.readings?.bind Leaf.text?

def flag? (t : Tree) : Option Bool :=
  t.readings?.bind Leaf.flag?

/-- As a count that fits in eight bits. -/
def byte? (t : Tree) : Option UInt8 := do
  let n ← t.readings?.bind Leaf.count?
  if n < 256 then some (UInt8.ofNat n) else none

/-- As the name of an alternative. -/
def choice? : Tree → Option String
  | leaf _ l => l.choice?
  | list .. => none
  | table _ choice _ => choice
  | .alias t => t.choice?

/-- As an optional value. -/
def presence (t : Tree) : Presence :=
  match t.readings? with
  | some l => l.presence
  | none => .present

/-- A node where a value may be absent. -/
def optional? {α : Type} (read : Tree → Option α) (t : Tree) : Option (Option α) :=
  match t.presence with
  | .present => (read t).map some
  | .absent => some none
  | .contradictory => none

/-- The items of a list. -/
def items? : Tree → Option (List Tree)
  | leaf _ l => if l.hollow then some [] else none
  | list _ _ items => some items
  | table .. => none
  | .alias t => t.items?

/-- A list of texts. -/
def texts? (t : Tree) : Option (List String) := do
  (← t.items?).mapM text?

end Tree

end Runbooks
