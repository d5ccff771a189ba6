import Runbooks.Document.Tree

namespace Runbooks.Yaml

inductive Value where
  | scalar (atom : Atom)
  | sequence (items : List Value)
  | mapping (entries : List (Value × Value))
  | tagged (tag : String) (value : Value)
  deriving Repr

namespace Value

def null : Value := scalar .null
def bool (b : Bool) : Value := scalar (.bool b)
def int (n : Int) : Value := scalar (.int n)
def text (s : String) : Value := scalar (.text s)

def sameAtom : Atom → Atom → Bool
  | .float a, .float b => a.same b
  | a, b => a = b

mutual

/-- Equality as keys have it: floats compare as numbers. -/
def same : Value → Value → Bool
  | .scalar a, .scalar b => sameAtom a b
  | .sequence as, .sequence bs => sameItems as bs
  | .mapping as, .mapping bs => sameEntries as bs
  | .tagged s a, .tagged t b => s = t && same a b
  | _, _ => false

def sameItems : List Value → List Value → Bool
  | [], [] => true
  | a :: as, b :: bs => same a b && sameItems as bs
  | _, _ => false

def sameEntries : List (Value × Value) → List (Value × Value) → Bool
  | [], [] => true
  | (k, v) :: as, (l, w) :: bs => same k l && same v w && sameEntries as bs
  | _, _ => false

end

def underTag (tag : Option String) (v : Value) : Value :=
  match tag with
  | some t => tagged t v
  | none => v

mutual

/-- The value of a tree, and how many aliases may still be followed after it. Nesting is limited
to `depth`. A `plain` value has no tags and may give a key twice; any other may not. -/
def read? (plain : Bool) : Nat → Nat → Tree → Option (Value × Nat)
  | _, left, .leaf tag l =>
    if plain && tag.isSome then none
    else l.atom?.map fun a => (underTag tag (.scalar a), left)
  | 0, _, .list _ _ _ => none
  | depth + 1, left, .list tag _ items =>
    if plain && tag.isSome then none
    else do
      let (vs, left) ← readItems? plain depth left items
      some (underTag tag (.sequence vs), left)
  | 0, _, .table _ _ _ => none
  | depth + 1, left, .table tag _ entries =>
    if plain && tag.isSome then none
    else do
      let (vs, left) ← readEntries? plain depth left [] entries
      some (underTag tag (.mapping vs), left)
  | _, 0, .alias _ => none
  | depth, left + 1, .alias t => read? plain depth left t

def readItems? (plain : Bool) : Nat → Nat → List Tree → Option (List Value × Nat)
  | _, left, [] => some ([], left)
  | depth, left, t :: rest => do
    let (v, left) ← read? plain depth left t
    let (vs, left) ← readItems? plain depth left rest
    some (v :: vs, left)

def readEntries? (plain : Bool) : Nat → Nat → List (Value × Value) → List (Tree × Tree) →
    Option (List (Value × Value) × Nat)
  | _, left, acc, [] => some (acc.reverse, left)
  | depth, left, acc, (k, v) :: rest => do
    let (k, left) ← read? plain depth left k
    if !plain && acc.any fun (l, _) => same k l then none
    let (v, left) ← read? plain depth left v
    readEntries? plain depth left ((k, v) :: acc) rest

end

/-- The readings that the written text of an atom has. -/
def atomLeaf (a : Atom) (spelling : String) : Leaf :=
  { text? := some spelling
    flag? := match a with
      | .bool b => some b
      | _ => none
    count? := match a with
      | .int n => if n < 0 then none else some n.toNat
      | _ => none
    choice? := some spelling
    atom? := some a
    presence := if a = .null then .absent else .present }

def atomSpelling : Atom → String
  | .null => "null"
  | .bool true => "true"
  | .bool false => "false"
  | .int n => decimalText n
  | .float x => x.text
  | .text s => s

mutual

/-- The tree that the written text of a value denotes. -/
def tree : Value → Tree
  | .scalar a => .leaf none (atomLeaf a (atomSpelling a))
  | .sequence items => .list none .never (trees items)
  | .mapping entries => .table none none (entryTrees entries)
  | .tagged tag v => retag tag (tree v)

def trees : List Value → List Tree
  | [] => []
  | v :: rest => tree v :: trees rest

def entryTrees : List (Value × Value) → List (Tree × Tree)
  | [] => []
  | (k, v) :: rest => (tree k, tree v) :: entryTrees rest

def retag (tag : String) : Tree → Tree
  | .leaf _ l => .leaf (some tag) l
  | .list _ row items => .list (some tag) row items
  | .table _ c entries => .table (some tag) c entries
  | .alias t => .alias t

end

end Value

end Runbooks.Yaml
