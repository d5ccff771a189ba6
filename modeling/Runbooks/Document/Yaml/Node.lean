import Runbooks.Document.Yaml.Token

/-!
The nodes of a YAML document, made from its tokens. Anchors are numbered by how many names were
known when they were met, and an alias keeps the number that its name had at that place.
-/

namespace Runbooks.Yaml

/-- A node with its tag and the number of its anchor. -/
inductive Node where
  | scalar (tag : Option String) (anchor : Option Nat) (style : Style) (text : String)
  | sequence (tag : Option String) (anchor : Option Nat) (items : List Node)
  | mapping (tag : Option String) (anchor : Option Nat) (entries : List (Node × Node))
  | alias (anchor : Nat)
  deriving Repr

namespace Node

/-- What is read while nodes are made: the tokens left, the tag handles of the document and the
numbers of the anchors so far. -/
structure Input where
  tokens : List Token
  handles : List (String × String) := []
  anchors : List (String × Nat) := []

namespace Input

def peek (i : Input) : Token := i.tokens.headD .streamEnd

def next (i : Input) : Input := { i with tokens := i.tokens.tail }

/-- A node that the text leaves out. -/
def absent (i : Input) : Node × Input := (.scalar none none .plain "", i)

end Input

/-- A full tag from its handle and suffix; the handle has to be known. -/
def fullTag? (handles : List (String × String)) (handle suffix : String) : Option String :=
  if handle = "" then some suffix else (handles.lookup handle).map (· ++ suffix)

/-- The tag and the anchor in front of a node, in either order. -/
def properties? (i : Input) : Option (Option String × Option String × Input) :=
  match i.peek with
  | .anchor name =>
    match i.next.peek with
    | .tag h s => (fullTag? i.handles h s).map fun t => (some t, some name, i.next.next)
    | _ => some (none, some name, i.next)
  | .tag h s => do
    let t ← fullTag? i.handles h s
    match i.next.peek with
    | .anchor name => some (some t, some name, i.next.next)
    | _ => some (some t, none, i.next)
  | _ => some (none, none, i)

/-- Gives an anchor its number. -/
def number (name : Option String) (i : Input) : Option Nat × Input :=
  match name with
  | none => (none, i)
  | some n =>
    let id := i.anchors.length
    (some id, { i with anchors := (n, id) :: i.anchors.filter (·.1 ≠ n) })

mutual

/-- A node. In a `block` it may be a block collection, and where `indentless` the entries of a
sequence may stand as far left as the key they belong to. -/
def read? : Nat → Bool → Bool → Input → Option (Node × Input)
  | 0, _, _, _ => none
  | fuel + 1, block, indentless, i =>
    match i.peek with
    | .alias name => (i.anchors.lookup name).map fun id => (.alias id, i.next)
    | _ => do
      let (tag, name, i) ← properties? i
      let bare := tag.isNone && name.isNone
      let (anchor, i) := number name i
      match i.peek with
      | .scalar style text =>
        let tag := if tag = some "!" then none else tag
        some (.scalar tag anchor style text, i.next)
      | .flowSequence => do
        let (items, i) ← flowItems? fuel true [] i.next
        some (.sequence tag anchor items, i)
      | .flowMapping => do
        let (entries, i) ← flowEntries? fuel true [] i.next
        some (.mapping tag anchor entries, i)
      | .blockEntry =>
        if indentless then do
          let (items, i) ← indentlessItems? fuel [] i
          some (.sequence tag anchor items, i)
        else if bare then none
        else some (.scalar tag anchor .plain "", i)
      | .blockSequence =>
        if block then do
          let (items, i) ← blockItems? fuel [] i.next
          some (.sequence tag anchor items, i)
        else if bare then none
        else some (.scalar tag anchor .plain "", i)
      | .blockMapping =>
        if block then do
          let (entries, i) ← blockEntries? fuel [] i.next
          some (.mapping tag anchor entries, i)
        else if bare then none
        else some (.scalar tag anchor .plain "", i)
      | _ => if bare then none else some (.scalar tag anchor .plain "", i)

/-- The items of a block sequence up to its end. -/
def blockItems? : Nat → List Node → Input → Option (List Node × Input)
  | 0, _, _ => none
  | fuel + 1, acc, i =>
    match i.peek with
    | .blockEntry => do
      let i := i.next
      let (n, i) ← match i.peek with
        | .blockEntry => some i.absent
        | .blockEnd => some i.absent
        | _ => read? fuel true false i
      blockItems? fuel (n :: acc) i
    | .blockEnd => some (acc.reverse, i.next)
    | _ => none

/-- The items of a sequence that is not indented; what follows them is left. -/
def indentlessItems? : Nat → List Node → Input → Option (List Node × Input)
  | 0, _, _ => none
  | fuel + 1, acc, i =>
    match i.peek with
    | .blockEntry => do
      let i := i.next
      let (n, i) ← match i.peek with
        | .blockEntry => some i.absent
        | .key => some i.absent
        | .value => some i.absent
        | .blockEnd => some i.absent
        | _ => read? fuel true false i
      indentlessItems? fuel (n :: acc) i
    | _ => some (acc.reverse, i)

/-- The entries of a block mapping up to its end. -/
def blockEntries? : Nat → List (Node × Node) → Input → Option (List (Node × Node) × Input)
  | 0, _, _ => none
  | fuel + 1, acc, i =>
    match i.peek with
    | .key => do
      let (k, i) ← blockPart? fuel i.next
      let (v, i) ← match i.peek with
        | .value => blockPart? fuel i.next
        | _ => some i.absent
      blockEntries? fuel ((k, v) :: acc) i
    | .blockEnd => some (acc.reverse, i.next)
    | _ => none

/-- A key or a value of a block mapping. -/
def blockPart? : Nat → Input → Option (Node × Input)
  | 0, _ => none
  | fuel + 1, i =>
    match i.peek with
    | .key => some i.absent
    | .value => some i.absent
    | .blockEnd => some i.absent
    | _ => read? fuel true true i

/-- The items in brackets; one that starts with a key mark is a mapping of one entry. -/
def flowItems? : Nat → Bool → List Node → Input → Option (List Node × Input)
  | 0, _, _, _ => none
  | fuel + 1, first, acc, i =>
    match i.peek with
    | .flowSequenceEnd => some (acc.reverse, i.next)
    | t => do
      let i ← if first then some i else if t = .flowEntry then some i.next else none
      match i.peek with
      | .flowSequenceEnd => some (acc.reverse, i.next)
      | .key => do
        let i := i.next
        let (k, i) ← match i.peek with
          | .value => some i.next.absent
          | .flowEntry => some i.next.absent
          | .flowSequenceEnd => some i.next.absent
          | _ => read? fuel false false i
        let (v, i) ← match i.peek with
          | .value =>
            match i.next.peek with
            | .flowEntry => some i.next.absent
            | .flowSequenceEnd => some i.next.absent
            | _ => read? fuel false false i.next
          | _ => some i.absent
        flowItems? fuel false (.mapping none none [(k, v)] :: acc) i
      | _ => do
        let (n, i) ← read? fuel false false i
        flowItems? fuel false (n :: acc) i

/-- The entries in braces. -/
def flowEntries? : Nat → Bool → List (Node × Node) → Input → Option (List (Node × Node) × Input)
  | 0, _, _, _ => none
  | fuel + 1, first, acc, i =>
    match i.peek with
    | .flowMappingEnd => some (acc.reverse, i.next)
    | t => do
      let i ← if first then some i else if t = .flowEntry then some i.next else none
      match i.peek with
      | .flowMappingEnd => some (acc.reverse, i.next)
      | .key => do
        let i := i.next
        let (k, i) ← match i.peek with
          | .value => some i.absent
          | .flowEntry => some i.absent
          | .flowMappingEnd => some i.absent
          | _ => read? fuel false false i
        let (v, i) ← match i.peek with
          | .value =>
            match i.next.peek with
            | .flowEntry => some i.next.absent
            | .flowMappingEnd => some i.next.absent
            | _ => read? fuel false false i.next
          | _ => some i.absent
        flowEntries? fuel false ((k, v) :: acc) i
      | _ => do
        let (k, i) ← read? fuel false false i
        flowEntries? fuel false ((k, i.absent.1) :: acc) i

end

/-- The directives in front of a document: one version at most, which has to be 1.1 or 1.2, and
handles that differ. -/
def directives? : Nat → Bool → List (String × String) → Input →
    Option (List (String × String) × Input)
  | 0, _, _, _ => none
  | fuel + 1, versioned, handles, i =>
    match i.peek with
    | .version major minor =>
      if versioned || major ≠ 1 || (minor ≠ 1 && minor ≠ 2) then none
      else directives? fuel true handles i.next
    | .tagHandle h start =>
      if (handles.lookup h).isSome then none
      else directives? fuel versioned ((h, start) :: handles) i.next
    | _ => some (handles, i)

def standardHandles : List (String × String) :=
  [("!", "!"), ("!!", "tag:yaml.org,2002:")]

/-- The content of a document that a mark starts; it may be left out. -/
def content? (fuel : Nat) (i : Input) : Option (Node × Input) :=
  match i.peek with
  | .version .. => some i.absent
  | .tagHandle .. => some i.absent
  | .documentStart => some i.absent
  | .documentEnd => some i.absent
  | .streamEnd => some i.absent
  | _ => read? fuel true false i

/-- The first document of a stream, if it holds any, with what follows it. -/
def document? (tokens : List Token) : Option (Option Node × Input) := do
  let fuel := 2 * tokens.length + 2
  let i : Input := { tokens }
  match i.peek with
  | .streamEnd => some (none, i)
  | .version .. | .tagHandle .. | .documentStart =>
    let (handles, i) ← directives? (tokens.length + 1) false [] i
    if i.peek ≠ .documentStart then none
    let (n, i) ← content? fuel { i.next with handles := handles ++ standardHandles }
    some (some n, i)
  | _ =>
    let (n, i) ← read? fuel true false { i with handles := standardHandles }
    some (some n, i)

def skipDocumentEnds : List Token → List Token
  | .documentEnd :: rest => skipDocumentEnds rest
  | rest => rest

/-- The one document of a text: nothing where the text is empty of nodes, and a failure where
there are several. -/
def ofText? (s : String) : Option (Option Node) := do
  let (n, i) ← document? (← tokens? s)
  if skipDocumentEnds i.tokens = [.streamEnd] then some n else none

end Node

end Runbooks.Yaml
