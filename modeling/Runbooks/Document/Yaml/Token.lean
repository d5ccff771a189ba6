import Runbooks.Document.Yaml.Text

/-!
The tokens of a YAML text. Indentation is made explicit by tokens that start and end blocks, and
the mark of a key is put in front of its first token once the colon behind it has been met.
-/

namespace Runbooks.Yaml

inductive Token where
  | version (major minor : Nat)
  | tagHandle (handle : String) (start : String)
  | documentStart
  | documentEnd
  | streamEnd
  | blockSequence
  | blockMapping
  | blockEnd
  | flowSequence
  | flowSequenceEnd
  | flowMapping
  | flowMappingEnd
  | blockEntry
  | flowEntry
  | key
  | value
  | alias (name : String)
  | anchor (name : String)
  | tag (handle suffix : String)
  | scalar (style : Style) (text : String)
  deriving DecidableEq, Repr

/-- A place where a key may have started: its number among the tokens, where it stands, and
whether the indentation asks for a key there. -/
structure Candidate where
  number : Nat
  required : Bool
  index : Nat
  line : Nat
  column : Nat

/-- The state of the reader: tokens so far (the last one first), open indentations, and for the
block context and each open bracket the place where a key may have started. -/
structure Lexer where
  cursor : Cursor
  tokens : List Token := []
  indent : Int := -1
  indents : List Int := []
  depth : Nat := 0
  candidate : Option Candidate := none
  outer : List (Option Candidate) := []
  keyAllowed : Bool := true
  finished : Bool := false

namespace Lexer

def emit (t : Token) (l : Lexer) : Lexer :=
  { l with tokens := t :: l.tokens }

/-- Puts a token in front of the one with the given number. -/
def insertAt (number : Nat) (t : Token) (l : Lexer) : Lexer :=
  { l with tokens := l.tokens.insertIdx (l.tokens.length - number) t }

/-- Closes the blocks that are indented further than a column. -/
def unroll (column : Int) (l : Lexer) : Lexer :=
  if l.depth > 0 then l
  else
    let rec close : List Int → Int → List Token → List Int × Int × List Token
      | [], indent, tokens => ([], indent, tokens)
      | outer :: rest, indent, tokens =>
        if indent > column then close rest outer (.blockEnd :: tokens)
        else (outer :: rest, indent, tokens)
    let (indents, indent, tokens) := close l.indents l.indent l.tokens
    { l with indents, indent, tokens }

/-- Opens a block at a column unless one is open there. -/
def roll (column : Nat) (number : Option Nat) (t : Token) (l : Lexer) : Lexer :=
  if l.depth > 0 || (column : Int) ≤ l.indent then l
  else
    let l := { l with indents := l.indent :: l.indents, indent := column }
    match number with
    | some n => l.insertAt n t
    | none => l.emit t

/-- Gives up the place where a key may have started. -/
def dropCandidate? (l : Lexer) : Option Lexer :=
  match l.candidate with
  | some k => if k.required then none else some { l with candidate := none }
  | none => some l

/-- Remembers the next token as one that may start a key. -/
def saveCandidate? (l : Lexer) : Option Lexer := do
  if l.keyAllowed then
    let c := l.cursor
    let required := l.depth = 0 && l.indent = (c.column : Int)
    let l ← l.dropCandidate?
    some { l with candidate := some ⟨l.tokens.length, required, c.index, c.line, c.column⟩ }
  else some l

/-- A key stands on one line and is shorter than 1024 characters; a place that is too old is
given up. -/
def expire? (c : Cursor) (k : Option Candidate) : Option (Option Candidate) :=
  match k with
  | none => some none
  | some k =>
    if k.line < c.line ∨ k.index + 1024 < c.index then
      if k.required then none else some none
    else some (some k)

def expireAll? (l : Lexer) : Option Lexer := do
  let candidate ← expire? l.cursor l.candidate
  let outer ← l.outer.mapM (expire? l.cursor)
  some { l with candidate, outer }

/-- Past white space, comments and line breaks up to the next token. -/
def toNext : Nat → Lexer → Lexer
  | 0, l => l
  | fuel + 1, l =>
    let c := l.cursor
    let c := if c.column = 0 && c.isAt '\ufeff' then c.skip else c
    let tabs := l.depth > 0 || !l.keyAllowed
    let c := (c.takeWhile fun x => x = ' ' || (tabs && x = '\t')).2
    let c := if c.isAt '#' then c.skipToLineEnd else c
    if c.atBreak then
      toNext fuel { l with cursor := c.skipBreak, keyAllowed := l.keyAllowed || l.depth = 0 }
    else { l with cursor := c }

def skip (l : Lexer) : Lexer :=
  { l with cursor := l.cursor.skip }

/-- The end of all blocks and keys, as before a document mark. -/
def settle? (l : Lexer) : Option Lexer := do
  let l ← (l.unroll (-1)).dropCandidate?
  some { l with keyAllowed := false }

/-- A percent escape in a tag: the octets of one character. -/
def escapedChar? (c : Cursor) : Option (Char × Cursor) :=
  let octet? (c : Cursor) : Option (Nat × Cursor) :=
    match c.rest with
    | '%' :: a :: b :: _ => (readNat? 16 [a, b]).map (·, c.skipMany 3)
    | _ => none
  let rec more : Nat → Nat → Cursor → Option (Nat × Cursor)
    | 0, n, c => some (n, c)
    | k + 1, n, c => do
      let (o, c) ← match c.rest with
        | '%' :: a :: b :: _ => (readNat? 16 [a, b]).map (·, c.skipMany 3)
        | _ => none
      if o / 64 = 2 then more k (n * 64 + o % 64) c else none
  do
    let (o, c) ← octet? c
    let (k, n) ←
      if o < 0x80 then some (0, o)
      else if o / 32 = 6 then some (1, o % 32)
      else if o / 16 = 14 then some (2, o % 16)
      else if o / 8 = 30 then some (3, o % 8)
      else none
    let (n, c) ← more k n c
    if h : n.isValidChar then some (Char.ofNatAux n h, c) else none

def isTagChar (verbatim : Bool) (x : Char) : Bool :=
  isWordChar x || [';', '/', '?', ':', '@', '&', '=', '+', '$', '.', '%', '!', '~', '*', '\'',
    '(', ')'].contains x || (verbatim && [',', '[', ']'].contains x)

/-- The characters of a tag, escapes resolved. -/
def tagText? (verbatim : Bool) : Nat → List Char → Cursor → Option (List Char × Cursor)
  | 0, _, _ => none
  | fuel + 1, acc, c =>
    match c.peek? with
    | none => some (acc.reverse, c)
    | some x =>
      if x = '%' then do
        let (d, c) ← escapedChar? c
        tagText? verbatim fuel (d :: acc) c
      else if isTagChar verbatim x then tagText? verbatim fuel (x :: acc) c.skip
      else some (acc.reverse, c)

def fullTagText? (verbatim : Bool) (c : Cursor) : Option (List Char × Cursor) := do
  let (text, c) ← tagText? verbatim (c.rest.length + 1) [] c
  if text.isEmpty then none else some (text, c)

/-- An exclamation mark, a word and, for a full handle, another mark. -/
def handle (c : Cursor) : List Char × Bool × Cursor :=
  let (word, next) := c.skip.takeWhile isWordChar
  if next.isAt '!' then ('!' :: (word ++ ['!']), true, next.skip) else ('!' :: word, false, next)

/-- A tag: in angle brackets, with a handle, or as the bare text after an exclamation mark. -/
def tag? (c : Cursor) : Option (Token × Cursor) :=
  if c.second? = some '<' then do
    let (text, c) ← fullTagText? true (c.skipMany 2)
    if c.isAt '>' then some (.tag "" (String.ofList text), c.skip) else none
  else do
    let (h, full, next) := handle c
    if full then
      let (text, next) ← fullTagText? false next
      some (.tag (String.ofList h) (String.ofList text), next)
    else
      let (text, next) ← tagText? false (next.rest.length + 1) [] next
      let text := h.drop 1 ++ text
      if text.isEmpty then some (.tag "" "!", next)
      else some (.tag "!" (String.ofList text), next)

def directive? (c : Cursor) : Option (Token × Cursor) := do
  let (word, c) := c.skip.takeWhile isWordChar
  if !c.atWordEnd then none
  let number? (c : Cursor) : Option (Nat × Cursor) := do
    let (ds, c) := c.takeWhile isDigit
    if ds.length > 9 then none
    (← readNat? 10 ds, c)
  if word = "YAML".toList then
    let (major, c) ← number? c.skipBlanks
    if !c.isAt '.' then none
    let (minor, c) ← number? c.skip
    some (.version major minor, ← c.skipLineRest?)
  else if word = "TAG".toList then
    let c := c.skipBlanks
    if !c.isAt '!' then none
    let (h, full, c) := handle c
    if !full && h.length > 1 then none
    if !c.atBlank then none
    let (text, c) ← fullTagText? true c.skipBlanks
    if !c.atWordEnd then none
    some (.tagHandle (String.ofList h) (String.ofList text), ← c.skipLineRest?)
  else none

/-- The name after an anchor or alias mark. -/
def name? (c : Cursor) : Option (String × Cursor) :=
  let (word, c) := c.skip.takeWhile isWordChar
  let ended := match c.peek? with
    | none => true
    | some x => isSpaceOrTab x || isBreak x ||
      ['?', ':', ',', ']', '\x7d', '%', '@', '\x60'].contains x
  if word.isEmpty || !ended then none else some (String.ofList word, c)

def openFlow? (t : Token) (l : Lexer) : Option Lexer := do
  let l ← l.saveCandidate?
  some { l.skip.emit t with
    outer := l.candidate :: l.outer, candidate := none, depth := l.depth + 1, keyAllowed := true }

def closeFlow? (t : Token) (l : Lexer) : Option Lexer := do
  let l ← l.dropCandidate?
  let l := { l.skip.emit t with keyAllowed := false }
  match l.outer with
  | k :: outer => some { l with candidate := k, outer, depth := l.depth - 1 }
  | [] => some l

/-- The mark of an entry or of a key, which opens a block where none is open. -/
def blockMark? (block mark : Token) (allowed : Bool) (l : Lexer) : Option Lexer := do
  let l ← if l.depth > 0 then some l
    else if l.keyAllowed then some (l.roll l.cursor.column none block)
    else none
  let l ← l.dropCandidate?
  some { l.skip.emit mark with keyAllowed := allowed }

/-- A colon: what stands before it becomes a key. -/
def valueMark? (l : Lexer) : Option Lexer :=
  match l.candidate with
  | some k =>
    let l := (l.insertAt k.number .key).roll k.column (some k.number) .blockMapping
    some { l.skip.emit .value with candidate := none, keyAllowed := false }
  | none => do
    let l ← if l.depth > 0 then some l
      else if l.keyAllowed then some (l.roll l.cursor.column none .blockMapping)
      else none
    some { l.skip.emit .value with keyAllowed := l.depth = 0 }

def takeScalar? (single : Bool) (l : Lexer) : Option Lexer := do
  let l ← l.saveCandidate?
  let (text, c) ← quoted? single l.cursor.skip
  let style := if single then Style.single else Style.double
  some { l.emit (.scalar style (String.ofList text)) with cursor := c, keyAllowed := false }

def takeBlock? (literal : Bool) (l : Lexer) : Option Lexer := do
  let l ← l.dropCandidate?
  let (text, c) ← block? literal l.indent l.cursor.skip
  let style := if literal then Style.literal else Style.folded
  some { l.emit (.scalar style (String.ofList text)) with cursor := c, keyAllowed := true }

def takePlain? (l : Lexer) : Option Lexer := do
  let l ← l.saveCandidate?
  let (text, c, broken) ← plain? (l.depth > 0) (l.indent + 1) l.cursor
  some { l.emit (.scalar .plain (String.ofList text)) with cursor := c, keyAllowed := broken }

def takeTag? (l : Lexer) : Option Lexer := do
  let l ← l.saveCandidate?
  let (t, c) ← tag? l.cursor
  if c.atWordEnd || (l.depth > 0 && c.isAt ',') then
    some { l.emit t with cursor := c, keyAllowed := false }
  else none

def takeName? (make : String → Token) (l : Lexer) : Option Lexer := do
  let l ← l.saveCandidate?
  let (name, c) ← name? l.cursor
  some { l.emit (make name) with cursor := c, keyAllowed := false }

/-- The characters that no plain scalar starts with. -/
def isIndicator (x : Char) : Bool :=
  ['-', '?', ':', ',', '[', ']', '\x7b', '\x7d', '#', '&', '*', '!', '|', '>', '\'', '"', '%',
    '@', '\x60'].contains x

/-- Reads the next token. -/
def step? (l : Lexer) : Option Lexer := do
  let l ← (l.toNext (l.cursor.rest.length + 1)).expireAll?
  let l := l.unroll l.cursor.column
  let c := l.cursor
  let flow := l.depth > 0
  match c.peek? with
  | none =>
    let l ← l.settle?
    some { l.emit .streamEnd with finished := true }
  | some x =>
    let alone := Cursor.endsWord c.second?
    if c.column = 0 && x = '%' then
      let l ← l.settle?
      let (t, c) ← directive? l.cursor
      some { l.emit t with cursor := c }
    else if c.atMarker '-' then
      let l ← l.settle?
      some { l.emit .documentStart with cursor := c.skipMany 3 }
    else if c.atMarker '.' then
      let l ← l.settle?
      some { l.emit .documentEnd with cursor := c.skipMany 3 }
    else if x = '[' then l.openFlow? .flowSequence
    else if x = '\x7b' then l.openFlow? .flowMapping
    else if x = ']' then l.closeFlow? .flowSequenceEnd
    else if x = '\x7d' then l.closeFlow? .flowMappingEnd
    else if x = ',' then
      let l ← l.dropCandidate?
      some { l.skip.emit .flowEntry with keyAllowed := true }
    else if x = '-' && alone then l.blockMark? .blockSequence .blockEntry true
    else if x = '?' && (flow || alone) then l.blockMark? .blockMapping .key (!flow)
    else if x = ':' && (flow || alone) then l.valueMark?
    else if x = '*' then l.takeName? .alias
    else if x = '&' then l.takeName? .anchor
    else if x = '!' then l.takeTag?
    else if x = '|' && !flow then l.takeBlock? true
    else if x = '>' && !flow then l.takeBlock? false
    else if x = '\'' then l.takeScalar? true
    else if x = '"' then l.takeScalar? false
    else
      let blankNext := match c.second? with
        | some y => isSpaceOrTab y
        | none => false
      if !(isSpaceOrTab x || isIndicator x) || (x = '-' && !blankNext) ||
          (!flow && (x = '?' || x = ':') && !alone) then l.takePlain?
      else none

/-- Reads token after token up to the end. -/
def run? : Nat → Lexer → Option (List Token)
  | 0, _ => none
  | fuel + 1, l =>
    if l.finished then some l.tokens.reverse
    else match l.step? with
      | some l => run? fuel l
      | none => none

end Lexer

/-- The tokens of a text. -/
def tokens? (s : String) : Option (List Token) :=
  let chars := s.toList
  if chars.all isAllowed then Lexer.run? (chars.length + 3) { cursor := { rest := chars } }
  else none

end Runbooks.Yaml
