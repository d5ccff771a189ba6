import Runbooks.Document.Yaml.Cursor

namespace Runbooks.Yaml

inductive Style where
  | plain
  | single
  | double
  | literal
  | folded
  deriving DecidableEq, Repr

/-- White space between two parts of a scalar: on one line, or with line breaks. -/
inductive Gap where
  | spaces (chars : List Char)
  | breaks (first : List Char) (more : List Char)

namespace Gap

def empty : Gap := spaces []

/-- A single line break counts for a space, the first of several for nothing. -/
def folded : Gap → List Char
  | spaces chars => chars
  | breaks first more =>
    if first.head? = some '\n' then if more.isEmpty then [' '] else more else first ++ more

def hasBreak : Gap → Bool
  | spaces _ => false
  | breaks _ _ => true

end Gap

/-- Collects white space up to the next part of a scalar. A tab may not stand for indentation,
which is `floor` columns where it matters. -/
def gap? (floor : Option Int) : Nat → Gap → Cursor → Option (Gap × Cursor)
  | 0, _, _ => none
  | fuel + 1, g, c =>
    if c.atBlank then
      match g with
      | .spaces chars => gap? floor fuel (.spaces (chars ++ (c.takeWhile isSpaceOrTab).1)) c.skipBlanks
      | .breaks _ _ =>
        match floor with
        | some least =>
          if (c.column : Int) < least ∧ c.isAt '\t' then none else gap? floor fuel g c.skip
        | none => gap? floor fuel g c.skip
    else if c.atBreak then
      let (text, next) := c.takeBreak
      match g with
      | .spaces _ => gap? floor fuel (.breaks text []) next
      | .breaks first more => gap? floor fuel (.breaks first (more ++ text)) next
    else some (g, c)

/-- The characters that end a plain scalar inside brackets and braces. -/
def isFlowMark (x : Char) : Bool :=
  x = ',' || x = '[' || x = ']' || x = '\x7b' || x = '\x7d'

/-- A run of a plain scalar up to white space or an indicator; a colon before a bracket is
refused. -/
def plainRun? (flow : Bool) : Nat → List Char → Cursor → Option (List Char × Cursor)
  | 0, _, _ => none
  | fuel + 1, acc, c =>
    match c.rest with
    | [] => some (acc.reverse, c)
    | x :: after =>
      if isSpaceOrTab x || isBreak x then some (acc.reverse, c)
      else
        let next := after.head?
        if flow && x = ':' && (match next with
            | some y => isFlowMark y || y = '?'
            | none => false) then none
        else if (x = ':' && Cursor.endsWord next) || (flow && isFlowMark x) then
          some (acc.reverse, c)
        else plainRun? flow fuel (x :: acc) c.skip

/-- The parts of a plain scalar that is indented by at least `floor` columns outside brackets.
The last component says whether line breaks were read after the last part. -/
def plainParts? (flow : Bool) (floor : Int) :
    Nat → List Char → Gap → Cursor → Option (List Char × Cursor × Bool)
  | 0, _, _, _ => none
  | fuel + 1, acc, g, c =>
    if c.atDocumentMarker || c.isAt '#' then some (acc, c, g.hasBreak)
    else do
      let (run, c) ← plainRun? flow (c.rest.length + 1) [] c
      let (acc, g) := if run.isEmpty then (acc, g) else (acc ++ g.folded ++ run, Gap.empty)
      if c.atBlank || c.atBreak then
        let (g, c) ← gap? (some floor) (c.rest.length + 1) g c
        if !flow && (c.column : Int) < floor then some (acc, c, g.hasBreak)
        else plainParts? flow floor fuel acc g c
      else some (acc, c, g.hasBreak)

def plain? (flow : Bool) (floor : Int) (c : Cursor) : Option (List Char × Cursor × Bool) :=
  plainParts? flow floor (c.rest.length + 1) [] Gap.empty c

/-- The character of a code point written in `width` hexadecimal digits. -/
def codePoint? (width : Nat) (c : Cursor) : Option (Char × Cursor) := do
  let digits := c.rest.take width
  if digits.length ≠ width then none
  let n ← readNat? 16 digits
  if h : n.isValidChar then some (Char.ofNatAux n h, c.skipMany width) else none

/-- The character of an escape in double quotes, the backslash being read. -/
def escape? (c : Cursor) : Option (Char × Cursor) := do
  let x ← c.peek?
  let next := c.skip
  if x = '0' then some ('\x00', next)
  else if x = 'a' then some ('\x07', next)
  else if x = 'b' then some ('\x08', next)
  else if x = 't' ∨ x = '\t' then some ('\t', next)
  else if x = 'n' then some ('\n', next)
  else if x = 'v' then some ('\x0b', next)
  else if x = 'f' then some ('\x0c', next)
  else if x = 'r' then some ('\r', next)
  else if x = 'e' then some ('\x1b', next)
  else if x = ' ' ∨ x = '"' ∨ x = '/' ∨ x = '\\' then some (x, next)
  else if x = 'N' then some ('\u0085', next)
  else if x = '_' then some ('\u00a0', next)
  else if x = 'L' then some ('\u2028', next)
  else if x = 'P' then some ('\u2029', next)
  else if x = 'x' then codePoint? 2 next
  else if x = 'u' then codePoint? 4 next
  else if x = 'U' then codePoint? 8 next
  else none

/-- A run of a quoted scalar up to white space or the closing quote. The last component says
whether an escaped line break ended it. -/
def quotedRun? (single : Bool) : Nat → List Char → Cursor → Option (List Char × Cursor × Bool)
  | 0, _, _ => none
  | fuel + 1, acc, c =>
    match c.rest with
    | [] => some (acc.reverse, c, false)
    | x :: after =>
      if isSpaceOrTab x || isBreak x then some (acc.reverse, c, false)
      else if single then
        if x = '\'' then
          if after.head? = some '\'' then quotedRun? single fuel ('\'' :: acc) (c.skipMany 2)
          else some (acc.reverse, c, false)
        else quotedRun? single fuel (x :: acc) c.skip
      else if x = '"' then some (acc.reverse, c, false)
      else if x = '\\' then
        if c.skip.atBreak then some (acc.reverse, c.skip.skipBreak, true)
        else do
          let (d, c) ← escape? c.skip
          quotedRun? single fuel (d :: acc) c
      else quotedRun? single fuel (x :: acc) c.skip

/-- The rest of a quoted scalar and the place after its closing quote. -/
def quotedParts? (single : Bool) : Nat → List Char → Cursor → Option (List Char × Cursor)
  | 0, _, _ => none
  | fuel + 1, acc, c =>
    if c.atDocumentMarker || c.rest.isEmpty then none
    else do
      let (run, c, escaped) ← quotedRun? single (c.rest.length + 1) [] c
      let acc := acc ++ run
      if c.isAt (if single then '\'' else '"') then some (acc, c.skip)
      else
        let start := if escaped then Gap.breaks [] [] else Gap.empty
        let (g, c) ← gap? none (c.rest.length + 1) start c
        quotedParts? single fuel (acc ++ g.folded) c

/-- A quoted scalar, the opening quote being read. -/
def quoted? (single : Bool) (c : Cursor) : Option (List Char × Cursor) :=
  quotedParts? single (c.rest.length + 1) [] c

/-- What happens to the line breaks at the end of a block. -/
inductive Chomping where
  | strip
  | clip
  | keep
  deriving DecidableEq, Repr

/-- The marks after the indicator of a block, in either order: an indentation of one to nine, and
what to do at the end. -/
def blockHeader? (c : Cursor) : Option (Chomping × Nat × Cursor) :=
  let chomping? (c : Cursor) : Option Chomping :=
    if c.isAt '+' then some .keep else if c.isAt '-' then some .strip else none
  let width? (c : Cursor) : Option Nat :=
    match c.peek? with
    | some x => if isDigit x then some (x.toNat - '0'.toNat) else none
    | none => none
  let withWidth (c : Cursor) (k : Nat → Cursor → Option (Chomping × Nat × Cursor)) :=
    match width? c with
    | some 0 => none
    | some n => k n c.skip
    | none => k 0 c
  match chomping? c with
  | some m => withWidth c.skip fun n c => some (m, n, c)
  | none => withWidth c fun n c =>
    if n = 0 then some (.clip, 0, c)
    else match chomping? c with
      | some m => some (m, n, c.skip)
      | none => some (.clip, n, c)

/-- Indentation and empty lines in front of the next line of a block. With no indentation known
yet it is the widest met, and at least `least`. -/
def blockBreaks? (least : Int) :
    Nat → Option Int → Int → List Char → Cursor → Option (Int × List Char × Cursor)
  | 0, _, _, _, _ => none
  | fuel + 1, indent, widest, acc, c =>
    let lacks (c : Cursor) : Bool := match indent with
      | none => true
      | some n => (c.column : Int) < n
    if lacks c && c.isAt ' ' then blockBreaks? least fuel indent widest acc c.skip
    else
      let widest := max widest c.column
      if lacks c && c.isAt '\t' then none
      else if c.atBreak then
        let (text, next) := c.takeBreak
        blockBreaks? least fuel indent widest (acc ++ text) next
      else some (indent.getD (max (max widest least) 1), acc, c)

/-- The lines of a block. `lead` is the line break before the present line, `trail` the empty
lines after it. -/
def blockLines? (literal : Bool) (indent : Int) :
    Nat → List Char → List Char → List Char → Bool → Cursor →
      Option (List Char × List Char × List Char × Cursor)
  | 0, _, _, _, _, _ => none
  | fuel + 1, acc, lead, trail, leadBlank, c =>
    if (c.column : Int) = indent && !c.rest.isEmpty then do
      let blank := c.atBlank
      let joined :=
        if !literal && lead.head? = some '\n' && !leadBlank && !blank then
          if trail.isEmpty then [' '] else trail
        else lead ++ trail
      let (line, c) := c.takeWhile (!isBreak ·)
      let (lead, c) := c.takeBreak
      let (_, trail, c) ← blockBreaks? 0 (c.rest.length + 1) (some indent) 0 [] c
      blockLines? literal indent fuel (acc ++ joined ++ line) lead trail blank c
    else some (acc, lead, trail, c)

/-- A block scalar, the indicator being read; `parent` is the indentation it hangs from. -/
def block? (literal : Bool) (parent : Int) (c : Cursor) : Option (List Char × Cursor) := do
  let (chomping, width, c) ← blockHeader? c
  let c ← c.skipLineRest?
  let known : Option Int :=
    if width = 0 then none else some (if parent ≥ 0 then parent + width else width)
  let (indent, trail, c) ← blockBreaks? (parent + 1) (c.rest.length + 1) known 0 [] c
  let (text, lead, trail, c) ← blockLines? literal indent (c.rest.length + 1) [] [] trail false c
  let ending := match chomping with
    | .strip => []
    | .clip => lead
    | .keep => lead ++ trail
  some (text ++ ending, c)

end Runbooks.Yaml
