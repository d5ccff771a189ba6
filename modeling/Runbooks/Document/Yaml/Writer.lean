import Runbooks.Document.Yaml.Scalar
import Runbooks.Document.Yaml.Value

/-!
The text of a YAML value in block style. Texts are written plain where they read back as texts,
in single quotes where they would not, as literal blocks where they hold line feeds, and in double
quotes where no other style can hold them.
-/

namespace Runbooks.Yaml.Writer

/-- The characters that need no escape. -/
def isPrintable (c : Char) : Bool :=
  let n := c.toNat
  n = 0x0A || (0x20 ≤ n && n ≤ 0x7E) || (0xA0 ≤ n && n ≤ 0xD7FF) ||
    (0xE000 ≤ n && n ≤ 0xFFFD && n ≠ 0xFEFF) || 0x10000 ≤ n

/-- Whether a place holds white space, a line break or the end. -/
def isGap (c : Option Char) : Bool :=
  match c with
  | none => true
  | some c => isSpaceOrTab c || isBreak c

/-- Characters that no plain text starts with. -/
def isFirstIndicator (c : Char) : Bool :=
  ['#', ',', '[', ']', '\x7b', '\x7d', '&', '*', '!', '|', '>', '\'', '"', '%', '@',
    '\x60'].contains c

/-- Whether some character after the first is an indicator where it stands. -/
def hasInnerIndicator : Char → List Char → Bool
  | _, [] => false
  | before, c :: rest =>
    (c = ':' && isGap rest.head?) || (c = '#' && isGap (some before)) || hasInnerIndicator c rest

/-- Whether a text, read as plain, would be taken for something else than a text. -/
def hasIndicator (s : List Char) : Bool :=
  match s with
  | [] => false
  | c :: rest =>
    s.take 3 = ['-', '-', '-'] || s.take 3 = ['.', '.', '.'] || isFirstIndicator c ||
      ((c = '?' || c = ':' || c = '-') && isGap rest.head?) || hasInnerIndicator c rest

/-- Whether two characters of two kinds stand side by side. -/
def hasPair (p q : Char → Bool) : List Char → Bool
  | a :: b :: rest => (p a && q b) || hasPair p q (b :: rest)
  | _ => false

def isSpace (c : Char) : Bool := c = ' '

def isMultiline (s : List Char) : Bool :=
  s.any isBreak

/-- A space before a line break, or a character that needs an escape: only double quotes do. -/
def needsEscapes (s : List Char) : Bool :=
  s.any (!isPrintable ·) || hasPair isSpace isBreak s

def allowsSingle (s : List Char) : Bool :=
  !needsEscapes s && !hasPair isBreak isSpace s

def endsWith (p : Char → Bool) (s : List Char) : Bool :=
  match s.getLast? with
  | some c => p c
  | none => false

def startsWith (p : Char → Bool) (s : List Char) : Bool :=
  match s.head? with
  | some c => p c
  | none => false

def allowsPlain (s : List Char) : Bool :=
  allowsSingle s && !isMultiline s && !startsWith isSpace s && !endsWith isSpace s &&
    !hasIndicator s

def allowsLiteral (s : List Char) : Bool :=
  !needsEscapes s && !endsWith isSpace s && !s.isEmpty

/-- Whether a text on its own line reads back as a text. -/
def readsAsText (s : String) : Bool :=
  match plainAtom? s with
  | some (.text _) => !hasLeadingZero s.toList
  | _ => false

/-- The style in which a text is written; keys stand on one line. -/
def textStyle (isKey : Bool) (s : String) : Style :=
  let cs := s.toList
  if cs.contains '\n' then
    if allowsLiteral cs && !isKey then .literal else .double
  else if readsAsText s && allowsPlain cs then .plain
  else if allowsSingle cs && !(isKey && isMultiline cs) then .single
  else .double

def spaces (n : Nat) : List Char :=
  List.replicate n ' '

/-- Indents what follows a line break. -/
def indented (width : Nat) (double : Char → List Char) : Bool → List Char → List Char
  | _, [] => []
  | atStart, c :: rest =>
    if isBreak c then c :: indented width double true rest
    else (if atStart then spaces width else []) ++ double c ++ indented width double false rest

def singleQuoted (width : Nat) (s : List Char) : List Char :=
  let body := indented width (fun c => if c = '\'' then ['\'', '\''] else [c]) false s
  '\'' :: (body ++ (if endsWith isBreak s then spaces width else []) ++ ['\''])

def escaped (c : Char) : List Char :=
  let n := c.toNat
  if n = 0x00 then ['\\', '0']
  else if n = 0x07 then ['\\', 'a']
  else if n = 0x08 then ['\\', 'b']
  else if n = 0x09 then ['\\', 't']
  else if n = 0x0A then ['\\', 'n']
  else if n = 0x0B then ['\\', 'v']
  else if n = 0x0C then ['\\', 'f']
  else if n = 0x0D then ['\\', 'r']
  else if n = 0x1B then ['\\', 'e']
  else if n = 0x22 then ['\\', '"']
  else if n = 0x5C then ['\\', '\\']
  else if n = 0x85 then ['\\', 'N']
  else if n = 0x2028 then ['\\', 'L']
  else if n = 0x2029 then ['\\', 'P']
  else if isPrintable c then [c]
  else if n ≤ 0xFF then '\\' :: 'x' :: hexDigits true 2 n
  else if n ≤ 0xFFFF then '\\' :: 'u' :: hexDigits true 4 n
  else '\\' :: 'U' :: hexDigits true 8 n

def doubleQuoted (s : List Char) : List Char :=
  '"' :: (s.flatMap escaped ++ ['"'])

/-- The marks of a literal block: the indentation where the text starts with white space, and
what becomes of the line breaks at its end. -/
def literalMarks (s : List Char) : List Char :=
  let width := if startsWith (fun c => isSpace c || isBreak c) s then ['2'] else []
  let ending :=
    if !endsWith isBreak s then ['-']
    else if s.length = 1 || endsWith isBreak s.dropLast then ['+']
    else []
  width ++ ending

def literal (width : Nat) (s : List Char) : List Char :=
  '|' :: (literalMarks s ++ '\n' :: indented width (fun c => [c]) true s)

/-- A text whose further lines are indented by `width`. -/
def textChars (width : Nat) (isKey : Bool) (s : String) : List Char :=
  let cs := s.toList
  match textStyle isKey s with
  | .plain => cs
  | .single => singleQuoted width cs
  | .literal => literal width cs
  | .double => doubleQuoted cs
  | .folded => doubleQuoted cs

def atomChars (width : Nat) (isKey : Bool) : Atom → List Char
  | .text s => textChars width isKey s
  | a => (Value.atomSpelling a).toList

def isTagChar (c : Char) : Bool :=
  isWordChar c || [';', '/', '?', ':', '@', '&', '=', '+', '$', ',', '.', '!', '~', '*', '\'', '(',
    ')', '[', ']'].contains c

/-- An octet of a tag as a percent escape. -/
def percent (o : UInt8) : List Char :=
  '%' :: hexDigits true 2 o.toNat

def tagChars (tag : String) : List Char :=
  tag.toList.flatMap fun c =>
    if isTagChar c then [c] else (String.singleton c).toUTF8.toList.flatMap percent

/-- What stands on the line before a node. -/
inductive Place where
  | nothing
  /-- The mark of an item, of a long key or of its value. -/
  | mark (ofItem : Bool)
  /-- A key with its colon. -/
  | key
  /-- A tag behind one of the others. -/
  | tag (place : Place)
  deriving DecidableEq, Repr

namespace Place

/-- What stands between the place and a node on the same line. -/
def lead : Place → List Char
  | nothing => []
  | _ => [' ']

/-- The indentation of a collection: a sequence behind a key stands as far left as the key. -/
def indent (isSequence : Bool) (parent : Option Nat) : Place → Nat
  | nothing => 0
  | mark _ => parent.elim 0 (· + 2)
  | key => if isSequence then parent.getD 0 else parent.elim 0 (· + 2)
  | tag (mark ofItem) =>
    if isSequence && !ofItem then parent.getD 0 else parent.elim 0 (· + 2)
  | tag p => indent isSequence parent p

/-- What stands between the place and the first entry of a collection. -/
def opening (width : Nat) : Place → List Char
  | nothing => []
  | mark _ => [' ']
  | _ => '\n' :: spaces width

end Place

/-- A line break unless the text ends in one. -/
def endLine (s : List Char) : List Char :=
  if endsWith isBreak s then [] else ['\n']

/-- Whether a key fits on one line with its value. -/
def isShortKey : Value → Bool
  | .scalar (.text s) => !isMultiline s.toList && s.utf8ByteSize ≤ 128
  | .scalar _ => true
  | .sequence items => items.isEmpty
  | .mapping entries => entries.isEmpty
  | .tagged tag (.scalar (.text s)) =>
    !isMultiline s.toList && tag.utf8ByteSize + s.utf8ByteSize ≤ 128
  | .tagged _ (.scalar _) => true
  | .tagged _ (.sequence items) => items.isEmpty
  | .tagged _ (.mapping entries) => entries.isEmpty
  | .tagged _ (.tagged _ _) => false

mutual

/-- A node at its place, within a collection that is indented by `parent`. -/
def node (parent : Option Nat) (isKey : Bool) (place : Place) : Value → List Char
  | .scalar a => place.lead ++ atomChars (parent.elim 2 (· + 2)) isKey a
  | .sequence items =>
    if items.isEmpty then place.lead ++ ['[', ']']
    else
      let width := place.indent true parent
      place.opening width ++ itemLines width items
  | .mapping entries =>
    if entries.isEmpty then place.lead ++ ['\x7b', '\x7d']
    else
      let width := place.indent false parent
      place.opening width ++ entryLines width entries
  | .tagged tag v => place.lead ++ tagChars tag ++ node parent isKey (.tag place) v

/-- The items of a sequence, the first one without its indentation. -/
def itemLines (width : Nat) : List Value → List Char
  | [] => []
  | v :: rest =>
    let line := '-' :: node (some width) false (.mark true) v
    if rest.isEmpty then line
    else line ++ endLine line ++ spaces width ++ itemLines width rest

/-- The entries of a mapping, the first one without its indentation. -/
def entryLines (width : Nat) : List (Value × Value) → List Char
  | [] => []
  | (k, v) :: rest =>
    let line :=
      if isShortKey k then
        node (some width) true .nothing k ++ ':' :: node (some width) false .key v
      else
        let key := '?' :: node (some width) false (.mark false) k
        key ++ endLine key ++ spaces width ++ ':' :: node (some width) false (.mark false) v
    if rest.isEmpty then line
    else line ++ endLine line ++ spaces width ++ entryLines width rest

end

end Runbooks.Yaml.Writer

namespace Runbooks.Yaml

/-- The document of a value. -/
def Value.write (v : Value) : String :=
  let cs := Writer.node none false .nothing v
  String.ofList (cs ++ Writer.endLine cs)

end Runbooks.Yaml
