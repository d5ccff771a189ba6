import Runbooks.Text.Digits

namespace Runbooks.Yaml

/-- The characters that end a line. -/
def isBreak (c : Char) : Bool :=
  c = '\n' || c = '\r' || c = '\u0085' || c = '\u2028' || c = '\u2029'

def isSpaceOrTab (c : Char) : Bool :=
  c = ' ' || c = '\t'

/-- The characters of names: of anchors, of tag handles and of directives. -/
def isWordChar (c : Char) : Bool :=
  isDigit c || ('a' ≤ c && c ≤ 'z') || ('A' ≤ c && c ≤ 'Z') || c = '_' || c = '-'

/-- The characters that may occur in a document at all. -/
def isAllowed (c : Char) : Bool :=
  let n := c.toNat
  n = 0x09 || n = 0x0A || n = 0x0D || (0x20 ≤ n && n ≤ 0x7E) || n = 0x85 ||
    (0xA0 ≤ n && n ≤ 0xD7FF) || (0xE000 ≤ n && n ≤ 0xFFFD) || 0x10000 ≤ n

structure Cursor where
  rest : List Char
  index : Nat := 0
  line : Nat := 0
  column : Nat := 0

namespace Cursor

def peek? (c : Cursor) : Option Char :=
  c.rest.head?

def second? (c : Cursor) : Option Char :=
  c.rest.tail.head?

def isAt (c : Cursor) (x : Char) : Bool :=
  c.peek? = some x

/-- Whether a place holds a space, a tab, a line break or the end of the text. -/
def endsWord (next : Option Char) : Bool :=
  match next with
  | none => true
  | some x => isSpaceOrTab x || isBreak x

def atBreak (c : Cursor) : Bool :=
  match c.peek? with
  | none => false
  | some x => isBreak x

def atBlank (c : Cursor) : Bool :=
  match c.peek? with
  | none => false
  | some x => isSpaceOrTab x

def atLineEnd (c : Cursor) : Bool :=
  match c.peek? with
  | none => true
  | some x => isBreak x

def atWordEnd (c : Cursor) : Bool :=
  endsWord c.peek?

/-- Past one character of the line. -/
def skip (c : Cursor) : Cursor :=
  { c with rest := c.rest.tail, index := c.index + 1, column := c.column + 1 }

def skipMany (n : Nat) (c : Cursor) : Cursor :=
  { c with rest := c.rest.drop n, index := c.index + n, column := c.column + n }

/-- Past a line break, and the characters it counts for. -/
def takeBreak (c : Cursor) : List Char × Cursor :=
  match c.rest with
  | '\r' :: '\n' :: r => (['\n'], ⟨r, c.index + 2, c.line + 1, 0⟩)
  | x :: r =>
    if x = '\u2028' ∨ x = '\u2029' then ([x], ⟨r, c.index + 1, c.line + 1, 0⟩)
    else if isBreak x then (['\n'], ⟨r, c.index + 1, c.line + 1, 0⟩)
    else ([], c)
  | [] => ([], c)

def skipBreak (c : Cursor) : Cursor :=
  c.takeBreak.2

/-- The characters as long as they satisfy a condition, none of them a line break. -/
def takeWhile (p : Char → Bool) (c : Cursor) : List Char × Cursor :=
  let taken := c.rest.takeWhile p
  (taken, c.skipMany taken.length)

def skipBlanks (c : Cursor) : Cursor :=
  (c.takeWhile isSpaceOrTab).2

def skipToLineEnd (c : Cursor) : Cursor :=
  (c.takeWhile (!isBreak ·)).2

/-- Three times the same mark at the start of a line, on its own. -/
def atMarker (mark : Char) (c : Cursor) : Bool :=
  c.column = 0 && c.rest.take 3 = [mark, mark, mark] && endsWord (c.rest.drop 3).head?

def atDocumentMarker (c : Cursor) : Bool :=
  c.atMarker '-' || c.atMarker '.'

/-- Past white space and a comment that end a line, and past the line break. -/
def skipLineRest? (c : Cursor) : Option Cursor :=
  let c := c.skipBlanks
  let c := if c.isAt '#' then c.skipToLineEnd else c
  if c.atLineEnd then some c.skipBreak else none

end Cursor

end Runbooks.Yaml
