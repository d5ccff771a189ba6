namespace Runbooks.Shell

/-- Characters that make `quote` put a text into quotes. -/
def isSpecial (c : Char) : Bool :=
  ['\n', '\'', '|', '&', ';', '<', '>', '(', ')', '$', '\x60', '\\', '"', ' ', '\t', '*', '?',
    '[', '#', '\u02dc', '=', '%'].contains c

/-- Inside single quotes a single quote is written by leaving the quotes for one escaped
character. -/
def escapeQuotes (s : List Char) : List Char :=
  s.flatMap fun c => if c = '\'' then ['\'', '\\', '\'', '\''] else [c]

/-- A text with none of the special characters stands for itself, any other goes into single
quotes. -/
def quoteChars (s : List Char) : List Char :=
  if s.isEmpty || s.any isSpecial then '\'' :: (escapeQuotes s ++ ['\'']) else s

/-- The text as one shell word. -/
def quote (s : String) : String :=
  String.ofList (quoteChars s.toList)

/-- The words on one line, each quoted where it has to be. -/
def join (words : List String) : String :=
  " ".intercalate (words.map quote)

/-- Where the cut stands: between two words, in a word, or inside one of its quotes. -/
inductive Position where
  | gap
  | gapEscape
  | word
  | wordEscape
  | single
  | double
  | doubleEscape
  | comment
  deriving DecidableEq, Repr

/-- Cuts a line at spaces, tabs and line breaks outside quotes. `acc` is the current word,
reversed. A quote that is never closed makes the line no list of words. -/
def splitFrom : Position → List Char → List Char → Option (List (List Char))
  | .gap, _, [] => some []
  | .gapEscape, acc, [] => some [('\\' :: acc).reverse]
  | .word, acc, [] => some [acc.reverse]
  | .wordEscape, acc, [] => some [('\\' :: acc).reverse]
  | .single, _, [] => none
  | .double, _, [] => none
  | .doubleEscape, _, [] => none
  | .comment, _, [] => some []
  | .gap, acc, c :: rest =>
    if c = '\'' then splitFrom .single acc rest
    else if c = '"' then splitFrom .double acc rest
    else if c = '\\' then splitFrom .gapEscape acc rest
    else if c = '\t' ∨ c = ' ' ∨ c = '\n' then splitFrom .gap acc rest
    else if c = '#' then splitFrom .comment acc rest
    else splitFrom .word (c :: acc) rest
  | .gapEscape, acc, c :: rest =>
    if c = '\n' then splitFrom .gap acc rest else splitFrom .word (c :: acc) rest
  | .word, acc, c :: rest =>
    if c = '\'' then splitFrom .single acc rest
    else if c = '"' then splitFrom .double acc rest
    else if c = '\\' then splitFrom .wordEscape acc rest
    else if c = '\t' ∨ c = ' ' ∨ c = '\n' then
      (splitFrom .gap [] rest).map (acc.reverse :: ·)
    else splitFrom .word (c :: acc) rest
  | .wordEscape, acc, c :: rest =>
    if c = '\n' then splitFrom .word acc rest else splitFrom .word (c :: acc) rest
  | .single, acc, c :: rest =>
    if c = '\'' then splitFrom .word acc rest else splitFrom .single (c :: acc) rest
  | .double, acc, c :: rest =>
    if c = '"' then splitFrom .word acc rest
    else if c = '\\' then splitFrom .doubleEscape acc rest
    else splitFrom .double (c :: acc) rest
  | .doubleEscape, acc, c :: rest =>
    if c = '\n' then splitFrom .double acc rest
    else if c = '$' ∨ c = '\x60' ∨ c = '"' ∨ c = '\\' then splitFrom .double (c :: acc) rest
    else splitFrom .double (c :: '\\' :: acc) rest
  | .comment, acc, c :: rest =>
    if c = '\n' then splitFrom .gap acc rest else splitFrom .comment acc rest

/-- The words of a line, or nothing when a quote is left open. -/
def split (line : String) : Option (List String) :=
  (splitFrom .gap [] line.toList).map (·.map String.ofList)

end Runbooks.Shell
