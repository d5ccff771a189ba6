namespace Runbooks

/-- The words of a line, each with the spaces behind it; spaces in front are a word of their own. -/
def words : List Char → List (List Char)
  | [] => []
  | c :: rest =>
    match words rest with
    | [] => [[c]]
    | w :: ws => if c = ' ' && w.head? ≠ some ' ' then [c] :: w :: ws else (c :: w) :: ws

/-- Without the spaces at the end. -/
def dropLastSpaces (s : List Char) : List Char :=
  (s.reverse.dropWhile (· = ' ')).reverse

/-- Lines of words, the first of which continues `line`. -/
def fillLines (width : Nat) (line : List Char) : List (List Char) → List (List Char)
  | [] => [dropLastSpaces line]
  | w :: rest =>
    if width < line.length + (dropLastSpaces w).length then
      dropLastSpaces line :: fillLines width w rest
    else fillLines width (line ++ w) rest

/-- The lines of a text without line breaks. -/
def wrapLine (width : Nat) (s : String) : List String :=
  match words s.toList with
  | [] => [""]
  | w :: rest => (fillLines width w rest).map String.ofList

/-- A text in lines of a width, of which all but the first are indented. -/
def wrapped (width indentation : Nat) (s : String) : String :=
  ("\n" ++ String.ofList (List.replicate indentation ' ')).intercalate
    ((s.splitOn "\n").flatMap (wrapLine width))

end Runbooks
