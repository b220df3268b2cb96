/-!
The characters of a document and what may stand between its parts. A reader takes what is left of
the text and returns what it read with the rest, or `none`.
-/

namespace Deferral.Toml

abbrev Reader (α : Type) := List Char → Option (α × List Char)

def isBlank (c : Char) : Bool := c == ' ' || c == '\t'

/-- Tabs, printable ASCII and everything beyond ASCII may stand in comments and literal texts. -/
def isPlain (c : Char) : Bool := c == '\t' || (' ' ≤ c && c != '\x7f')

def skipBlanks (cs : List Char) : List Char := cs.dropWhile isBlank

/-- A line ends at a line feed, with or without a carriage return before it. -/
def newline : List Char → Option (List Char)
  | '\n' :: rest => some rest
  | '\r' :: '\n' :: rest => some rest
  | _ => none

def skipComment : List Char → List Char
  | '#' :: rest => rest.dropWhile isPlain
  | cs => cs

/-- The end of a line, with blanks and a comment before it. The end of the text ends a line too. -/
def lineEnd (cs : List Char) : Option (List Char) :=
  match skipComment (skipBlanks cs) with
  | [] => some []
  | rest => newline rest

private def skipLinesUpTo : Nat → List Char → List Char
  | 0, cs => cs
  | fuel + 1, cs =>
    let rest := skipBlanks cs
    match newline (skipComment rest) with
    | some next => skipLinesUpTo fuel next
    | none => rest

def skipLines (cs : List Char) : List Char := skipLinesUpTo cs.length cs

/-- Reads characters as long as `step` reads one; at most as many times as there are characters. -/
private def collectUpTo (step : Reader (List Char)) : Nat → List Char → List Char × List Char
  | 0, cs => ([], cs)
  | fuel + 1, cs =>
    match step cs with
    | some (read, rest) =>
      let (more, rest) := collectUpTo step fuel rest
      (read ++ more, rest)
    | none => ([], cs)

def collect (step : Reader (List Char)) (cs : List Char) : List Char × List Char :=
  collectUpTo step cs.length cs

def exactly (text : String) : Reader Unit := fun cs =>
  if text.toList.isPrefixOf cs then some ((), cs.drop text.length) else none

end Deferral.Toml
