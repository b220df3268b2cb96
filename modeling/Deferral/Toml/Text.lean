import Deferral.Toml.Lexical

/-!
Texts: between single quotes as they are, between double quotes with escapes, and between three
quotes over several lines.
-/

namespace Deferral.Toml

private def hexValue (c : Char) : Option Nat :=
  if '0' ≤ c ∧ c ≤ '9' then some (c.toNat - '0'.toNat)
  else if 'a' ≤ c ∧ c ≤ 'f' then some (c.toNat - 'a'.toNat + 10)
  else if 'A' ≤ c ∧ c ≤ 'F' then some (c.toNat - 'A'.toNat + 10)
  else none

/-- A character by its code point in `places` hexadecimal digits; surrogates are no characters. -/
private def codePoint (places : Nat) : Reader (List Char) := fun cs => do
  let digits := cs.take places
  guard (digits.length = places)
  let values ← digits.mapM hexValue
  let n := values.foldl (fun n d => n * 16 + d) 0
  guard (n.isValidChar)
  return ([Char.ofNat n], cs.drop places)

private def escape : Reader (List Char)
  | 'b' :: rest => some (['\x08'], rest)
  | 't' :: rest => some (['\t'], rest)
  | 'n' :: rest => some (['\n'], rest)
  | 'f' :: rest => some (['\x0c'], rest)
  | 'r' :: rest => some (['\r'], rest)
  | '"' :: rest => some (['"'], rest)
  | '\\' :: rest => some (['\\'], rest)
  | 'u' :: rest => codePoint 4 rest
  | 'U' :: rest => codePoint 8 rest
  | _ => none

private def basicStep : Reader (List Char)
  | '\\' :: rest => escape rest
  | c :: rest => if isPlain c && c != '"' then some ([c], rest) else none
  | [] => none

private def literalStep : Reader (List Char)
  | c :: rest => if isPlain c && c != '\'' then some ([c], rest) else none
  | [] => none

private def blankStep : Reader (List Char) := fun cs =>
  match newline cs with
  | some rest => some ([], rest)
  | none =>
    match cs with
    | c :: rest => if isBlank c then some ([], rest) else none
    | [] => none

/-- A backslash at the end of a line takes all blanks and line ends after it. -/
private def joinedLine (cs : List Char) : Option (List Char) := do
  let next ← newline (skipBlanks cs)
  return (collect blankStep next).2

/-- One or two quotes belong to a text over several lines, three end it. -/
private def innerQuotes (quote : Char) : Reader (List Char) := fun cs =>
  let run := cs.takeWhile (· == quote)
  if run.length = 1 ∨ run.length = 2 then some (run, cs.drop run.length) else none

private def longBasicStep : Reader (List Char)
  | '\\' :: rest =>
    match joinedLine rest with
    | some next => some ([], next)
    | none => escape rest
  | cs =>
    match newline cs with
    | some rest => some (['\n'], rest)
    | none => basicStep cs <|> innerQuotes '"' cs

private def longLiteralStep : Reader (List Char) := fun cs =>
  match newline cs with
  | some rest => some (['\n'], rest)
  | none => literalStep cs <|> innerQuotes '\'' cs

/-- The end of a text over several lines: three quotes, with up to two of its own before them. -/
private def longEnd (quote : Char) : Reader (List Char) := fun cs =>
  let run := (cs.takeWhile (· == quote)).length
  if run < 3 then none
  else
    let own := min (run - 3) 2
    some (List.replicate own quote, cs.drop (own + 3))

private def long (quote : Char) (step : Reader (List Char)) : Reader String := fun cs => do
  let start := (newline cs).getD cs
  let (content, rest) := collect step start
  let (last, rest) ← longEnd quote rest
  return (String.ofList (content ++ last), rest)

private def short (quote : Char) (step : Reader (List Char)) : Reader String := fun cs => do
  let (content, rest) := collect step cs
  match rest with
  | c :: rest => if c = quote then some (String.ofList content, rest) else none
  | [] => none

def shortText : Reader String
  | '"' :: rest => short '"' basicStep rest
  | '\'' :: rest => short '\'' literalStep rest
  | _ => none

def text : Reader String
  | '"' :: '"' :: '"' :: rest => long '"' longBasicStep rest
  | '\'' :: '\'' :: '\'' :: rest => long '\'' longLiteralStep rest
  | cs => shortText cs

end Deferral.Toml
