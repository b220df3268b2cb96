/-!
Texts in JSON.
-/

namespace Deferral.Text

private def hex4 (n : Nat) : String :=
  let ds := Nat.toDigits 16 n
  String.ofList (List.replicate (4 - ds.length) '0' ++ ds)

private def escapeJsonChar (c : Char) : String :=
  if c = '"' then "\\\""
  else if c = '\\' then "\\\\"
  else if c = '\n' then "\\n"
  else if c = '\r' then "\\r"
  else if c = '\t' then "\\t"
  else if c = '\x08' then "\\b"
  else if c = '\x0c' then "\\f"
  else if c.toNat < 0x20 then "\\u" ++ hex4 c.toNat
  else c.toString

def jsonText (s : String) : String := "\"" ++ String.join (s.toList.map escapeJsonChar) ++ "\""

def jsonTexts (texts : List String) : String := "[" ++ ",".intercalate (texts.map jsonText) ++ "]"

def jsonTextLines (texts : List String) : String :=
  if texts.isEmpty then "[]"
  else "[\n    " ++ ",\n    ".intercalate (texts.map jsonText) ++ "\n  ]"

end Deferral.Text
