/-!
White space as Unicode counts it, for text that must not be blank.
-/

namespace Deferral.Text

def isBlankChar (c : Char) : Bool :=
  let n := c.toNat
  (9 ≤ n && n ≤ 13) || n == 32 || n == 0x85 || n == 0xa0 || n == 0x1680 ||
    (0x2000 ≤ n && n ≤ 0x200a) || n == 0x2028 || n == 0x2029 || n == 0x202f || n == 0x205f || n == 0x3000

def isBlank (s : String) : Bool := s.toList.all isBlankChar

def asciiLower (s : String) : String := String.ofList (s.toList.map Char.toLower)

end Deferral.Text
