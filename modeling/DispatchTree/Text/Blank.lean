/-!
# Blank characters

The characters that count as white space: the twenty-five with the property White_Space. Seven of them end a line.
-/

namespace DispatchTree.Text

/-- Whether a character is white space. -/
def isBlank (c : Char) : Bool :=
  let n := c.toNat
  (9 ≤ n && n ≤ 13) || n == 0x20 || n == 0x85 || n == 0xa0 || n == 0x1680 || (0x2000 ≤ n && n ≤ 0x200a) || n == 0x2028 ||
    n == 0x2029 || n == 0x202f || n == 0x205f || n == 0x3000

/-- Whether a text has nothing but white space. -/
def allBlank (s : String) : Bool := s.toList.all isBlank

/-- The characters at which a line ends. -/
def lineBreaks : List Char := ['\n', '\x0b', '\x0c', '\r', '\u0085', '\u2028', '\u2029']

end DispatchTree.Text
