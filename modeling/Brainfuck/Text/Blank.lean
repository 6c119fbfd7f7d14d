import Brainfuck.Text.Ranges

/-!
# White space

The 29 white space characters: the Unicode property White_Space together with
the four information separators U+001C to U+001F.
-/

namespace Brainfuck.Text

/-- The white space characters. -/
def blankRanges : Ranges :=
  [(0x09, 0x0D), (0x1C, 0x20), (0x85, 0x85), (0xA0, 0xA0), (0x1680, 0x1680), (0x2000, 0x200A),
    (0x2028, 0x2029), (0x202F, 0x202F), (0x205F, 0x205F), (0x3000, 0x3000)]

/-- Whether the character is white space. -/
def isBlank (c : Char) : Bool :=
  blankRanges.contains c.toNat

end Brainfuck.Text
