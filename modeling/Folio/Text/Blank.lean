/-!
# Blank text

The white space of the Unicode standard. A name or a paragraph counts as blank when it holds nothing
else, so zero-width characters such as U+200B and the byte order mark make a text visible.
-/

namespace Folio.Text

/-- White space: the characters with the Unicode property `White_Space`. -/
def isBlankChar (c : Char) : Bool :=
  let n := c.toNat
  (0x09 ≤ n && n ≤ 0x0d) || n == 0x20 || n == 0x85 || n == 0xa0 || n == 0x1680 ||
    (0x2000 ≤ n && n ≤ 0x200a) || n == 0x2028 || n == 0x2029 || n == 0x202f || n == 0x205f ||
    n == 0x3000

/-- A text is blank when every character of it is white space. -/
def isBlank (text : String) : Bool := text.toList.all isBlankChar

end Folio.Text
