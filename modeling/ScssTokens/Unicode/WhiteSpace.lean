import ScssTokens.Unicode.RangeTable

/-!
# White space

The characters with the Unicode property `White_Space`: the blanks and line ends of ASCII, the
next-line control, the no-break space, the spaces of various widths and the two separators.

## Main definitions

* `Unicode.isWhiteSpace` — whether a character is white space.
-/

namespace ScssTokens.Unicode

/-- The code points with the property `White_Space`. -/
def whiteSpaceTable : RangeTable where
  ranges := #[
    (0x9, 0xD), (0x20, 0x20), (0x85, 0x85), (0xA0, 0xA0), (0x1680, 0x1680), (0x2000, 0x200A),
    (0x2028, 0x2029), (0x202F, 0x202F), (0x205F, 0x205F), (0x3000, 0x3000)]

/-- Whether a character has the property `White_Space`. -/
def isWhiteSpace (c : Char) : Bool := whiteSpaceTable.contains c.toNat

end ScssTokens.Unicode
