import MiniScheme.Text.Extending
import MiniScheme.Text.Ignorable

/-!
# Width

Most characters take at least one column when a text is drawn. Those that take
none are drawn over the character before them, complete a syllable with it, or
are not shown at all. Widths are those of Unicode 15.1: a mark of a later version
takes a column.

* `Width.isOverlaid` — the marks drawn over the character before them;
* `hasWidth` — whether a character takes a column.
-/

namespace MiniScheme

namespace Width

/-- Characters that extend the one before them only since Unicode 16. Vowel signs
that are composed of two marks took no column before either and are left out. -/
def laterMarkRanges : CodePoints :=
  [(0x897, 0x897), (0x1715, 0x1715), (0x1734, 0x1734), (0x1ACF, 0x1ADD), (0x1AE0, 0x1AEB),
   (0x1B44, 0x1B44), (0x1BAA, 0x1BAA), (0x1BF2, 0x1BF3), (0xA953, 0xA953), (0xA9C0, 0xA9C0),
   (0x10D69, 0x10D6D), (0x10EFA, 0x10EFC), (0x111C0, 0x111C0), (0x11235, 0x11235),
   (0x1134D, 0x1134D), (0x113B8, 0x113B8), (0x113BB, 0x113C0), (0x113C2, 0x113C2),
   (0x113C5, 0x113C5), (0x113C7, 0x113C9), (0x113CE, 0x113D0), (0x113D2, 0x113D2),
   (0x113E1, 0x113E2), (0x116B6, 0x116B6), (0x1193D, 0x1193D), (0x11B60, 0x11B60),
   (0x11B62, 0x11B64), (0x11B66, 0x11B66), (0x11F41, 0x11F41), (0x11F5A, 0x11F5A),
   (0x1611E, 0x16129), (0x1612D, 0x1612F), (0x16FF0, 0x16FF1), (0x1D166, 0x1D166),
   (0x1D16D, 0x1D16D), (0x1E5EE, 0x1E5EF), (0x1E6E3, 0x1E6E3), (0x1E6E6, 0x1E6E6),
   (0x1E6EE, 0x1E6EF), (0x1E6F5, 0x1E6F5)]

/-- A medial consonant of Ahom, which extends the character before it up to
Unicode 15.1 only. -/
def formerMarkRanges : CodePoints := [(0x1171E, 0x1171E)]

/-- Is the character drawn over the one before it? -/
def isOverlaid (c : Char) : Bool :=
  formerMarkRanges.contain c || isExtending c && !laterMarkRanges.contain c

/-- Vowels and final consonants of composed Hangul syllables. -/
def jamoRanges : CodePoints := [(0x1160, 0x11FF), (0xD7B0, 0xD7C6), (0xD7CB, 0xD7FB)]

/-- Signs that are drawn together with the characters after them, and the caret of
Devanagari, which stands between two characters. -/
def signRanges : CodePoints :=
  [(0x605, 0x605), (0x70F, 0x70F), (0x890, 0x891), (0x8E2, 0x8E2), (0xD4E, 0xD4E),
   (0xA8FA, 0xA8FA), (0x111C2, 0x111C3), (0x1193F, 0x1193F), (0x11941, 0x11941),
   (0x11A3A, 0x11A3A), (0x11A84, 0x11A89), (0x11D46, 0x11D46), (0x11F02, 0x11F02)]

/-- Characters that take columns in spite of their properties: the filler for a
first consonant in Hangul, and the joiner of Tifinagh. -/
def wideRanges : CodePoints := [(0x115F, 0x115F), (0x2D7F, 0x2D7F)]

end Width

/-- Does the character take at least one column? -/
def hasWidth (c : Char) : Bool :=
  Width.wideRanges.contain c ||
    !(isIgnorable c || Width.isOverlaid c || Width.jamoRanges.contain c ||
      Width.signRanges.contain c)

end MiniScheme
