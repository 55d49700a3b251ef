import MiniScheme.Text.Ranges

/-!
# Pictographs

The characters with the Unicode property `Extended_Pictographic`. They may stand
in symbols.

* `isPictograph` — the property;
* `beginsLikePictograph` — whether the first byte of a character leaves it open
  that it is one.
-/

namespace MiniScheme

namespace Pictograph

/-- The characters with the property. -/
def ranges : CodePoints :=
  [(0xA9, 0xA9), (0xAE, 0xAE), (0x203C, 0x203C), (0x2049, 0x2049), (0x2122, 0x2122),
   (0x2139, 0x2139), (0x2194, 0x2199), (0x21A9, 0x21AA), (0x231A, 0x231B), (0x2328, 0x2328),
   (0x2388, 0x2388), (0x23CF, 0x23CF), (0x23E9, 0x23F3), (0x23F8, 0x23FA), (0x24C2, 0x24C2),
   (0x25AA, 0x25AB), (0x25B6, 0x25B6), (0x25C0, 0x25C0), (0x25FB, 0x25FE), (0x2600, 0x2605),
   (0x2607, 0x2612), (0x2614, 0x2685), (0x2690, 0x2705), (0x2708, 0x2712), (0x2714, 0x2714),
   (0x2716, 0x2716), (0x271D, 0x271D), (0x2721, 0x2721), (0x2728, 0x2728), (0x2733, 0x2734),
   (0x2744, 0x2744), (0x2747, 0x2747), (0x274C, 0x274C), (0x274E, 0x274E), (0x2753, 0x2755),
   (0x2757, 0x2757), (0x2763, 0x2767), (0x2795, 0x2797), (0x27A1, 0x27A1), (0x27B0, 0x27B0),
   (0x27BF, 0x27BF), (0x2934, 0x2935), (0x2B05, 0x2B07), (0x2B1B, 0x2B1C), (0x2B50, 0x2B50),
   (0x2B55, 0x2B55), (0x3030, 0x3030), (0x303D, 0x303D), (0x3297, 0x3297), (0x3299, 0x3299),
   (0x1F000, 0x1F0FF), (0x1F10D, 0x1F10F), (0x1F12F, 0x1F12F), (0x1F16C, 0x1F171),
   (0x1F17E, 0x1F17F), (0x1F18E, 0x1F18E), (0x1F191, 0x1F19A), (0x1F1AD, 0x1F1E5),
   (0x1F201, 0x1F20F), (0x1F21A, 0x1F21A), (0x1F22F, 0x1F22F), (0x1F232, 0x1F23A),
   (0x1F23C, 0x1F23F), (0x1F249, 0x1F3FA), (0x1F400, 0x1F53D), (0x1F546, 0x1F64F),
   (0x1F680, 0x1F6FF), (0x1F774, 0x1F77F), (0x1F7D5, 0x1F7FF), (0x1F80C, 0x1F80F),
   (0x1F848, 0x1F84F), (0x1F85A, 0x1F85F), (0x1F888, 0x1F88F), (0x1F8AE, 0x1F8FF),
   (0x1F90C, 0x1F93A), (0x1F93C, 0x1F945), (0x1F947, 0x1FAFF), (0x1FC00, 0x1FFFD)]

/-- The first byte of a code point in UTF-8. -/
def leadByte (codePoint : Nat) : Nat :=
  if codePoint < 0x80 then codePoint
  else if codePoint < 0x800 then 0xC0 + codePoint / 0x40
  else if codePoint < 0x10000 then 0xE0 + codePoint / 0x1000
  else 0xF0 + codePoint / 0x40000

end Pictograph

/-- Is the character a pictograph? -/
def isPictograph (c : Char) : Bool := Pictograph.ranges.contain c

/-- Has the character its first byte in UTF-8 in common with some pictograph? -/
def beginsLikePictograph (c : Char) : Bool :=
  Pictograph.ranges.any fun (first, last) =>
    Pictograph.leadByte first ≤ Pictograph.leadByte c.toNat &&
      Pictograph.leadByte c.toNat ≤ Pictograph.leadByte last

end MiniScheme
