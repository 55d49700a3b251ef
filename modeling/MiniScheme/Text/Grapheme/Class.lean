import MiniScheme.Text.Extending

/-!
# Classes of characters inside clusters

A reader takes a text for a row of clusters, each of one or more characters that
are drawn as one sign. Whether a cluster ends between two characters depends on
their classes first of all. The classes are the values of the Unicode property
`Grapheme_Cluster_Break`; the tables are those of Unicode 17.

* `GraphemeClass.of` — the class of a character;
* `GraphemeClass.joins` — which classes belong together wherever they meet.
-/

namespace MiniScheme

/-- The part that a character plays in a cluster. -/
inductive GraphemeClass where
  | carriageReturn
  | lineFeed
  | control
  /-- A mark drawn over the character before it. -/
  | extend
  /-- The zero width joiner. -/
  | joiner
  /-- One of the two letters that name a flag. -/
  | flagLetter
  /-- A sign drawn together with what follows it. -/
  | prepended
  /-- A mark drawn beside the character before it. -/
  | spacingMark
  /-- A first consonant in Hangul. -/
  | leading
  /-- A vowel in Hangul. -/
  | vowel
  /-- A final consonant in Hangul. -/
  | trailing
  /-- A syllable in Hangul without a final consonant. -/
  | openSyllable
  /-- A syllable in Hangul with its final consonant. -/
  | closedSyllable
  | other
  deriving DecidableEq

namespace Grapheme

/-- Controls, apart from the carriage return and the line feed. -/
def controlRanges : CodePoints :=
  [(0x0, 0x9), (0xB, 0xC), (0xE, 0x1F), (0x7F, 0x9F), (0xAD, 0xAD), (0x61C, 0x61C),
   (0x180E, 0x180E), (0x200B, 0x200B), (0x200E, 0x200F), (0x2028, 0x202E), (0x2060, 0x206F),
   (0xFEFF, 0xFEFF), (0xFFF0, 0xFFFB), (0x13430, 0x1343F), (0x1BCA0, 0x1BCA3), (0x1D173, 0x1D17A),
   (0xE0000, 0xE001F), (0xE0080, 0xE00FF), (0xE01F0, 0xE0FFF)]

/-- The skin tones, which are marks beside those that extend by their property. -/
def skinToneRanges : CodePoints := [(0x1F3FB, 0x1F3FF)]

/-- The letters of flags. -/
def flagLetterRanges : CodePoints := [(0x1F1E6, 0x1F1FF)]

/-- Signs drawn together with what follows them. -/
def prependedRanges : CodePoints :=
  [(0x600, 0x605), (0x6DD, 0x6DD), (0x70F, 0x70F), (0x890, 0x891), (0x8E2, 0x8E2), (0xD4E, 0xD4E),
   (0x110BD, 0x110BD), (0x110CD, 0x110CD), (0x111C2, 0x111C3), (0x113D1, 0x113D1),
   (0x1193F, 0x1193F), (0x11941, 0x11941), (0x11A3A, 0x11A3A), (0x11A84, 0x11A89),
   (0x11D46, 0x11D46), (0x11F02, 0x11F02)]

/-- Marks drawn beside the character before them. -/
def spacingMarkRanges : CodePoints :=
  [(0x903, 0x903), (0x93B, 0x93B), (0x93E, 0x940), (0x949, 0x94C), (0x94E, 0x94F), (0x982, 0x983),
   (0x9BF, 0x9C0), (0x9C7, 0x9C8), (0x9CB, 0x9CC), (0xA03, 0xA03), (0xA3E, 0xA40), (0xA83, 0xA83),
   (0xABE, 0xAC0), (0xAC9, 0xAC9), (0xACB, 0xACC), (0xB02, 0xB03), (0xB40, 0xB40), (0xB47, 0xB48),
   (0xB4B, 0xB4C), (0xBBF, 0xBBF), (0xBC1, 0xBC2), (0xBC6, 0xBC8), (0xBCA, 0xBCC), (0xC01, 0xC03),
   (0xC41, 0xC44), (0xC82, 0xC83), (0xCBE, 0xCBE), (0xCC1, 0xCC1), (0xCC3, 0xCC4), (0xCF3, 0xCF3),
   (0xD02, 0xD03), (0xD3F, 0xD40), (0xD46, 0xD48), (0xD4A, 0xD4C), (0xD82, 0xD83), (0xDD0, 0xDD1),
   (0xDD8, 0xDDE), (0xDF2, 0xDF3), (0xE33, 0xE33), (0xEB3, 0xEB3), (0xF3E, 0xF3F), (0xF7F, 0xF7F),
   (0x1031, 0x1031), (0x103B, 0x103C), (0x1056, 0x1057), (0x1084, 0x1084), (0x17B6, 0x17B6),
   (0x17BE, 0x17C5), (0x17C7, 0x17C8), (0x1923, 0x1926), (0x1929, 0x192B), (0x1930, 0x1931),
   (0x1933, 0x1938), (0x1A19, 0x1A1A), (0x1A55, 0x1A55), (0x1A57, 0x1A57), (0x1A6D, 0x1A72),
   (0x1B04, 0x1B04), (0x1B3E, 0x1B41), (0x1B82, 0x1B82), (0x1BA1, 0x1BA1), (0x1BA6, 0x1BA7),
   (0x1BE7, 0x1BE7), (0x1BEA, 0x1BEC), (0x1BEE, 0x1BEE), (0x1C24, 0x1C2B), (0x1C34, 0x1C35),
   (0x1CE1, 0x1CE1), (0x1CF7, 0x1CF7), (0xA823, 0xA824), (0xA827, 0xA827), (0xA880, 0xA881),
   (0xA8B4, 0xA8C3), (0xA952, 0xA952), (0xA983, 0xA983), (0xA9B4, 0xA9B5), (0xA9BA, 0xA9BB),
   (0xA9BE, 0xA9BF), (0xAA2F, 0xAA30), (0xAA33, 0xAA34), (0xAA4D, 0xAA4D), (0xAAEB, 0xAAEB),
   (0xAAEE, 0xAAEF), (0xAAF5, 0xAAF5), (0xABE3, 0xABE4), (0xABE6, 0xABE7), (0xABE9, 0xABEA),
   (0xABEC, 0xABEC), (0x11000, 0x11000), (0x11002, 0x11002), (0x11082, 0x11082), (0x110B0, 0x110B2),
   (0x110B7, 0x110B8), (0x1112C, 0x1112C), (0x11145, 0x11146), (0x11182, 0x11182),
   (0x111B3, 0x111B5), (0x111BF, 0x111BF), (0x111CE, 0x111CE), (0x1122C, 0x1122E),
   (0x11232, 0x11233), (0x112E0, 0x112E2), (0x11302, 0x11303), (0x1133F, 0x1133F),
   (0x11341, 0x11344), (0x11347, 0x11348), (0x1134B, 0x1134C), (0x11362, 0x11363),
   (0x113B9, 0x113BA), (0x113CA, 0x113CA), (0x113CC, 0x113CD), (0x11435, 0x11437),
   (0x11440, 0x11441), (0x11445, 0x11445), (0x114B1, 0x114B2), (0x114B9, 0x114B9),
   (0x114BB, 0x114BC), (0x114BE, 0x114BE), (0x114C1, 0x114C1), (0x115B0, 0x115B1),
   (0x115B8, 0x115BB), (0x115BE, 0x115BE), (0x11630, 0x11632), (0x1163B, 0x1163C),
   (0x1163E, 0x1163E), (0x116AC, 0x116AC), (0x116AE, 0x116AF), (0x1171E, 0x1171E),
   (0x11726, 0x11726), (0x1182C, 0x1182E), (0x11838, 0x11838), (0x11931, 0x11935),
   (0x11937, 0x11938), (0x11940, 0x11940), (0x11942, 0x11942), (0x119D1, 0x119D3),
   (0x119DC, 0x119DF), (0x119E4, 0x119E4), (0x11A39, 0x11A39), (0x11A57, 0x11A58),
   (0x11A97, 0x11A97), (0x11B61, 0x11B61), (0x11B65, 0x11B65), (0x11B67, 0x11B67),
   (0x11C2F, 0x11C2F), (0x11C3E, 0x11C3E), (0x11CA9, 0x11CA9), (0x11CB1, 0x11CB1),
   (0x11CB4, 0x11CB4), (0x11D8A, 0x11D8E), (0x11D93, 0x11D94), (0x11D96, 0x11D96),
   (0x11EF5, 0x11EF6), (0x11F03, 0x11F03), (0x11F34, 0x11F35), (0x11F3E, 0x11F3F),
   (0x1612A, 0x1612C), (0x16F51, 0x16F87)]

/-! ## Hangul -/

/-- First consonants. -/
def leadingRanges : CodePoints := [(0x1100, 0x115F), (0xA960, 0xA97C)]

/-- Vowels. Some vowel signs of Kirat Rai combine in the same way. -/
def vowelRanges : CodePoints :=
  [(0x1160, 0x11A7), (0xD7B0, 0xD7C6), (0x16D63, 0x16D63), (0x16D67, 0x16D6A)]

/-- Final consonants. -/
def trailingRanges : CodePoints := [(0x11A8, 0x11FF), (0xD7CB, 0xD7FB)]

/-- Composed syllables, in order of the first consonant, the vowel and the final
consonant. -/
def syllableRanges : CodePoints := [(0xAC00, 0xD7A3)]

/-- The number of syllables that share their first consonant and vowel. The first
of them has no final consonant. -/
def finalCount : Nat := 28

/-- Has a composed syllable no final consonant? -/
def isOpenSyllable (c : Char) : Bool := (c.toNat - 0xAC00) % finalCount = 0

end Grapheme

namespace GraphemeClass

/-- The class of a character. -/
def of (c : Char) : GraphemeClass :=
  if c = '\r' then carriageReturn
  else if c = '\n' then lineFeed
  else if Grapheme.controlRanges.contain c then control
  else if c = '\u200d' then joiner
  else if isExtending c || Grapheme.skinToneRanges.contain c then extend
  else if Grapheme.flagLetterRanges.contain c then flagLetter
  else if Grapheme.prependedRanges.contain c then prepended
  else if Grapheme.spacingMarkRanges.contain c then spacingMark
  else if Grapheme.leadingRanges.contain c then leading
  else if Grapheme.vowelRanges.contain c then vowel
  else if Grapheme.trailingRanges.contain c then trailing
  else if Grapheme.syllableRanges.contain c then
    if Grapheme.isOpenSyllable c then openSyllable else closedSyllable
  else other

/-- Is there a boundary on both sides of such a character? -/
def standsApart : GraphemeClass → Bool
  | carriageReturn | lineFeed | control => true
  | _ => false

/-- Does such a character belong to the one before it? -/
def attaches : GraphemeClass → Bool
  | extend | joiner | spacingMark => true
  | _ => false

/-- Do two parts of a syllable in Hangul go together? -/
def syllableGoesOn : GraphemeClass → GraphemeClass → Bool
  | leading, leading | leading, vowel | leading, openSyllable | leading, closedSyllable => true
  | openSyllable, vowel | openSyllable, trailing | vowel, vowel | vowel, trailing => true
  | closedSyllable, trailing | trailing, trailing => true
  | _, _ => false

/-- Do characters of two classes belong together wherever they meet? Characters
that stand apart never do, except a carriage return and a line feed. -/
def joins (before after : GraphemeClass) : Bool :=
  if before.standsApart || after.standsApart then
    before = carriageReturn && after = lineFeed
  else after.attaches || before = prepended || syllableGoesOn before after

end GraphemeClass
end MiniScheme
