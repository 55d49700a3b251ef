import MiniScheme.Text.Extending
import MiniScheme.Text.Graphic
import MiniScheme.Text.Ignorable
import MiniScheme.Text.Quoted

/-!
# Showing names

In descriptions of the machine a name stands between quotes. Beside what is
escaped in a string literal, a character that has no picture of its own is shown
by its code point: one that is not graphic, is ignorable, or extends the
character before it. The halfwidth voicing marks of Katakana extend that
character by their property, but they stand beside it and have a picture.
-/

namespace MiniScheme

namespace Shown

/-- The halfwidth voicing marks of Katakana. -/
def isVoicingMark (c : Char) : Bool := c = '\uff9e' || c = '\uff9f'

/-- Has the character a picture of its own? -/
def isVisible (c : Char) : Bool :=
  isGraphic c && !isIgnorable c && (!isExtending c || isVoicingMark c)

/-- A character by its code point in hexadecimal digits. -/
def codePoint (c : Char) : List Char :=
  "\\u\x7b".toList ++ Nat.toDigits 16 c.toNat ++ ['\x7d']

/-- What is shown for a character. -/
def char (c : Char) : List Char :=
  if c = '\x00' then ['\\', '0']
  else if Quoted.escapeChar c ≠ [c] then Quoted.escapeChar c
  else if isVisible c then [c]
  else codePoint c

/-- A name between quotes. -/
def name (s : String) : String := .ofList ('"' :: s.toList.flatMap char ++ ['"'])

end Shown
end MiniScheme
