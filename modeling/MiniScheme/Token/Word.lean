import MiniScheme.Text.Pictograph
import MiniScheme.Token.Basic

/-!
# Words

A word is a maximal run of word characters: ASCII letters and digits, a fixed
set of punctuation, and pictographs. The whole word decides what it is: a dot,
one of the two booleans, a number if all of it is spelt as one, else a symbol.
-/

namespace MiniScheme

/-- The punctuation that words are made of. -/
def wordPunctuation : List Char := ".!#$%&*/:<=>?~_^+-".toList

/-- The characters that words are made of. -/
def isWordChar (c : Char) : Bool :=
  c.isAlphanum || wordPunctuation.contains c || isPictograph c

/-- What a whole word is. -/
def TokenKind.ofWord (word : List Char) : TokenKind :=
  if word = ['.'] then .dot
  else if word = ['#', 't'] then .boolean true
  else if word = ['#', 'f'] then .boolean false
  else
    match Number.ofWord? word with
    | some x => .number x
    | none => .symbol (.ofList word)

end MiniScheme
