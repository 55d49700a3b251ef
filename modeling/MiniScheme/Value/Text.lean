import MiniScheme.Value.Basic

/-!
# The text of a value

Every value has a text. That of data is their written form; a procedure made by
a program looks like the form that makes it.
-/

namespace MiniScheme

/-- The word that the text of a procedure begins with. -/
def CompoundKind.keyword : CompoundKind → String
  | .lambda _ => "lambda"
  | .mu => "mu"
  | .transformer => "macro"

namespace Value

mutual

/-- Writes a value at the end of a text. -/
def write (written : String) : Value → String
  | atom a => written ++ a.text
  | undefined => written ++ "undefined"
  | pair _ first rest => writeTail (write (written ++ "(") first) rest
  | builtin _ b => written ++ "#[" ++ b.name ++ "]"
  | compound _ kind formals body =>
    writeTail (written ++ "(" ++ kind.keyword ++ " " ++ formals.text) body
  | environment _ => written ++ "#[environment]"

/-- Writes what follows an element of a list, up to the closing parenthesis. -/
def writeTail (written : String) : Value → String
  | atom .nil => written ++ ")"
  | pair _ first rest => writeTail (write (written ++ " ") first) rest
  | atom a => written ++ " . " ++ a.text ++ ")"
  | undefined => written ++ " . undefined)"
  | builtin _ b => written ++ " . #[" ++ b.name ++ "])"
  | compound _ kind formals body =>
    writeTail (written ++ " . (" ++ kind.keyword ++ " " ++ formals.text) body ++ ")"
  | environment _ => written ++ " . #[environment])"

end

/-- The text of a value. -/
def text (v : Value) : String := write "" v

/-- The text of a value as `display` shows it: a string without its quotes. -/
def displayText : Value → String
  | string s => s
  | v => v.text

end Value
end MiniScheme
