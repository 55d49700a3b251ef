import MiniScheme.Token.Scanner

/-!
# Parse errors

Why a text is not read, with the place, and the wording of each cause.
-/

namespace MiniScheme

/-- What the reader was waiting for. -/
inductive Expectation where
  | expression
  | endOfInput
  /-- The parenthesis after the datum that follows a dot. -/
  | closeAfterDot
  /-- An element of the list that this parenthesis opened, or its end. -/
  | close (opening : Span)
  deriving DecidableEq

/-- The wording of an expectation. -/
def Expectation.text : Expectation → String
  | .expression => "an expression"
  | .endOfInput => "end of input"
  | .closeAfterDot => "')' after dotted pair"
  | .close opening => "')' to close '(' at " ++ opening.text

/-- Why a text is not read. -/
inductive ParseError where
  | lexical (e : LexError)
  | unexpectedToken (found : Token) (expected : Expectation)
  | unexpectedEnd (expected : Expectation)
  | invalidDot (span : Span)
  deriving DecidableEq

namespace ParseError

/-- The wording of a parse error. -/
def message : ParseError → String
  | lexical e => "Lexer Error during parse: " ++ e.fault.message
  | unexpectedToken found expected =>
    "Parse Error [at " ++ found.span.text ++ "]: Unexpected token '" ++ found.kind.text ++
      "', expected " ++ expected.text
  | unexpectedEnd expected =>
    "Parse Error: Unexpected end of input during parsing. Expected " ++ expected.text
  | invalidDot span => "Parse Error: Invalid syntax for dotted pair at [" ++ span.text ++ "]"

/-- The place of a parse error; the end of the input has none. -/
def span? : ParseError → Option Span
  | lexical e => some e.span
  | unexpectedToken found _ => some found.span
  | unexpectedEnd _ => none
  | invalidDot span => some span

/-- Was the scan cut off, so that there is no answer about the text? -/
def isCutOff : ParseError → Bool
  | lexical e => e.fault = .brokenCharacter
  | _ => false

end ParseError
end MiniScheme
