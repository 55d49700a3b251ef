import MiniScheme.Number.Shortest
import MiniScheme.Text.Span

/-!
# Tokens

The tokens of the language with their places in the source, and the text that
messages show for them.
-/

namespace MiniScheme

/-- The four marks that abbreviate a list of two elements. -/
inductive Mark where
  | quote
  | quasiquote
  | unquote
  | unquoteSplicing
  deriving DecidableEq

namespace Mark

/-- The symbol that the mark abbreviates. -/
def symbolName : Mark → String
  | quote => "quote"
  | quasiquote => "quasiquote"
  | unquote => "unquote"
  | unquoteSplicing => "unquote-splicing"

/-- The mark as it is typed. -/
def text : Mark → String
  | quote => "'"
  | quasiquote => "`"
  | unquote => ","
  | unquoteSplicing => ",@"

end Mark

/-- What a token is. -/
inductive TokenKind where
  | leftParen
  | rightParen
  | dot
  | mark (m : Mark)
  | symbol (name : String)
  | number (x : Float)
  | boolean (b : Bool)
  | string (s : String)
  deriving DecidableEq

/-- The two spellings of a truth value. -/
def booleanText (b : Bool) : String := if b then "#t" else "#f"

/-- The text of a token in messages. A string is shown between quotes but
without escapes. -/
def TokenKind.text : TokenKind → String
  | .leftParen => "("
  | .rightParen => ")"
  | .dot => "."
  | .mark m => m.text
  | .symbol name => name
  | .number x => Number.text x
  | .boolean b => booleanText b
  | .string s => "\"" ++ s ++ "\""

/-- A token and its place. -/
structure Token where
  kind : TokenKind
  span : Span
  deriving DecidableEq

end MiniScheme
