import MiniScheme.Datum.ParseError
import MiniScheme.Eval.Error
import MiniScheme.Text.Blank
import MiniScheme.Text.Lines
import MiniScheme.Text.Width

/-!
# Reports

A report tells a person what went wrong and points at a place of the source: it
has a message, a location and a label. The place is a span; its offsets are
taken as counts of characters, whatever they count. A span that leaves the
source has no location, and a label is shown only if the renderer can draw it.

* `Report.pointAt` — the report about a span of a source;
* `Report.ofParseError`, `Report.ofEvalError` — the reports of errors.
-/

namespace MiniScheme

/-- A place in a named source: line and column count from 1. -/
structure Location where
  name : String
  line : Nat
  column : Nat
  deriving DecidableEq

/-- The written form of a location. -/
def Location.text (l : Location) : String :=
  l.name ++ ":" ++ toString l.line ++ ":" ++ toString l.column

/-- What a person is told about an error. -/
structure Report where
  message : String
  location : Option Location
  label : Option String
  deriving DecidableEq

namespace Report

/-- A plain drawing of a report. -/
def text (r : Report) : String :=
  "Error: " ++ r.message ++ "\n" ++
    r.location.elim "" (fun l => "  at " ++ l.text ++ "\n") ++
    r.label.elim "" (fun l => "  " ++ l ++ "\n")

/-! ## Placing -/

/-- The last character of a span; an empty one counts as the character there. -/
def lastPlace (span : Span) : Nat := if span.stop ≤ span.start then span.start else span.stop - 1

/-- Does the span lie in a source of so many characters? -/
def fits (length : Nat) (span : Span) : Bool :=
  span.start ≤ length && (span.stop ≤ span.start || span.stop - 1 ≤ length)

/-- The character that the label of a span hangs from: the middle one. -/
def anchor (span : Span) : Nat := max span.start ((span.start + span.stop) / 2)

/-- Can the label of a span be drawn? On one line the span must end with the line
at the latest, and the label needs the column of the character it hangs from.
Over several lines the last character of the span must be one of the source. -/
def showsLabel (source : List Char) (span : Span) : Bool :=
  let first := lineAt source span.start
  let last := lineAt source (lastPlace span)
  if first.number = last.number then
    span.stop ≤ first.stop && source[anchor span]?.all hasWidth
  else span.stop - 1 < source.length

/-- The report about a span of a source. -/
def pointAt (name source : String) (span : Span) (message label : String) : Report :=
  let chars := source.toList
  if fits chars.length span then
    let line := lineAt chars span.start
    ⟨message, some ⟨name, line.number + 1, span.start - line.start + 1⟩,
      if showsLabel chars span then some label else none⟩
  else ⟨message, none, none⟩

/-! ## Errors -/

/-- The report of a parse error. The end of the input is reported at the offset
that is its length in bytes. -/
def ofParseError (name source : String) : ParseError → Report
  | .unexpectedToken found expected =>
    pointAt name source found.span ("Unexpected token: " ++ found.kind.text)
      ("Expected " ++ expected.text)
  | .unexpectedEnd expected =>
    pointAt name source ⟨source.utf8ByteSize, source.utf8ByteSize⟩ "Unexpected EOF"
      ("Expected " ++ expected.text)
  | .lexical e => pointAt name source e.span "Lexer Error" e.fault.message
  | .invalidDot span => pointAt name source span "Invalid Dot Syntax" "Unexpected dot"

/-- The label under a form whose evaluation failed. -/
def evalLabel : EvalError → String
  | .unboundVariable _ => "This symbol is not defined in the current scope"
  | .wrongCount .. => "Wrong number of arguments in this call"
  | .malformed _ => "This expression is not a well-formed list"
  | .emptyBody _ => "This expression is not a well-formed list"
  | .notCallable _ => "This expression cannot be called as a procedure"
  | .wrongArguments .. => "Wrong number of arguments in this call"
  | .invalidForm .. => "This special form is malformed or incomplete"
  | .typeMismatch .. => "An argument has the wrong type"
  | .divisionByZero => "Division by zero"
  | .raised _ => "Raised while evaluating this form"
  | .missingArgument _ => "Wrong number of arguments in this call"
  | .negativeLevel => "This special form is malformed or incomplete"

/-- The input without the white space around it, in bytes. A blank input is the
empty span at its end. -/
def trimmedSpan (source : String) : Span :=
  let chars := source.toList
  let start := byteLength chars - byteLength (trimStart chars)
  ⟨start, max (byteLength (trimEnd chars)) start⟩

/-- The report of an evaluation error, which points at the whole input. -/
def ofEvalError (name source : String) (e : EvalError) : Report :=
  pointAt name source (trimmedSpan source) e.message (evalLabel e)

end Report
end MiniScheme
