import MiniScheme.Text.Blank
import MiniScheme.Text.Quoted
import MiniScheme.Token.Word

/-!
# Scanning

The scanner takes a text one character at a time. Between two characters all it
knows is how far it is, what it is in the middle of, and the tokens it has
finished. A word, a comma or a comment ends where a character comes that cannot
be part of it, and that character then begins something new.

* `Scanner.feed` — one character;
* `Scanner.finish` — the end of the text;
* `tokenize` — a whole text: all its tokens, or the first thing that is none.

A number that lacks the digits of its exponent, such as `1e`, is a symbol. But it
is an error if a character comes next whose first byte might begin a pictograph:
at that byte the scanner tries to go on with the symbol, and when the next bytes
are those of another character it falls back to the number.

A string ends at the first quote that no backslash stands before. A backslash
before a line feed, or at the end of the text, ends it too, and so does the end
of the text; the last character read so far must then be the closing quote. The
test for that looks at the last byte alone, and so a literal that ends in a
character of several bytes is cut inside that character: this is no error about
the text but the end of the scan (`LexFault.brokenCharacter`).
-/

namespace MiniScheme

/-- Why scanning stops. -/
inductive LexFault where
  | unterminatedString
  /-- The word was taken for a number and is none. -/
  | invalidNumber (word : String)
  | unknownEscape (c : Char)
  | invalidToken
  /-- The scan is cut off inside a character and gives no answer at all. -/
  | brokenCharacter
  deriving DecidableEq

/-- Why scanning stops, and where. -/
structure LexError where
  fault : LexFault
  span : Span
  deriving DecidableEq

/-- The wording of a fault. -/
def LexFault.message : LexFault → String
  | .unterminatedString => "Unterminated string literal"
  | .invalidNumber word => "Invalid number format: '" ++ word ++ "'"
  | .unknownEscape c => "Unknown escape sequence: '\\" ++ c.toString ++ "'"
  | .invalidToken => "Invalid token"
  | .brokenCharacter => "Character cut in two"

/-- What the scanner is in the middle of. Characters are kept in reverse. -/
inductive Pending where
  | gap
  | comment
  | word (start : Nat) (chars : List Char)
  | comma (start : Nat)
  | string (start : Nat) (inside : List Char)
  /-- In a string, right after a backslash. -/
  | escape (start : Nat) (inside : List Char)
  deriving DecidableEq

/-- The state of the scanner; the finished tokens are kept in reverse. -/
structure Scanner where
  position : Nat
  pending : Pending
  tokens : List Token
  deriving DecidableEq

namespace Scanner

/-- The scanner before a text whose first byte has the given offset. -/
def start (position : Nat) : Scanner := ⟨position, .gap, []⟩

/-- Finishes a token that ends at the current position. -/
def emit (s : Scanner) (start : Nat) (kind : TokenKind) : Scanner :=
  ⟨s.position, .gap, ⟨kind, start, s.position⟩ :: s.tokens⟩

/-- Goes past a character, being in the middle of something from then on. -/
def advance (s : Scanner) (c : Char) (pending : Pending) : Scanner :=
  ⟨s.position + c.utf8Size, pending, s.tokens⟩

/-- Finishes a token that begins at the current position and is one character. -/
def emitChar (s : Scanner) (c : Char) (kind : TokenKind) : Scanner :=
  (s.advance c .gap).emit s.position kind

/-- Begins something new at a character. -/
def enter (s : Scanner) (c : Char) : Except LexError Scanner :=
  if isSeparator c then .ok (s.advance c .gap)
  else if isWordChar c then .ok (s.advance c (.word s.position [c]))
  else
    match c with
    | ';' => .ok (s.advance c .comment)
    | '(' => .ok (s.emitChar c .leftParen)
    | ')' => .ok (s.emitChar c .rightParen)
    | '\'' => .ok (s.emitChar c (.mark .quote))
    | '\x60' => .ok (s.emitChar c (.mark .quasiquote))
    | ',' => .ok (s.advance c (.comma s.position))
    | '"' => .ok (s.advance c (.string s.position []))
    | _ => .error ⟨.invalidToken, s.position, s.position + c.utf8Size⟩

/-- Ends a string at the current position, given what stands between its quotes. -/
def closeString (s : Scanner) (start : Nat) (inside : List Char) : Except LexError Scanner :=
  match Quoted.unescape inside with
  | .ok text => .ok (s.emit start (.string (.ofList text)))
  | .error (.unknownEscape c) => .error ⟨.unknownEscape c, start, s.position⟩
  | .error .loneBackslash => .error ⟨.unterminatedString, start, s.position⟩

/-- Takes one character. -/
def feed (s : Scanner) (c : Char) : Except LexError Scanner :=
  match s.pending with
  | .gap => s.enter c
  | .comment =>
    if c = '\n' ∨ c = '\r' then s.enter c else .ok (s.advance c .comment)
  | .word start chars =>
    if isWordChar c then .ok (s.advance c (.word start (c :: chars)))
    else if beginsLikePictograph c ∧ Decimal.lacksExponent chars.reverse then
      .error ⟨.invalidNumber (.ofList chars.reverse), start, s.position⟩
    else (s.emit start (.ofWord chars.reverse)).enter c
  | .comma start =>
    if c = '@' then .ok ((s.advance c .gap).emit start (.mark .unquoteSplicing))
    else (s.emit start (.mark .unquote)).enter c
  | .string start inside =>
    if c = '"' then (s.advance c .gap).closeString start inside.reverse
    else if c = '\\' then .ok (s.advance c (.escape start inside))
    else .ok (s.advance c (.string start (c :: inside)))
  | .escape start inside =>
    if c = '\n' then .error ⟨.unterminatedString, start, s.position⟩
    else .ok (s.advance c (.string start (c :: '\\' :: inside)))

/-- Takes the characters of a text one after the other. -/
def feedAll (s : Scanner) (text : List Char) : Except LexError Scanner := text.foldlM feed s

/-- The end of the text. In an open string an escaped quote that comes last is
taken for the closing one. -/
def finish (s : Scanner) : Except LexError (List Token) :=
  match s.pending with
  | .gap => .ok s.tokens.reverse
  | .comment => .ok s.tokens.reverse
  | .word start chars => .ok (s.emit start (.ofWord chars.reverse)).tokens.reverse
  | .comma start => .ok (s.emit start (.mark .unquote)).tokens.reverse
  | .string start [] => .error ⟨.unterminatedString, start, s.position⟩
  | .string start (last :: inside) =>
    if last.utf8Size ≠ 1 then .error ⟨.brokenCharacter, start, s.position⟩
    else if last = '"' then
      (s.closeString start inside.reverse).map fun closed => closed.tokens.reverse
    else .error ⟨.unterminatedString, start, s.position⟩
  | .escape start _ => .error ⟨.unterminatedString, start, s.position⟩

end Scanner

/-- The tokens of a text whose first byte has the given offset. -/
def tokenizeAt (position : Nat) (text : List Char) : Except LexError (List Token) :=
  (Scanner.start position).feedAll text >>= Scanner.finish

/-- The tokens of a text. -/
def tokenize (text : String) : Except LexError (List Token) := tokenizeAt 0 text.toList

end MiniScheme
