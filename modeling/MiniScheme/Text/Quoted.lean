/-!
# Quoted text

Inside a string literal a backslash stands before a double quote, a backslash
and the letters `n`, `r` and `t` for line feed, carriage return and tab.

* `Quoted.escape` — what is written between the quotes for a text;
* `Quoted.unescape` — the text that stands for what is between the quotes, or
  the first escape that is none.
-/

namespace MiniScheme.Quoted

/-- What is written for one character. -/
def escapeChar (c : Char) : List Char :=
  match c with
  | '"' => ['\\', '"']
  | '\\' => ['\\', '\\']
  | '\n' => ['\\', 'n']
  | '\r' => ['\\', 'r']
  | '\t' => ['\\', 't']
  | c => [c]

/-- What is written between the quotes. -/
def escape (text : List Char) : List Char := text.flatMap escapeChar

/-- Why a text is not the inside of a literal. -/
inductive Fault where
  /-- This character does not follow a backslash. -/
  | unknownEscape (c : Char)
  /-- The last backslash has nothing after it. -/
  | loneBackslash
  deriving DecidableEq

/-- The character that a backslash and the given one stand for. -/
def unescapeChar? : Char → Option Char
  | 'n' => some '\n'
  | 'r' => some '\r'
  | 't' => some '\t'
  | '\\' => some '\\'
  | '"' => some '"'
  | _ => none

/-- Reads the inside of a literal with the text so far in reverse. -/
def unescapeOnto (read : List Char) : List Char → Except Fault (List Char)
  | [] => .ok read.reverse
  | ['\\'] => .error .loneBackslash
  | '\\' :: c :: rest =>
    match unescapeChar? c with
    | some d => unescapeOnto (d :: read) rest
    | none => .error (.unknownEscape c)
  | c :: rest => unescapeOnto (c :: read) rest

/-- The text that the inside of a literal stands for. -/
def unescape (inside : List Char) : Except Fault (List Char) := unescapeOnto [] inside

/-- A text as a literal, quotes included. -/
def literal (text : List Char) : List Char := '"' :: escape text ++ ['"']

end MiniScheme.Quoted
