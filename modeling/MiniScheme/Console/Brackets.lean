/-!
# Brackets

The console looks at the brackets of an input before it is read, to see whether
more lines are needed. Brackets count outside of string literals only.

* `Zone.next` — where the next character stands;
* `checkBrackets` — whether every bracket is closed by its partner.
-/

namespace MiniScheme.Console

/-- Where a character stands. -/
inductive Zone where
  | code
  | string
  /-- In a string, right after a backslash. -/
  | escape
  deriving DecidableEq

/-- The zone after a character. -/
def Zone.next : Zone → Char → Zone
  | code, c => if c = '"' then string else code
  | string, c => if c = '\\' then escape else if c = '"' then code else string
  | escape, _ => string

/-- The opening brackets. -/
def isOpening (c : Char) : Bool := c = '(' || c = '[' || c = '\x7b'

/-- The closing brackets. -/
def isClosing (c : Char) : Bool := c = ')' || c = ']' || c = '\x7d'

/-- Is the second bracket the partner of the first? -/
def closes (opening closing : Char) : Bool :=
  (opening = '(' && closing = ')') || (opening = '[' && closing = ']') ||
    (opening = '\x7b' && closing = '\x7d')

/-- What the brackets of an input say about it. -/
inductive Verdict where
  | complete
  | incomplete
  /-- The bracket at this place, counted in characters, closes nothing. -/
  | unmatched (bracket : Char) (place : Nat)
  deriving DecidableEq

/-- Checks an input from the given place on, inside the given open brackets. -/
def checkBracketsFrom (zone : Zone) (opened : List Char) (place : Nat) : List Char → Verdict
  | [] => if zone = .code ∧ opened = [] then .complete else .incomplete
  | c :: rest =>
    if zone = .code ∧ isOpening c then
      checkBracketsFrom .code (c :: opened) (place + 1) rest
    else if zone = .code ∧ isClosing c then
      match opened with
      | opening :: outer =>
        if closes opening c then checkBracketsFrom .code outer (place + 1) rest
        else .unmatched c place
      | [] => .unmatched c place
    else checkBracketsFrom (zone.next c) opened (place + 1) rest

/-- Checks an input. -/
def checkBrackets (input : List Char) : Verdict := checkBracketsFrom .code [] 0 input

/-- What the console says about an unmatched bracket. -/
def unmatchedMessage (bracket : Char) (place : Nat) : String :=
  "  - Unmatched '" ++ bracket.toString ++ "' at position " ++ toString place

end MiniScheme.Console
