import MiniScheme.Datum.Basic
import MiniScheme.Datum.ParseError

/-!
# The reader

The reader takes one token at a time. What it is in the middle of is a stack of
constructs, the innermost one first; a finished datum goes to the innermost
construct, which it may finish in turn.

* `Construct.take` — what one token does to the stack;
* `readDatum` — one datum from the front of some tokens, with the tokens left;
  when it fails, the tokens it looked at are gone, the offending one included;
* `parseOne`, `parseAll` — exactly one datum, any number of data;
* `parseText`, `parseProgram` — the same for a text.
-/

namespace MiniScheme

/-- A construct whose end has not been read. Items are kept in reverse. -/
inductive Construct where
  /-- A mark that waits for its datum. -/
  | marked (m : Mark)
  /-- A list, opened at the given place. -/
  | list (opening : Span) (items : List Datum)
  /-- A list after its dot. -/
  | dotted (items : List Datum)
  /-- A list after the datum that follows its dot. -/
  | closing (items : List Datum) (tail : Datum)
  deriving DecidableEq

/-- What a token leads to: the outermost datum is finished, or some constructs
are still open. -/
inductive Progress where
  | finished (d : Datum)
  | within (stack : List Construct)
  deriving DecidableEq

namespace Construct

/-- Hands a finished datum to the innermost construct. -/
def give : List Construct → Datum → Progress
  | [], d => .finished d
  | .marked m :: outer, d => give outer (.ofList [.symbol m.symbolName, d] .nil)
  | .list opening items :: outer, d => .within (.list opening (d :: items) :: outer)
  | .dotted items :: outer, d => .within (.closing items d :: outer)
  | .closing items tail :: outer, _ => .within (.closing items tail :: outer)

/-- Takes a token where a datum may begin. -/
def begin (stack : List Construct) (t : Token) : Except ParseError Progress :=
  match t.kind with
  | .leftParen => .ok (.within (.list t.span [] :: stack))
  | .mark m => .ok (.within (.marked m :: stack))
  | .symbol name => .ok (give stack (.symbol name))
  | .number x => .ok (give stack (.atom (.number x)))
  | .boolean b => .ok (give stack (.atom (.boolean b)))
  | .string s => .ok (give stack (.atom (.string s)))
  | .dot => .error (.invalidDot t.span)
  | .rightParen => .error (.unexpectedToken t .expression)

/-- Takes a token. -/
def take (stack : List Construct) (t : Token) : Except ParseError Progress :=
  match stack with
  | .list opening items :: outer =>
    match t.kind, items with
    | .rightParen, items => .ok (give outer (.ofList items.reverse .nil))
    | .dot, _ :: _ => .ok (.within (.dotted items :: outer))
    | _, items => begin (.list opening items :: outer) t
  | .closing items tail :: outer =>
    match t.kind with
    | .rightParen => .ok (give outer (.ofList items.reverse tail))
    | _ => .error (.unexpectedToken t .closeAfterDot)
  | stack => begin stack t

/-- What the innermost construct waits for. -/
def expected : List Construct → Expectation
  | .list opening _ :: _ => .close opening
  | .closing _ _ :: _ => .closeAfterDot
  | _ => .expression

end Construct

/-- Reads on with some open constructs until the outermost datum is finished. -/
def readWithin (stack : List Construct) : List Token → Except ParseError Datum × List Token
  | [] => (.error (.unexpectedEnd (Construct.expected stack)), [])
  | t :: rest =>
    match Construct.take stack t with
    | .error e => (.error e, rest)
    | .ok (.finished d) => (.ok d, rest)
    | .ok (.within stack) => readWithin stack rest

/-- Reads one datum off the front of some tokens. -/
def readDatum (tokens : List Token) : Except ParseError Datum × List Token :=
  readWithin [] tokens

/-- Reads exactly one datum. -/
def parseOne (tokens : List Token) : Except ParseError Datum :=
  match readDatum tokens with
  | (.error e, _) => .error e
  | (.ok d, []) => .ok d
  | (.ok _, found :: _) => .error (.unexpectedToken found .endOfInput)

/-- Reads data to the end of the tokens, with those read so far in reverse. -/
def readAllWithin (read : List Datum) (stack : List Construct) :
    List Token → Except ParseError (List Datum)
  | [] =>
    match stack with
    | [] => .ok read.reverse
    | stack => .error (.unexpectedEnd (Construct.expected stack))
  | t :: rest =>
    match Construct.take stack t with
    | .error e => .error e
    | .ok (.finished d) => readAllWithin (d :: read) [] rest
    | .ok (.within stack) => readAllWithin read stack rest

/-- Reads any number of data. -/
def parseAll (tokens : List Token) : Except ParseError (List Datum) := readAllWithin [] [] tokens

/-- The tokens of a text, an error being one of parsing. -/
def scanText (text : String) : Except ParseError (List Token) :=
  (tokenize text).mapError .lexical

/-- The one datum that a text spells. -/
def parseText (text : String) : Except ParseError Datum := scanText text >>= parseOne

/-- The data that a text spells. -/
def parseProgram (text : String) : Except ParseError (List Datum) := scanText text >>= parseAll

end MiniScheme
