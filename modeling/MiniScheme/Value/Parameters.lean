import MiniScheme.Value.Text

/-!
# Parameter lists as values

A parameter list is written as a chain of symbols that ends in the empty list or
in the name for all further arguments. A call pairs its arguments with the
names.

* `Formals.parse` — the parameter list that a value spells;
* `Formals.bindings` — what a call binds the positional names to;
* `Formals.surplus` — the arguments left for the last name.
-/

namespace MiniScheme.Formals

/-- Reads the rest of a parameter list after what was declared before it. -/
def parseOnto (f : Formals) (seenMarker : Bool) : Value → Except FormalsError Formals
  | .nil => .ok f
  | .symbol name => f.declareRest name
  | .pair _ (.symbol name) rest =>
    match f.declare seenMarker name with
    | .ok (f, seenMarker) => f.parseOnto seenMarker rest
    | .error e => .error e
  | .pair _ first _ => .error (.notSymbol first.text)
  | v => .error (.badTail v.text)

/-- The parameter list that a value spells. -/
def parse (v : Value) : Except FormalsError Formals := empty.parseOnto false v

/-- The positional names with their arguments; an optional one without an
argument is undefined. -/
def bindings (f : Formals) (args : List Value) : List (String × Value) :=
  f.positional.zip (args ++ List.replicate f.optional.length .undefined)

/-- The arguments after those for the positional names. -/
def surplus (f : Formals) (args : List Value) : List Value := args.drop f.positional.length

end MiniScheme.Formals
