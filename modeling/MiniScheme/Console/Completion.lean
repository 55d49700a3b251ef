import MiniScheme.Token.Scanner

/-!
# Completion

The console completes the symbol before the cursor. It reads what stands before
the cursor as tokens, and if the last of them is a symbol it offers what is
missing to every known name that begins with it, in the order of the names.
-/

namespace MiniScheme.Console

/-- The characters that make up the first so many bytes, if a character ends
there. -/
def takeBytes? : Nat → List Char → Option (List Char)
  | 0, _ => some []
  | _, [] => none
  | n, c :: rest =>
    if c.utf8Size ≤ n then (takeBytes? (n - c.utf8Size) rest).map (c :: ·) else none

/-- The symbol that is the last of some tokens. -/
def lastSymbol? (tokens : List Token) : Option String :=
  match tokens.getLast? with
  | some ⟨.symbol name, _⟩ => some name
  | _ => none

/-- What follows `start` in a name. -/
def missingPart? (start name : String) : Option String :=
  if start.toList.isPrefixOf name.toList then
    some (.ofList (name.toList.drop start.toList.length))
  else none

/-- What is missing to the names that begin with `start`. -/
def candidates (names : List String) (start : String) : List String :=
  (names.eraseDups.filterMap (missingPart? start)).mergeSort fun a b => a ≤ b

/-- What can be offered at a cursor, given in bytes. There is no answer where
the cursor stands inside a character or where the scan is cut off. -/
def complete? (names : List String) (line : String) (cursor : Nat) : Option (List String) := do
  let before ← takeBytes? cursor line.toList
  match tokenizeAt 0 before with
  | .ok tokens =>
    match lastSymbol? tokens with
    | some start => some (candidates names start)
    | none => some []
  | .error e => if e.fault = .brokenCharacter then none else some []

end MiniScheme.Console
