import MiniScheme.Procedure.Arity

/-!
# Formal parameters

A parameter list has required names, optional names after the marker
`#!optional`, and possibly a name for the list of all further arguments.

* `Formals.declare` — one more name, which must be a new one;
* `Formals.arity` — the counts of arguments that fit;
* `Formals.text` — the written form.
-/

namespace MiniScheme

/-- A parsed parameter list. -/
structure Formals where
  required : List String
  optional : List String
  rest : Option String
  deriving DecidableEq

/-- Why something is no parameter list. The strings are names or written forms. -/
inductive FormalsError where
  | notSymbol (found : String)
  | repeatedMarker
  | duplicate (name : String)
  | badTail (found : String)
  deriving DecidableEq

namespace Formals

/-- The marker between required and optional names. -/
def optionalMarker : String := "#!optional"

/-- No parameters. -/
def empty : Formals := ⟨[], [], none⟩

/-- The names that take one argument each, in order. -/
def positional (f : Formals) : List String := f.required ++ f.optional

/-- All the names. -/
def names (f : Formals) : List String := f.positional ++ f.rest.toList

/-- The counts of arguments that fit. -/
def arity (f : Formals) : Arity :=
  match f.rest with
  | some _ => .atLeast f.required.length
  | none =>
    if f.optional = [] then .exactly f.required.length
    else .between f.required.length f.positional.length

/-! ## Declaring names -/

/-- Adds the next element of a parameter list, a name or the marker. The flag
says whether the marker has come. -/
def declare (f : Formals) (seenMarker : Bool) (name : String) :
    Except FormalsError (Formals × Bool) :=
  if name = optionalMarker then
    if seenMarker then .error .repeatedMarker else .ok (f, true)
  else if name ∈ f.names then .error (.duplicate name)
  else if seenMarker then .ok ({ f with optional := f.optional ++ [name] }, true)
  else .ok ({ f with required := f.required ++ [name] }, false)

/-- Adds the name for all further arguments. -/
def declareRest (f : Formals) (name : String) : Except FormalsError Formals :=
  if name ∈ f.names then .error (.duplicate name) else .ok { f with rest := some name }

/-- The parameter list with these elements, given what came before them. -/
def declareAll (f : Formals) (seenMarker : Bool) : List String → Except FormalsError Formals
  | [] => .ok f
  | name :: names =>
    match f.declare seenMarker name with
    | .ok (f, seenMarker) => f.declareAll seenMarker names
    | .error e => .error e

/-- The parameter list with these elements. -/
def ofNames (names : List String) : Except FormalsError Formals := empty.declareAll false names

/-! ## Writing -/

/-- The elements of the written list. -/
def elements (f : Formals) : List String :=
  if f.optional = [] then f.required else f.required ++ optionalMarker :: f.optional

/-- The written form. A lone name for all arguments stands without a list. -/
def text (f : Formals) : String :=
  match f.positional, f.rest with
  | [], some rest => rest
  | _, some rest => "(" ++ " ".intercalate f.elements ++ " . " ++ rest ++ ")"
  | _, none => "(" ++ " ".intercalate f.elements ++ ")"

end Formals

/-- The wording of a fault in a parameter list. -/
def FormalsError.message : FormalsError → String
  | .notSymbol found => "non-symbol parameter: " ++ found
  | .repeatedMarker => "repeated " ++ Formals.optionalMarker
  | .duplicate name => "duplicate parameter: " ++ name
  | .badTail found => "invalid parameter list tail: " ++ found

end MiniScheme
