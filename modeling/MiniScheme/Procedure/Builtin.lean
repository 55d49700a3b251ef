import MiniScheme.Procedure.Arity

/-!
# Built-in procedures

What the built-in procedures are, without what they do: their operations, and
the table of those that a populated global frame binds.
-/

namespace MiniScheme

/-- The orders between neighbouring arguments. -/
inductive Comparison where
  | equal
  | less
  | lessOrEqual
  | greater
  | greaterOrEqual
  deriving DecidableEq

/-- The questions about one value that have a yes or no for every value. -/
inductive Question where
  | isFalse
  | isNull
  | isPair
  | isList
  | isNumber
  | isInteger
  | isBoolean
  | isSymbol
  | isString
  | isProcedure
  deriving DecidableEq

/-- What a built-in procedure does. -/
inductive Operation where
  | add
  | subtract
  | multiply
  | divide
  | absolute
  | quotient
  | remainder
  | modulo
  | compare (c : Comparison)
  | isZero
  | identical
  | equal
  | ask (q : Question)
  | cons
  | first
  | rest
  | list
  | length
  | append
  | display
  | print
  | newline
  | raise
  | evaluate
  | apply
  deriving DecidableEq

/-- A built-in procedure. If it takes the environment, the one it is called
from is added to its arguments as the last one, and its arity counts it. -/
structure Builtin where
  name : String
  arity : Arity
  takesEnvironment : Bool
  operation : Operation
  deriving DecidableEq

namespace Builtin

/-- A built-in procedure that does not take the environment. -/
def plain (name : String) (arity : Arity) (operation : Operation) : Builtin :=
  ⟨name, arity, false, operation⟩

/-- The procedures that a populated global frame binds to their names. -/
def standard : List Builtin :=
  [ plain "+" (.atLeast 0) .add,
    plain "-" (.atLeast 1) .subtract,
    plain "*" (.atLeast 0) .multiply,
    plain "/" (.atLeast 1) .divide,
    plain "abs" (.exactly 1) .absolute,
    plain "quotient" (.exactly 2) .quotient,
    plain "remainder" (.exactly 2) .remainder,
    plain "modulo" (.exactly 2) .modulo,
    plain "=" (.atLeast 2) (.compare .equal),
    plain "<" (.atLeast 2) (.compare .less),
    plain "<=" (.atLeast 2) (.compare .lessOrEqual),
    plain ">" (.atLeast 2) (.compare .greater),
    plain ">=" (.atLeast 2) (.compare .greaterOrEqual),
    plain "eq?" (.exactly 2) .identical,
    plain "equal?" (.exactly 2) .equal,
    plain "not" (.exactly 1) (.ask .isFalse),
    plain "cons" (.exactly 2) .cons,
    plain "car" (.exactly 1) .first,
    plain "cdr" (.exactly 1) .rest,
    plain "list" (.atLeast 0) .list,
    plain "length" (.exactly 1) .length,
    plain "append" (.atLeast 0) .append,
    plain "null?" (.exactly 1) (.ask .isNull),
    plain "pair?" (.exactly 1) (.ask .isPair),
    plain "list?" (.exactly 1) (.ask .isList),
    plain "number?" (.exactly 1) (.ask .isNumber),
    plain "integer?" (.exactly 1) (.ask .isInteger),
    plain "zero?" (.exactly 1) .isZero,
    plain "boolean?" (.exactly 1) (.ask .isBoolean),
    plain "symbol?" (.exactly 1) (.ask .isSymbol),
    plain "string?" (.exactly 1) (.ask .isString),
    plain "procedure?" (.exactly 1) (.ask .isProcedure),
    plain "display" (.exactly 1) .display,
    plain "print" (.exactly 1) .print,
    plain "newline" (.exactly 0) .newline,
    plain "error" (.between 0 1) .raise,
    ⟨"eval", .exactly 2, true, .evaluate⟩,
    ⟨"apply", .exactly 3, true, .apply⟩ ]

end Builtin
end MiniScheme
