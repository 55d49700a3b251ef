import MiniScheme.Eval.Form
import MiniScheme.Procedure.Formals

/-!
# Evaluation errors

The causes for which an evaluation fails, and their wording. Where a cause is
about a value or an expression, it keeps its text.
-/

namespace MiniScheme

/-- What is wrong with the operands of a special form. -/
inductive FormFault where
  /-- The operands are no list. -/
  | badlyFormed (operands : String)
  | tooFew (operands : String)
  | tooMany (operands : String)
  /-- Something else stands where a name belongs. -/
  | notSymbol (found : String)
  | parameters (e : FormalsError)
  | badBindings (found : String)
  | improperSignature (operands : String)
  | elseNotLast
  | outsideQuasiquote
  deriving DecidableEq

/-- The wording of a fault in a special form. -/
def FormFault.message : FormFault → String
  | badlyFormed operands => "badly formed expression: " ++ operands
  | tooFew operands => "too few operands in form: " ++ operands
  | tooMany operands => "too many operands in form: " ++ operands
  | notSymbol found => "non-symbol: " ++ found
  | parameters e => e.message
  | badBindings found => "bad bindings list: " ++ found
  | improperSignature operands => "improper form for define-macro: " ++ operands
  | elseNotLast => "else must be last"
  | outsideQuasiquote => "unquote outside of quasiquote"

/-- What a built-in procedure needs an argument to be. -/
inductive Required where
  | number
  | pair
  | list
  | environment
  deriving DecidableEq

/-- The wording of a requirement. -/
def Required.text : Required → String
  | number => "number"
  | pair => "pair"
  | list => "list"
  | environment => "environment"

/-- Why an evaluation fails. -/
inductive EvalError where
  | unboundVariable (name : String)
  /-- The arguments do not fit the parameters of a frame. -/
  | wrongCount (formals : Formals) (given : Nat)
  | malformed (found : String)
  | emptyBody (found : String)
  | notCallable (found : String)
  /-- The arguments do not fit a procedure. -/
  | wrongArguments (procedure : String) (expected : Arity) (given : Nat)
  | invalidForm (form : Form) (fault : FormFault)
  | typeMismatch (procedure : String) (expected : Required) (found : String)
  | divisionByZero
  | raised (message : String)
  /-- A built-in procedure was run with fewer arguments than it looks at. -/
  | missingArgument (procedure : String)
  /-- A quasiquoted template was left by more unquotes than quasiquotes. -/
  | negativeLevel
  deriving DecidableEq

namespace EvalError

/-- The wording of an evaluation error. -/
def message : EvalError → String
  | unboundVariable name => "Unbound variable: '" ++ name ++ "'"
  | wrongCount formals given =>
    "expected " ++ formals.arity.text ++ " argument(s) for formals " ++ formals.text ++ ", got " ++
      toString given
  | malformed found => "malformed list: " ++ found
  | emptyBody found => "malformed list: expected a non-empty body, got " ++ found
  | notCallable found => "cannot call: " ++ found
  | wrongArguments procedure expected given =>
    "incorrect number of arguments to " ++ procedure ++ ": expected " ++ expected.text ++
      ", got " ++ toString given
  | invalidForm form fault => "invalid special form: " ++ form.keyword ++ ": " ++ fault.message
  | typeMismatch procedure expected found =>
    procedure ++ ": expected " ++ expected.text ++ ", got " ++ found
  | divisionByZero => "division by zero"
  | raised message => message
  | missingArgument procedure => "missing argument to " ++ procedure
  | negativeLevel => "unquote level below zero"

/-- Is the failure one of the evaluator itself and not of the program? -/
def isInternal : EvalError → Bool
  | missingArgument _ => true
  | negativeLevel => true
  | _ => false

end EvalError
end MiniScheme
