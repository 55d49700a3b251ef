import MiniScheme.Eval.Task

/-!
# Quasiquotation

A template is copied, except that what is unquoted at the outermost level is
evaluated in its place. A quasiquote inside the template opens a further level
and an unquote closes one; the level of the template itself is 1.

* `checkOperands` — the operands of a form as a list of the right length;
* `expandTemplate` — the copy.
-/

namespace MiniScheme

/-- The operands of a form: a proper list with at least `min` items and, where
there is a bound, at most `max`. -/
def checkOperands (form : Form) (operands : Value) (min : Nat) (max : Option Nat) :
    Except EvalError (List Value) :=
  match operands.toList? with
  | none => .error (.invalidForm form (.badlyFormed operands.text))
  | some items =>
    if items.length < min then .error (.invalidForm form (.tooFew operands.text))
    else if max.any (· < items.length) then .error (.invalidForm form (.tooMany operands.text))
    else .ok items

/-- The only operand of a form. -/
def onlyOperand (form : Form) (operands : Value) : Except EvalError Value := do
  match ← checkOperands form operands 1 (some 1) with
  | operand :: _ => .ok operand
  | [] => .error (.invalidForm form (.tooFew operands.text))

/-- The operands of a spliced element, if the value is one. -/
def splicedOperands? : Value → Option Value
  | .pair _ (.symbol "unquote-splicing") operands => some operands
  | _ => none

/-- Copies a template at a level. -/
def expandTemplate (run : Runner) (env : FrameId) (level : Nat) : Value → Eval Value
  | .pair _ first rest =>
    match first with
    | .symbol "unquote" =>
      match level with
      | 0 => Eval.fail .negativeLevel
      | 1 => do
        let operand ← Eval.ofExcept (onlyOperand .unquote rest)
        run (.eval operand env)
      | outer + 1 => do
        let rest ← expandTemplate run env outer rest
        Eval.makePair first rest
    | .symbol "quasiquote" => do
      let rest ← expandTemplate run env (level + 1) rest
      Eval.makePair first rest
    | first =>
      match level, splicedOperands? first with
      | 1, some operands => do
        let operand ← Eval.ofExcept (onlyOperand .unquoteSplicing operands)
        let v ← run (.eval operand env)
        match v.toList? with
        | none =>
          Eval.fail (.typeMismatch Form.unquoteSplicing.keyword .list v.text)
        | some items => do
          let rest ← expandTemplate run env level rest
          Eval.makeChain items rest
      | _, _ => do
        let first ← expandTemplate run env level first
        let rest ← expandTemplate run env level rest
        Eval.makePair first rest
  | v => pure v

end MiniScheme
