import MiniScheme.Datum.Reader
import MiniScheme.Eval.Run

/-!
# Programs

A program is a row of data that are evaluated one after the other in one frame.
The first failure ends it.
-/

namespace MiniScheme

/-- What ended a program before its last form. -/
inductive Stop where
  | failed (form : Datum) (e : EvalError)
  | outOfFuel
  deriving DecidableEq

/-- The values of the forms that succeeded, what stopped the program, and the
machine it leaves. -/
structure ProgramRun where
  values : List Value
  stop : Option Stop
  machine : Machine

/-- Runs a program in a frame; `echo` is displayed after every form. -/
def runProgram (forms : FormTable) (fuel : Nat) (env : FrameId) (echo : Value → String)
    (m : Machine) : List Datum → ProgramRun
  | [] => ⟨[], none, m⟩
  | d :: ds =>
    let (expr, m) := m.load d
    match evaluate forms fuel expr env m with
    | .value v m =>
      let run := runProgram forms fuel env echo (m.write (echo v)) ds
      { run with values := v :: run.values }
    | .failure e m => ⟨[], some (.failed d e), m⟩
    | .outOfFuel => ⟨[], some .outOfFuel, m⟩

/-- A program that displays nothing by itself. -/
def noEcho (_ : Value) : String := ""

end MiniScheme
