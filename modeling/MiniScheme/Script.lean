import MiniScheme.Program
import MiniScheme.Report

/-!
# Scripts

The command that runs a file: it evaluates the forms of the file in a populated
global frame and displays nothing by itself. Its exit code is 0 after the last
form, 1 if the file cannot be read or a form fails, and 2 without a file.
-/

namespace MiniScheme.Script

/-- Why a file cannot be read. -/
inductive ReadFailure where
  | notFound
  | isDirectory
  | notDirectory
  | nameTooLong
  | notUtf8
  /-- Another cause, in the words of the system. -/
  | system (message : String)
  deriving DecidableEq

/-- The wording of a cause. -/
def ReadFailure.message : ReadFailure → String
  | notFound => "No such file or directory (os error 2)"
  | isDirectory => "Is a directory (os error 21)"
  | notDirectory => "Not a directory (os error 20)"
  | nameTooLong => "File name too long (os error 36)"
  | notUtf8 => "stream did not contain valid UTF-8"
  | system message => message

/-- The cause that the system knows by this number. -/
def ReadFailure.ofNumber? : Nat → Option ReadFailure
  | 2 => some notFound
  | 20 => some notDirectory
  | 21 => some isDirectory
  | 36 => some nameTooLong
  | _ => none

/-- What is written to the error output. -/
inductive Diagnostic where
  | text (s : String)
  | report (r : Report)
  deriving DecidableEq

/-- The end of a script: it exits, or it is cut off. -/
inductive Ending where
  | exit (code : Nat) (diagnostic : Diagnostic)
  /-- The scan of the file was cut off. -/
  | cutOff
  | outOfFuel
  deriving DecidableEq

/-- The exit code of a script. A run that is cut off leaves that of a crash. -/
def Ending.code : Ending → Nat
  | exit code _ => code
  | cutOff => 101
  | outOfFuel => 101

/-- What a script writes to the error output when it ends. -/
def Ending.errorText : Ending → String
  | exit _ (.text s) => s
  | exit _ (.report r) => r.text
  | cutOff => ""
  | outOfFuel => ""

/-- What a script displays and how it ends. -/
structure Run where
  output : String
  ending : Ending
  deriving DecidableEq

/-- How to use the command. -/
def usage : String :=
  "usage: scheval <file.scm>\n       (run `repl` for an interactive session)\n"

/-- What is said about a form that fails. -/
def failureText (form : Datum) (e : EvalError) : String :=
  "Error: " ++ e.message ++ "\n  while evaluating: " ++ form.text ++ "\n"

/-- Runs the text of a file. -/
def runSource (fuel : Nat) (path source : String) : Run :=
  match parseProgram source with
  | .error e =>
    if e.isCutOff then ⟨"", .cutOff⟩
    else ⟨"", .exit 1 (.report (.ofParseError path source e))⟩
  | .ok program =>
    let (env, m) := Machine.empty.addGlobal Builtin.standard
    let run := runProgram .standard fuel env noEcho m program
    let ending := match run.stop with
      | none => .exit 0 (.text "")
      | some (.failed form e) => .exit 1 (.text (failureText form e))
      | some .outOfFuel => .outOfFuel
    ⟨run.machine.output, ending⟩

/-- The text of a file. -/
def decode (contents : Except ReadFailure ByteArray) : Except ReadFailure String :=
  match contents with
  | .error failure => .error failure
  | .ok bytes =>
    match String.fromUTF8? bytes with
    | some source => .ok source
    | none => .error .notUtf8

/-- Runs what was found at a path. -/
def runFile (fuel : Nat) (path : String) (contents : Except ReadFailure ByteArray) : Run :=
  match decode contents with
  | .error failure =>
    ⟨"", .exit 1 (.text ("Error: cannot read " ++ path ++ ": " ++ failure.message ++ "\n"))⟩
  | .ok source => runSource fuel path source

/-- The run without a file. -/
def runNothing : Run := ⟨"", .exit 2 (.text usage)⟩

end MiniScheme.Script
