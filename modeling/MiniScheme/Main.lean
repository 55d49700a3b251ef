import MiniScheme.Console.Session
import MiniScheme.Script

/-!
# The commands

Two commands read programs: `main` runs the file that its first argument names,
and `consoleMain` holds a session over the standard input. What they do is
decided elsewhere; here the input is fetched and the output written.
-/

namespace MiniScheme

/-- More steps than any run can take. -/
def ampleFuel : Nat := 1000000000000000000

/-- The cause of a failure to read. The system's numbers may come negated. -/
def readFailure (e : IO.Error) : Script.ReadFailure :=
  let number? : Option UInt32 := match e with
    | .noFileOrDirectory _ code _ => some code
    | .inappropriateType _ code _ => some code
    | .invalidArgument _ code _ => some code
    | _ => none
  let cause? := number?.bind fun code =>
    Script.ReadFailure.ofNumber? (min code.toNat (-code).toNat)
  cause?.getD (.system (toString e))

/-- What is found at a path. -/
def readPath (path : String) : IO (Except Script.ReadFailure ByteArray) := do
  try
    return .ok (← IO.FS.readBinFile path)
  catch e =>
    return .error (readFailure e)

/-- Writes what a script has to say, and gives its exit code. -/
def finishScript (run : Script.Run) : IO UInt32 := do
  IO.print run.output
  IO.eprint run.ending.errorText
  return .ofNat run.ending.code

/-- Writes what a session has to say so far. -/
def flushSession (s : Console.Session) : IO Console.Session := do
  let (output, complaints, s) := s.takeOutput
  IO.print output
  for complaint in complaints do
    IO.eprint complaint.text
  return s

/-- Hands the lines of the standard input to a session until it ends. -/
partial def converse (env : FrameId) (s : Console.Session) : IO UInt32 := do
  let s ← flushSession s
  let line ← (← IO.getStdin).getLine
  if line.isEmpty then
    let _ ← flushSession s.close
    return .ofNat Console.Ending.endOfInput.code
  else
    match s.feed ampleFuel env line.toList with
    | (s, none) => converse env s
    | (s, some ending) =>
      let _ ← flushSession s
      return .ofNat ending.code

/-- Holds a session over the standard input. -/
def consoleMain : IO UInt32 :=
  let (env, s) := Console.Session.start
  converse env s

end MiniScheme

/-- Runs the file that the first argument names. -/
def main (args : List String) : IO UInt32 := do
  match args with
  | [] => MiniScheme.finishScript MiniScheme.Script.runNothing
  | path :: _ =>
    let contents ← MiniScheme.readPath path
    MiniScheme.finishScript (MiniScheme.Script.runFile MiniScheme.ampleFuel path contents)
