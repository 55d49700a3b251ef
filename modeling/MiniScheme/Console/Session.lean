import MiniScheme.Console.Backspace
import MiniScheme.Console.Brackets
import MiniScheme.Program
import MiniScheme.Report

/-!
# Console sessions

A session reads its input line by line. Lines are gathered, and backspaces
applied to what is gathered, until its brackets are closed; that text is one
input, and its forms are evaluated in one global frame. The results are
displayed, each on a line, except those without a value. The word `exit` ends
the session, and so does the end of the input.

* `evalInput` — the evaluation of one input;
* `Session.feed` — one line;
* `runSession` — a whole session.
-/

namespace MiniScheme.Console

/-- What a session has to say besides its output. -/
inductive Complaint where
  | invalid (message : String)
  | report (r : Report)
  deriving DecidableEq

/-- How a session, or the evaluation of one input, ends. -/
inductive Ending where
  /-- The word `exit` was typed. -/
  | exit
  /-- The input has ended. -/
  | endOfInput
  /-- The scan of an input, or the erasure of its end, was cut off inside a
  character. -/
  | cutOff
  | outOfFuel
  deriving DecidableEq

/-- The wording of a complaint. -/
def Complaint.text : Complaint → String
  | invalid message => message
  | report r => r.text

/-- The exit code of a session. -/
def Ending.code : Ending → Nat
  | exit => 0
  | endOfInput => 0
  | cutOff => 101
  | outOfFuel => 101

/-- The name of the source in reports. -/
def sourceName : String := "REPL"

/-- The line that shows a result. -/
def resultLine : Value → String
  | .undefined => ""
  | v => v.text ++ "\n"

/-- The evaluation of one input: the machine it leaves, and a report, nothing,
or the end of it all. -/
structure InputRun where
  machine : Machine
  outcome : Except Ending (Option Report)

/-- Evaluates the forms of an input, and displays their results. -/
def evalInput (fuel : Nat) (env : FrameId) (m : Machine) (input : String) : InputRun :=
  match parseProgram input with
  | .error e =>
    if e.isCutOff then ⟨m, .error .cutOff⟩
    else ⟨m, .ok (some (.ofParseError sourceName input e))⟩
  | .ok program =>
    let run := runProgram .standard fuel env resultLine m program
    match run.stop with
    | none => ⟨run.machine, .ok none⟩
    | some (.failed _ e) => ⟨run.machine, .ok (some (.ofEvalError sourceName input e))⟩
    | some .outOfFuel => ⟨run.machine, .error .outOfFuel⟩

/-! ## Lines -/

/-- The state of a session: the machine, the gathered text, and the complaints
so far in reverse. -/
structure Session where
  machine : Machine
  gathered : List Char
  complaints : List Complaint

/-- The lines of an input, each with its line feed. -/
def rawLinesOnto (line : List Char) : List Char → List (List Char)
  | [] => if line = [] then [] else [line.reverse]
  | '\n' :: rest => ('\n' :: line).reverse :: rawLinesOnto [] rest
  | c :: rest => rawLinesOnto (c :: line) rest

/-- A text without the line feed at its end, or the carriage return and line
feed, and what was taken off. -/
def splitTerminator (text : List Char) : List Char × List Char :=
  match text.reverse with
  | '\n' :: '\r' :: before => (before.reverse, ['\r', '\n'])
  | '\n' :: before => (before.reverse, ['\n'])
  | _ => (text, [])

/-- Is the text the word that ends a session? -/
def isExit (text : List Char) : Bool := text.map Char.toLower = "exit".toList

namespace Session

/-- Adds a complaint. -/
def complain (s : Session) (complaint : Complaint) : Session :=
  { s with complaints := complaint :: s.complaints }

/-- Takes a complete input: the session afterwards, and its end if it has come. -/
def takeInput (fuel : Nat) (env : FrameId) (s : Session) (input : List Char) :
    Session × Option Ending :=
  let trimmed := trim input
  if trimmed = [] then ({ s with gathered := [] }, none)
  else if isExit trimmed then ({ s with gathered := [] }, some .exit)
  else
    let run := evalInput fuel env s.machine (.ofList trimmed)
    let s := { s with gathered := [], machine := run.machine }
    match run.outcome with
    | .ok none => (s, none)
    | .ok (some report) => (s.complain (.report report), none)
    | .error ending => (s, some ending)

/-- Takes a line: the session afterwards, and its end if it has come. -/
def feed (fuel : Nat) (env : FrameId) (s : Session) (line : List Char) : Session × Option Ending :=
  let (typed, terminator) := splitTerminator (s.gathered ++ line)
  match applyBackspaces? typed with
  | none => (s, some .cutOff)
  | some text =>
    match checkBrackets text with
    | .complete => s.takeInput fuel env text
    | .incomplete => ({ s with gathered := text ++ terminator }, none)
    | .unmatched bracket place =>
      ({ s with gathered := text }.complain (.invalid (unmatchedMessage bracket place)), none)

/-- The end of the input. Text that is still gathered is dropped. -/
def close (s : Session) : Session := { s with machine := s.machine.write "\nExiting.\n" }

/-- Takes lines until the session ends. -/
def feedAll (fuel : Nat) (env : FrameId) (s : Session) : List (List Char) → Session × Ending
  | [] => (s.close, .endOfInput)
  | line :: lines =>
    match s.feed fuel env line with
    | (s, none) => s.feedAll fuel env lines
    | (s, some ending) => (s, ending)

/-- What is displayed before the first line is read. -/
def banner : String :=
  "Scheval REPL v0.1.0\nType 'exit' or press Ctrl-D to quit.\nNo previous history.\n"

/-- The session before its first line, and its global frame. -/
def start : FrameId × Session :=
  let (env, m) := Machine.empty.addGlobal Builtin.standard
  (env, ⟨m.write banner, [], []⟩)

/-- What was displayed, the complaints, and the session without them. -/
def takeOutput (s : Session) : String × List Complaint × Session :=
  let (output, m) := s.machine.takeOutput
  (output, s.complaints.reverse, { s with machine := m, complaints := [] })

end Session

/-- A whole session: how it ended, what it displayed, and its complaints. -/
structure SessionRun where
  ending : Ending
  output : String
  complaints : List Complaint

/-- Runs a session on an input. -/
def runSession (fuel : Nat) (input : String) : SessionRun :=
  let (env, s) := Session.start
  let (s, ending) := s.feedAll fuel env (rawLinesOnto [] input.toList)
  let (output, complaints, _) := s.takeOutput
  ⟨ending, output, complaints⟩

end MiniScheme.Console
