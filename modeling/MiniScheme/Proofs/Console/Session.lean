import MiniScheme.Proofs.Console.Offers
import MiniScheme.Proofs.Console.Verdicts

/-!
# Whole sessions

A line is put behind what has been gathered, the line feed is taken off, and the backspaces
are applied. The brackets of that text decide: it is gathered, or complained about, or it is an
input, which is evaluated unless it is blank or ends the session. So what is known about
`checkBrackets` and `evalInput` holds along a whole session.

What is gathered between two lines is never complete. The machine is one that comes from
programs. What is complained about is a bracket that closes nothing, or an error in an input
all of whose brackets are closed, and never a failure within the evaluator. After a bracket that
closes nothing, no line helps but one with a backspace in it.

* `runProgram_obeys`, `evalInput_trusted`, `evalInput_report` — the evaluation of one input;
* `Session.Takes`, `Session.feed_takes` — all that a line can bring about;
* `Session.Sound` with `Sound.takes` and `Sound.feedAll` — what a line keeps, and hence any
  number of lines: `session_sound`, `runSession_justified`;
* `Session.feedAll_of_incomplete` — lines that are gathered, and `Session.feedAll_of_unmatched` —
  lines after a bracket that closes nothing;
* `Session.feedAll_cutOff_iff`, `runSession_not_cutOff` — sessions that are cut off, and those
  that cannot be.
-/

namespace MiniScheme

open Console

/-! ## The evaluation of one input -/

/-- What a session relies on about its machine: it comes from programs and obeys their regime,
and the global frame has been made. -/
structure Trusted (env : FrameId) (m : Machine) : Prop where
  fromPrograms : FromPrograms m
  obeys : m.Obeys .programs
  made : env < m.frames.size

/-- Running a program keeps the machine within the regime of programs, and if a form fails, the
failure is none of the evaluator itself. -/
theorem runProgram_obeys (forms : FormTable) (fuel : Nat) {env : FrameId} (echo : Value → String)
    {m : Machine} (hm : m.Obeys .programs) (hEnv : env < m.frames.size) (ds : List Datum) :
    (runProgram forms fuel env echo m ds).machine.Obeys .programs ∧
      m.frames.size ≤ (runProgram forms fuel env echo m ds).machine.frames.size ∧
      ∀ d e, (runProgram forms fuel env echo m ds).stop = some (.failed d e) →
        e.breaksContract = false := by
  induction ds generalizing m with
  | nil =>
    refine ⟨hm, Nat.le_refl _, fun d e hStop => ?_⟩
    cases hStop
  | cons d ds ih =>
    have hLoad : (m.load d).2.Obeys .programs := hm.of_frames_eq rfl
    have hExpr : (m.load d).1.Obeys .programs (m.load d).2.frames.size :=
      .ofDatum m.nextStamp d
    have hFollow := Contracts.none_followFrom .programs
    have hKeeps := (runTask_obeys hFollow .negativeLevel forms fuel hLoad (.eval hExpr hEnv)).2
    rw [runProgram]
    simp only [evaluate]
    generalize runTask forms fuel (.eval (m.load d).1 env) (m.load d).2 = answer at hKeeps
    cases hKeeps with
    | @value v n hGrows hObeys hValue =>
      -- the forms that are left begin in the machine in which this one has ended
      have hMade : env < (n.write (echo v)).frames.size :=
        Nat.lt_of_lt_of_le hEnv hGrows.size_le
      have hShown : (n.write (echo v)).Obeys .programs := hObeys.of_frames_eq rfl
      obtain ⟨hRest, hSize, hFailed⟩ := ih hShown hMade
      exact ⟨hRest, Nat.le_trans hGrows.size_le hSize, hFailed⟩
    | @failure e n hGrows hObeys hFailure =>
      refine ⟨hObeys, hGrows.size_le, fun d' e' hStop => ?_⟩
      cases hStop
      exact hFailure
    | outOfFuel =>
      refine ⟨hLoad, Nat.le_refl _, fun d' e hStop => ?_⟩
      cases hStop

namespace Console

/-- What a session complains about. -/
inductive Complaint.Justified : Complaint → Prop
  /-- A bracket that closes nothing. -/
  | unmatched {text : List Char} {bracket : Char} {place : Nat}
      (hVerdict : checkBrackets text = .unmatched bracket place) :
      Justified (.invalid (unmatchedMessage bracket place))
  /-- An input, all of whose brackets are closed, that the reader does not accept. No parenthesis
  is missing to it, if its comments would do by themselves. -/
  | unread {input : String} {e : ParseError} (hVerdict : checkBrackets input.toList = .complete)
      (hParse : parseProgram input = .error e) (hAnswer : e.isCutOff = false)
      (hClosed : (∀ comment ∈ comments input, checkBrackets comment = .complete) →
        ∀ opening, e ≠ .unexpectedEnd (.close opening)) :
      Justified (.report (.ofParseError sourceName input e))
  /-- Or one of whose forms fails, and not for a reason within the evaluator. -/
  | failed {input : String} {e : EvalError} (hVerdict : checkBrackets input.toList = .complete)
      (hOrdinary : e.breaksContract = false) :
      Justified (.report (.ofEvalError sourceName input e))

section Input
variable (fuel : Nat) {env : FrameId} {m : Machine} (h : Trusted env m) (input : String)
include h

/-- The machine that an input leaves can be relied on as before. -/
theorem evalInput_trusted : Trusted env (evalInput fuel env m input).machine := by
  unfold evalInput
  cases hParse : parseProgram input with
  | error e =>
    simp only
    split <;> exact h
  | ok program =>
    have hRead : ∀ d ∈ program, d.Produced := fun d hMem => ⟨input, .inr ⟨program, hParse, hMem⟩⟩
    obtain ⟨hObeys, hSize, -⟩ :=
      runProgram_obeys .standard fuel resultLine h.obeys h.made program
    have hAfter : Trusted env (runProgram .standard fuel env resultLine m program).machine :=
      ⟨h.fromPrograms.program hRead .standard fuel env resultLine, hObeys,
        Nat.lt_of_lt_of_le h.made hSize⟩
    simp only
    split <;> exact hAfter

/-- What is reported of a complete input is justified. -/
theorem evalInput_report {report : Report} (hVerdict : checkBrackets input.toList = .complete)
    (hOutcome : (evalInput fuel env m input).outcome = .ok (some report)) :
    Complaint.Justified (.report report) := by
  unfold evalInput at hOutcome
  -- The reader has something to report, or some form of the program fails.
  cases hParse : parseProgram input with
  | error e =>
    rw [hParse] at hOutcome
    by_cases hCutOff : e.isCutOff
    · simp [hCutOff] at hOutcome
    · have hAnswer : e.isCutOff = false := Bool.eq_false_iff.mpr hCutOff
      simp only [hAnswer, Bool.false_eq_true, if_false] at hOutcome
      cases hOutcome
      refine .unread hVerdict hParse hAnswer fun hComments opening hMissing => ?_
      rw [hMissing] at hParse
      exact not_complete_of_unclosed hComments hParse hVerdict
  | ok program =>
    rw [hParse] at hOutcome
    obtain ⟨-, -, hFailed⟩ := runProgram_obeys .standard fuel resultLine h.obeys h.made program
    simp only at hOutcome
    split at hOutcome
    · cases hOutcome
    · rename_i d e hStop
      cases hOutcome
      exact .failed hVerdict (hFailed d e hStop)
    · cases hOutcome

end Input

namespace Session

/-! ## What a line does -/

variable {fuel : Nat} {env : FrameId} {s s' : Session} {line text : List Char}
  {lines : List (List Char)} {ending : Ending}

/-- What stands in hand with one more line. -/
def typed (s : Session) (line : List Char) : List Char := (splitTerminator (s.gathered ++ line)).1

/-- The line feed that was taken off. -/
def terminator (s : Session) (line : List Char) : List Char :=
  (splitTerminator (s.gathered ++ line)).2

/-- All that a line can bring about: the session afterwards, and its end if it has come. -/
inductive Takes (fuel : Nat) (env : FrameId) (s : Session) (line : List Char) :
    Session → Option Ending → Prop
  /-- A backspace takes away a part of a character. -/
  | broken (hText : applyBackspaces? (s.typed line) = none) :
      Takes fuel env s line s (some .cutOff)
  | gathered {text : List Char} (hText : applyBackspaces? (s.typed line) = some text)
      (hVerdict : checkBrackets text = .incomplete) :
      Takes fuel env s line { s with gathered := text ++ s.terminator line } none
  | unmatched {text : List Char} {bracket : Char} {place : Nat}
      (hText : applyBackspaces? (s.typed line) = some text)
      (hVerdict : checkBrackets text = .unmatched bracket place) :
      Takes fuel env s line
        ({ s with gathered := text }.complain (.invalid (unmatchedMessage bracket place))) none
  | blank {text : List Char} (hText : applyBackspaces? (s.typed line) = some text)
      (hVerdict : checkBrackets text = .complete) (hBlank : trim text = []) :
      Takes fuel env s line { s with gathered := [] } none
  | exit {text : List Char} (hText : applyBackspaces? (s.typed line) = some text)
      (hVerdict : checkBrackets text = .complete) (hExit : isExit (trim text)) :
      Takes fuel env s line { s with gathered := [] } (some .exit)
  | evaluated {text : List Char} {run : InputRun}
      (hText : applyBackspaces? (s.typed line) = some text)
      (hVerdict : checkBrackets text = .complete)
      (hRun : evalInput fuel env s.machine (.ofList (trim text)) = run)
      (hOutcome : run.outcome = .ok none) :
      Takes fuel env s line { s with gathered := [], machine := run.machine } none
  | reported {text : List Char} {run : InputRun} {report : Report}
      (hText : applyBackspaces? (s.typed line) = some text)
      (hVerdict : checkBrackets text = .complete)
      (hRun : evalInput fuel env s.machine (.ofList (trim text)) = run)
      (hOutcome : run.outcome = .ok (some report)) :
      Takes fuel env s line
        ({ s with gathered := [], machine := run.machine }.complain (.report report)) none
  | ended {text : List Char} {run : InputRun} {ending : Ending}
      (hText : applyBackspaces? (s.typed line) = some text)
      (hVerdict : checkBrackets text = .complete)
      (hRun : evalInput fuel env s.machine (.ofList (trim text)) = run)
      (hOutcome : run.outcome = .error ending) :
      Takes fuel env s line { s with gathered := [], machine := run.machine } (some ending)

/-- A line whose backspaces have nothing to take away cuts the session off. -/
theorem feed_of_none (hText : applyBackspaces? (s.typed line) = none) :
    s.feed fuel env line = (s, some .cutOff) := by
  rw [typed] at hText
  simp only [feed, hText]

/-- Any other line goes to the verdict: a complete input is run, and an incomplete one is gathered
with the end of the line. -/
theorem feed_of_some (hText : applyBackspaces? (s.typed line) = some text) :
    s.feed fuel env line =
      match checkBrackets text with
      | .complete => s.takeInput fuel env text
      | .incomplete => ({ s with gathered := text ++ s.terminator line }, none)
      | .unmatched bracket place =>
        ({ s with gathered := text }.complain (.invalid (unmatchedMessage bracket place)),
          none) := by
  rw [typed] at hText
  simp only [feed, hText]
  rfl

/-- A line brings about one of these. -/
theorem feed_takes (fuel : Nat) (env : FrameId) (s : Session) (line : List Char) :
    Takes fuel env s line (s.feed fuel env line).1 (s.feed fuel env line).2 := by
  cases hText : applyBackspaces? (s.typed line) with
  | none =>
    rw [feed_of_none hText]
    exact .broken hText
  | some text =>
    rw [feed_of_some hText]
    -- A complete input may still be blank or the word that ends the session.
    cases hVerdict : checkBrackets text with
    | incomplete => exact .gathered hText hVerdict
    | unmatched bracket place => exact .unmatched hText hVerdict
    | complete =>
      simp only [takeInput]
      by_cases hBlank : trim text = []
      · rw [if_pos hBlank]
        exact .blank hText hVerdict hBlank
      · rw [if_neg hBlank]
        by_cases hExit : isExit (trim text)
        · rw [if_pos hExit]
          exact .exit hText hVerdict hExit
        · rw [if_neg hExit]
          generalize hRun : evalInput fuel env s.machine (.ofList (trim text)) = run
          cases hOutcome : run.outcome with
          | error ending =>
            exact .ended hText hVerdict hRun hOutcome
          | ok report =>
            cases report with
            | none => exact .evaluated hText hVerdict hRun hOutcome
            | some report => exact .reported hText hVerdict hRun hOutcome

/-! ## What lines keep -/

/-- What is so of a session between any two lines. -/
structure Sound (env : FrameId) (s : Session) : Prop where
  trusted : Trusted env s.machine
  /-- What would be complete is not held back. -/
  gathered : s.gathered = [] ∨ checkBrackets s.gathered ≠ .complete
  complaints : ∀ complaint ∈ s.complaints, complaint.Justified

/-- Line feeds and carriage returns are taken off the end of a text. -/
theorem splitTerminator_append (text : List Char) :
    (splitTerminator text).1 ++ (splitTerminator text).2 = text ∧
      ∀ c ∈ (splitTerminator text).2, isWhiteSpace c := by
  unfold splitTerminator
  split
  · rename_i before hReverse
    refine ⟨?_, by simp [isWhiteSpace]⟩
    rw [← List.reverse_reverse text, hReverse]
    simp
  · rename_i before hReverse
    refine ⟨?_, by simp [isWhiteSpace]⟩
    rw [← List.reverse_reverse text, hReverse]
    simp
  · exact ⟨List.append_nil text, nofun⟩

/-- The end of the line is kept on one side or the other, and never lost. -/
theorem typed_append_terminator (s : Session) (line : List Char) :
    s.typed line ++ s.terminator line = s.gathered ++ line :=
  (splitTerminator_append _).1

theorem terminator_blank (s : Session) (line : List Char) :
    ∀ c ∈ s.terminator line, isWhiteSpace c :=
  (splitTerminator_append _).2

/-- What is left of a complete text without the blanks around it is the input. -/
theorem complete_input (hVerdict : checkBrackets text = .complete) :
    checkBrackets (String.ofList (trim text)).toList = .complete := by
  rw [String.toList_ofList]
  exact checkBrackets_trim hVerdict

/-- **Lines.** A line keeps a session sound, whatever it brings about. -/
theorem Sound.takes {next : Option Ending} (h : s.Sound env)
    (hTakes : Takes fuel env s line s' next) : s'.Sound env := by
  obtain ⟨hTrusted, hGathered, hComplaints⟩ := h
  cases hTakes with
  | broken hText => exact ⟨hTrusted, hGathered, hComplaints⟩
  | @gathered text hText hVerdict =>
    -- the terminator that is put back does not complete it
    refine ⟨hTrusted, .inr ?_, hComplaints⟩
    rw [checkBrackets_append_blanks (s.terminator_blank line), hVerdict]
    exact nofun
  | @unmatched text bracket place hText hVerdict =>
    refine ⟨hTrusted, .inr ?_, List.forall_mem_cons.mpr ⟨.unmatched hVerdict, hComplaints⟩⟩
    rw [complain, hVerdict]
    exact nofun
  | blank hText hVerdict hBlank => exact ⟨hTrusted, .inl rfl, hComplaints⟩
  | exit hText hVerdict hExit => exact ⟨hTrusted, .inl rfl, hComplaints⟩
  | evaluated hText hVerdict hRun hOutcome =>
    subst hRun
    exact ⟨evalInput_trusted fuel hTrusted _, .inl rfl, hComplaints⟩
  | @reported text run report hText hVerdict hRun hOutcome =>
    subst hRun
    have hReport := evalInput_report fuel hTrusted _ (complete_input hVerdict) hOutcome
    exact ⟨evalInput_trusted fuel hTrusted _, .inl rfl,
      List.forall_mem_cons.mpr ⟨hReport, hComplaints⟩⟩
  | ended hText hVerdict hRun hOutcome =>
    subst hRun
    exact ⟨evalInput_trusted fuel hTrusted _, .inl rfl, hComplaints⟩

/-- A line keeps a session sound. -/
theorem Sound.feed (h : s.Sound env) (fuel : Nat) (line : List Char) :
    (s.feed fuel env line).1.Sound env :=
  h.takes (feed_takes fuel env s line)

/-- The end of the input is announced, and nothing else happens. -/
theorem Sound.close (h : s.Sound env) : s.close.Sound env :=
  ⟨⟨h.trusted.fromPrograms.displayed _, h.trusted.obeys.of_frames_eq rfl, h.trusted.made⟩,
    h.gathered, h.complaints⟩

/-- **Runs.** However many lines there are, they keep a session sound. -/
theorem Sound.feedAll (h : s.Sound env) (lines : List (List Char)) :
    (s.feedAll fuel env lines).1.Sound env := by
  induction lines generalizing s with
  | nil => exact h.close
  | cons line lines ih =>
    have hNext := h.feed fuel line
    unfold Session.feedAll
    generalize s.feed fuel env line = result at hNext
    obtain ⟨s₁, ending⟩ := result
    cases ending with
    | none => exact ih hNext
    | some ending => exact hNext

/-- A session begins with a populated global frame, and with nothing in hand. -/
theorem start_sound : start.2.Sound start.1 where
  trusted := by
    refine ⟨.displayed (.global .empty) _, ?_, by decide⟩
    have hPopulated : Machine.populated.Obeys .programs :=
      Machine.populated_obeys fun b hMem => hMem
    exact hPopulated.of_frames_eq rfl
  gathered := .inl rfl
  complaints := nofun

end Session

/-- **Sessions are sound.** After any lines the machine of a session comes from programs and
obeys their regime, what is gathered is not complete, and the session has complained of nothing
but brackets that close nothing, complete inputs that the reader does not accept, and failures
of programs. -/
theorem session_sound (fuel : Nat) (lines : List (List Char)) :
    (Session.start.2.feedAll fuel Session.start.1 lines).1.Sound Session.start.1 :=
  Session.start_sound.feedAll lines

/-- A session complains of nothing else. -/
theorem runSession_justified (fuel : Nat) (input : String) :
    ∀ complaint ∈ (runSession fuel input).complaints, complaint.Justified := by
  intro complaint hMem
  exact (session_sound fuel (rawLinesOnto [] input.toList)).complaints complaint
    (List.mem_reverse.mp hMem)

namespace Session

variable {fuel : Nat} {env : FrameId} {s s' : Session} {line text : List Char}
  {lines : List (List Char)}

/-! ## Lines in hand -/

/-- What is typed was gathered before or stands on the line. -/
theorem mem_of_mem_typed {c : Char} (h : c ∈ s.typed line) : c ∈ s.gathered ∨ c ∈ line := by
  have hMem : c ∈ s.typed line ++ s.terminator line := List.mem_append_left _ h
  rw [typed_append_terminator] at hMem
  exact List.mem_append.mp hMem

/-- Without backspaces a text is looked at as it is typed. -/
theorem applyBackspaces?_typed (hGathered : backspace ∉ s.gathered) (hLine : backspace ∉ line) :
    applyBackspaces? (s.typed line) = some (s.typed line) :=
  if_neg fun hMem => (mem_of_mem_typed hMem).elim hGathered hLine

/-- What is in hand has the verdict of what is typed, with or without its line feed. -/
theorem checkBrackets_typed (s : Session) (line : List Char) :
    checkBrackets (s.typed line) = checkBrackets (s.gathered ++ line) := by
  rw [← typed_append_terminator, checkBrackets_append_blanks (s.terminator_blank line)]

/-- After a line that ends nothing come the others. -/
theorem feedAll_of_none (h : s.feed fuel env line = (s', none)) (lines : List (List Char)) :
    s.feedAll fuel env (line :: lines) = s'.feedAll fuel env lines := by
  rw [feedAll, h]

/-- A line that ends the session ends it whatever the others are. -/
theorem feedAll_of_some {ending : Ending} (h : s.feed fuel env line = (s', some ending))
    (lines : List (List Char)) : s.feedAll fuel env (line :: lines) = (s', ending) := by
  rw [feedAll, h]

/-- **Lines are put together.** As long as no backspace is typed, lines that do not complete an
input are gathered as they are: a session goes on as if they had been one. -/
theorem feedAll_of_incomplete {before : List (List Char)} (hGathered : backspace ∉ s.gathered)
    (hLines : ∀ line ∈ before, backspace ∉ line)
    (hIncomplete : ∀ first later, before = first ++ later → first ≠ [] →
      checkBrackets (s.gathered ++ first.flatten) = .incomplete) (rest : List (List Char)) :
    s.feedAll fuel env (before ++ rest) =
      { s with gathered := s.gathered ++ before.flatten }.feedAll fuel env rest := by
  -- Line by line: what has been gathered takes over the lines that came before.
  induction before generalizing s with
  | nil => rw [List.nil_append, List.flatten_nil, List.append_nil]
  | cons line before ih =>
    obtain ⟨hLine, hLater⟩ := List.forall_mem_cons.mp hLines
    let next : Session := { s with gathered := s.gathered ++ line }
    have hVerdict : checkBrackets (s.typed line) = .incomplete := by
      have hFirst := hIncomplete [line] before rfl (List.cons_ne_nil _ _)
      rwa [List.flatten_singleton, ← checkBrackets_typed] at hFirst
    have hFeed : s.feed fuel env line = (next, none) := by
      rw [feed_of_some (applyBackspaces?_typed hGathered hLine), hVerdict]
      simp only [typed_append_terminator]
      rfl
    have hNone : backspace ∉ next.gathered :=
      fun hMem => (List.mem_append.mp hMem).elim hGathered hLine
    have hNext : ∀ first later, before = first ++ later → first ≠ [] →
        checkBrackets (next.gathered ++ first.flatten) = .incomplete := by
      intro first later hSplit _
      have hMore := hIncomplete (line :: first) later (by rw [hSplit]; rfl) (List.cons_ne_nil _ _)
      rwa [List.flatten_cons, ← List.append_assoc] at hMore
    rw [List.cons_append, feedAll_of_none hFeed, ih hNone hLater hNext, List.flatten_cons,
      ← List.append_assoc]

/-- **A bracket that closes nothing stays.** As long as no backspace is typed, every line is
answered with the same complaint. Nothing is evaluated any more, and the session ends with its
input, even if the word `exit` is among the lines. -/
theorem feedAll_of_unmatched {bracket : Char} {place : Nat}
    (hVerdict : checkBrackets s.gathered = .unmatched bracket place)
    (hGathered : backspace ∉ s.gathered) (hLines : ∀ line ∈ lines, backspace ∉ line) :
    (s.feedAll fuel env lines).2 = .endOfInput ∧
      (s.feedAll fuel env lines).1.machine = s.close.machine ∧
      (s.feedAll fuel env lines).1.complaints =
        List.replicate lines.length (.invalid (unmatchedMessage bracket place)) ++
          s.complaints := by
  induction lines generalizing s with
  | nil => exact ⟨rfl, rfl, rfl⟩
  | cons line lines ih =>
    obtain ⟨hLine, hLater⟩ := List.forall_mem_cons.mp hLines
    let next : Session :=
      { s with gathered := s.typed line }.complain (.invalid (unmatchedMessage bracket place))
    have hTyped : checkBrackets (s.typed line) = .unmatched bracket place := by
      rw [checkBrackets_typed]
      exact checkBrackets_append_of_unmatched hVerdict line
    have hFeed : s.feed fuel env line = (next, none) := by
      rw [feed_of_some (applyBackspaces?_typed hGathered hLine), hTyped]
    have hNone : backspace ∉ next.gathered :=
      fun hMem => (mem_of_mem_typed hMem).elim hGathered hLine
    obtain ⟨hEnding, hMachine, hComplaints⟩ := @ih next hTyped hNone hLater
    rw [feedAll_of_none hFeed]
    refine ⟨hEnding, hMachine, ?_⟩
    -- the complaint about this line is below those about the lines behind it
    rw [hComplaints, List.length_cons, List.replicate_succ', List.append_assoc]
    rfl

/-! ## Sessions that are cut off -/

/-- The line cuts the session off: it erases a part of a character, or completes an input in
which a literal breaks off. -/
def CutOffBy (s : Session) (line : List Char) : Prop :=
  applyBackspaces? (s.typed line) = none ∨
    ∃ text, applyBackspaces? (s.typed line) = some text ∧ checkBrackets text = .complete ∧
      CutsCharacter (trim text)

/-- The word that ends a session has no quotes. -/
theorem not_isExit_of_quote (h : '"' ∈ text) : isExit text = false := by
  rw [isExit, decide_eq_false_iff_not]
  intro hExit
  have hMem : '"'.toLower ∈ "exit".toList := hExit ▸ List.mem_map_of_mem h
  exact absurd hMem (by decide)

/-- A line ends a session so exactly where it cuts it off. -/
theorem feed_cutOff_iff : (s.feed fuel env line).2 = some .cutOff ↔ s.CutOffBy line := by
  constructor
  -- No other way to take a line ends the session like this.
  · intro hEnd
    have hTakes := feed_takes fuel env s line
    rw [hEnd] at hTakes
    generalize (s.feed fuel env line).1 = s₁ at hTakes
    cases hTakes with
    | broken hText => exact .inl hText
    | @ended text run ending hText hVerdict hRun hOutcome =>
      subst hRun
      have hCuts := (evalInput_cutOff_iff fuel env s.machine _).mp hOutcome
      rw [String.toList_ofList] at hCuts
      exact .inr ⟨text, hText, hVerdict, hCuts⟩
  · rintro (hText | ⟨text, hText, hVerdict, hCuts⟩)
    · rw [feed_of_none hText]
    · have hSome : trim text ≠ [] := List.ne_nil_of_mem hCuts.quote_mem
      have hNotExit : isExit (trim text) = false := not_isExit_of_quote hCuts.quote_mem
      have hOutcome : (evalInput fuel env s.machine (.ofList (trim text))).outcome =
          .error .cutOff := by
        rw [evalInput_cutOff_iff, String.toList_ofList]
        exact hCuts
      rw [feed_of_some hText, hVerdict]
      simp only [takeInput, if_neg hSome, hNotExit, hOutcome, Bool.false_eq_true, if_false]

/-- None of the lines ends the session, and they lead to another one. -/
inductive Reaches (fuel : Nat) (env : FrameId) : Session → List (List Char) → Session → Prop
  | nil (s : Session) : Reaches fuel env s [] s
  | cons {s s₁ s₂ : Session} {line : List Char} {lines : List (List Char)}
      (hLine : s.feed fuel env line = (s₁, none)) (hRest : Reaches fuel env s₁ lines s₂) :
      Reaches fuel env s (line :: lines) s₂

/-- **Cut-off sessions.** A session is cut off exactly if, after some lines that do not end it,
a line erases a part of a character or completes an input in which a literal breaks off. -/
theorem feedAll_cutOff_iff : (s.feedAll fuel env lines).2 = .cutOff ↔
    ∃ before line after s', lines = before ++ line :: after ∧ Reaches fuel env s before s' ∧
      s'.CutOffBy line := by
  -- A line that cuts the session off is the first one, or one behind it.
  induction lines generalizing s with
  | nil => exact iff_of_false nofun fun ⟨before, line, after, _, hSplit, _⟩ => by simp at hSplit
  | cons line lines ih =>
    cases hFeed : s.feed fuel env line with
    | mk s₁ next =>
      have hFirst : next = some .cutOff ↔ s.CutOffBy line := by
        have hEnd : (s.feed fuel env line).2 = some .cutOff ↔ s.CutOffBy line := feed_cutOff_iff
        rwa [hFeed] at hEnd
      cases next with
      | none =>
        rw [feedAll_of_none hFeed, ih]
        constructor
        · rintro ⟨before, last, after, s', rfl, hReaches, hCutOff⟩
          exact ⟨line :: before, last, after, s', rfl, .cons hFeed hReaches, hCutOff⟩
        · rintro ⟨before, last, after, s', hSplit, hReaches, hCutOff⟩
          cases hReaches with
          | nil =>
            obtain ⟨rfl, -⟩ := List.cons.inj hSplit
            exact nomatch hFirst.mpr hCutOff
          | cons hLine hRest =>
            obtain ⟨rfl, rfl⟩ := List.cons.inj hSplit
            cases hFeed.symm.trans hLine
            exact ⟨_, last, after, s', rfl, hRest, hCutOff⟩
      | some ending =>
        rw [feedAll_of_some hFeed]
        constructor
        · rintro rfl
          exact ⟨[], line, lines, s, rfl, .nil s, hFirst.mp rfl⟩
        · rintro ⟨before, last, after, s', hSplit, hReaches, hCutOff⟩
          cases hReaches with
          | nil =>
            obtain ⟨rfl, -⟩ := List.cons.inj hSplit
            exact Option.some.inj (hFirst.mpr hCutOff)
          | cons hLine hRest =>
            obtain ⟨rfl, -⟩ := List.cons.inj hSplit
            cases hFeed.symm.trans hLine

/-! ## Texts without backspaces and comments -/

/-- There are neither backspaces nor semicolons. -/
def Plain (text : List Char) : Prop := backspace ∉ text ∧ ';' ∉ text

theorem Plain.typed (hGathered : Plain s.gathered) (hLine : Plain line) : Plain (s.typed line) :=
  ⟨fun hMem => (mem_of_mem_typed hMem).elim hGathered.1 hLine.1,
    fun hMem => (mem_of_mem_typed hMem).elim hGathered.2 hLine.2⟩

theorem Plain.terminator (s : Session) (line : List Char) : Plain (s.terminator line) :=
  ⟨fun hMem => absurd (s.terminator_blank line _ hMem) (by decide),
    fun hMem => absurd (s.terminator_blank line _ hMem) (by decide)⟩

theorem Plain.append {more : List Char} (h : Plain text) (h' : Plain more) : Plain (text ++ more) :=
  ⟨fun hMem => (List.mem_append.mp hMem).elim h.1 h'.1,
    fun hMem => (List.mem_append.mp hMem).elim h.2 h'.2⟩

/-- Nothing is gathered but what is in the lines. -/
theorem Plain.takes {next : Option Ending} (hGathered : Plain s.gathered) (hLine : Plain line)
    (hTakes : Takes fuel env s line s' next) : Plain s'.gathered := by
  have hTyped := applyBackspaces?_typed hGathered.1 hLine.1
  cases hTakes with
  | broken hText => exact hGathered
  | gathered hText hVerdict =>
    obtain rfl := Option.some.inj (hTyped.symm.trans hText)
    exact (hGathered.typed hLine).append (.terminator s line)
  | unmatched hText hVerdict =>
    obtain rfl := Option.some.inj (hTyped.symm.trans hText)
    exact hGathered.typed hLine
  | _ => exact ⟨nofun, nofun⟩

/-- Plain lines gather nothing but plain text. -/
theorem Plain.reaches (hGathered : Plain s.gathered) (hLines : ∀ line ∈ lines, Plain line)
    (hReaches : Reaches fuel env s lines s') : Plain s'.gathered := by
  induction hReaches with
  | nil s => exact hGathered
  | @cons s s₁ s₂ line lines hLine hRest ih =>
    obtain ⟨hFirst, hLater⟩ := List.forall_mem_cons.mp hLines
    have hTakes := feed_takes fuel env s line
    rw [hLine] at hTakes
    exact ih (hGathered.takes hFirst hTakes) hLater

/-- Plain lines cut nothing off: a literal that breaks off is still open. -/
theorem Plain.not_cutOffBy (hGathered : Plain s.gathered) (hLine : Plain line) :
    ¬ s.CutOffBy line := by
  have hTyped := applyBackspaces?_typed hGathered.1 hLine.1
  rintro (hNone | ⟨text, hText, hVerdict, hCuts⟩)
  · cases hTyped.symm.trans hNone
  · obtain rfl := Option.some.inj (hTyped.symm.trans hText)
    have hPlain : ';' ∉ (String.ofList (trim (s.typed line))).toList := by
      rw [String.toList_ofList]
      exact fun hMem => (hGathered.typed hLine).2 (mem_of_mem_trim hMem)
    refine not_complete_of_cutsCharacter ?_ ?_ (complete_input hVerdict)
    · rw [comments_eq_nil hPlain]
      exact nofun
    · rwa [String.toList_ofList]

end Session

/-- The lines of a text have all its characters. -/
theorem flatten_rawLinesOnto (line text : List Char) :
    (rawLinesOnto line text).flatten = line.reverse ++ text := by
  fun_induction rawLinesOnto line text with
  | case1 => rfl
  | case2 line hSome => simp
  | case3 line rest ih => simp [ih]
  | case4 line c rest hFeed ih => simp [ih]

/-- **Plain sessions are not cut off.** Only with a backspace or a comment can a session get
into a place from which it does not go on. -/
theorem runSession_not_cutOff (fuel : Nat) {input : String} (hBackspace : backspace ∉ input.toList)
    (hComment : ';' ∉ input.toList) : (runSession fuel input).ending ≠ .cutOff := by
  have hLines : ∀ line ∈ rawLinesOnto [] input.toList, Session.Plain line := by
    intro line hLine
    have hMem : ∀ c ∈ line, c ∈ input.toList := by
      intro c hc
      have hFlat : c ∈ (rawLinesOnto [] input.toList).flatten :=
        List.mem_flatten.mpr ⟨line, hLine, hc⟩
      rwa [flatten_rawLinesOnto] at hFlat
    exact ⟨fun h => hBackspace (hMem _ h), fun h => hComment (hMem _ h)⟩
  intro hCutOff
  obtain ⟨before, line, after, s', hSplit, hReaches, hLine⟩ := Session.feedAll_cutOff_iff.mp hCutOff
  rw [hSplit] at hLines
  obtain ⟨hBefore, hLater⟩ := List.forall_mem_append.mp hLines
  have hStart : Session.Plain Session.start.2.gathered := ⟨nofun, nofun⟩
  have hGathered := hStart.reaches hBefore hReaches
  exact hGathered.not_cutOffBy (List.forall_mem_cons.mp hLater).1 hLine

end Console
end MiniScheme
