import MiniScheme.Program
import MiniScheme.Proofs.Datum.Misfit
import MiniScheme.Proofs.Token.Segmentation

/-!
# Programs read line by line

Where a text begins makes no difference to what is scanned and read in it: the places of
tokens and errors move along, and that is all. The end of a line ends whatever a text that
is read could still be in the middle of, a word or a comment. What is on the lines after
it is therefore read as it is by itself, further on.

* `Span.shift`, `Token.shift`, `ParseError.shift` — places further on;
* `Scanner.feed_shift`, `Scanner.scan_shift` — scanning moves along;
* `Construct.take_shift`, `parseAll_shift` — and so does reading;
* `Segmented.scan_line` — the scanner at the end of a line;
* `ProgramRun.andThen`, `runProgram_append` — running on where a run ended;
* `programs_read_by_lines` — what is read and run on two stretches of lines.
-/

namespace MiniScheme

/-! ## Places further on -/

/-- The span that begins so many bytes later. -/
def Span.shift (k : Nat) (s : Span) : Span := ⟨s.start + k, s.stop + k⟩

/-- The same token further on. -/
def Token.shift (k : Nat) (t : Token) : Token := ⟨t.kind, t.span.shift k⟩

/-- The same fault further on. -/
def LexError.shift (k : Nat) (e : LexError) : LexError := ⟨e.fault, e.span.shift k⟩

/-- The same is waited for; the parenthesis that it may be about stands further on. -/
def Expectation.shift (k : Nat) : Expectation → Expectation
  | close opening => close (opening.shift k)
  | e => e

/-- The same error, with every place in it further on. -/
def ParseError.shift (k : Nat) : ParseError → ParseError
  | lexical e => lexical (e.shift k)
  | unexpectedToken found expected => unexpectedToken (found.shift k) (expected.shift k)
  | unexpectedEnd expected => unexpectedEnd (expected.shift k)
  | invalidDot span => invalidDot (span.shift k)

/-! ## Scanning -/

/-- In the middle of the same, further on. -/
def Pending.shift (k : Nat) : Pending → Pending
  | gap => gap
  | comment => comment
  | word start chars => word (start + k) chars
  | comma start => comma (start + k)
  | string start inside => string (start + k) inside
  | escape start inside => escape (start + k) inside

namespace Scanner

/-- The scanner in the same state further on, after some tokens. -/
def shift (k : Nat) (before : List Token) (s : Scanner) : Scanner :=
  ⟨s.position + k, s.pending.shift k, s.tokens.map (Token.shift k) ++ before⟩

variable {k : Nat} {before : List Token} {s : Scanner} {c : Char}

theorem pending_shift : (s.shift k before).pending = s.pending.shift k := rfl

theorem advance_shift (pending : Pending) :
    (s.shift k before).advance c (pending.shift k) = (s.advance c pending).shift k before := by
  simp only [advance, shift, Nat.add_right_comm]

theorem emit_shift (start : Nat) (kind : TokenKind) :
    (s.shift k before).emit (start + k) kind = (s.emit start kind).shift k before := rfl

theorem emitChar_shift (kind : TokenKind) :
    (s.shift k before).emitChar c kind = (s.emitChar c kind).shift k before :=
  congrArg (fun next : Scanner => next.emit (s.position + k) kind) (advance_shift .gap)

/-- A character after a gap is met the same further on; where it is a fault, the fault
moves too. -/
theorem enter_shift : (s.shift k before).enter c =
    ((s.enter c).map (shift k before)).mapError (LexError.shift k) := by
  unfold enter
  split
  · exact congrArg Except.ok (advance_shift .gap)
  · split
    · exact congrArg Except.ok (advance_shift (.word s.position [c]))
    · split
      · exact congrArg Except.ok (advance_shift .comment)
      · exact congrArg Except.ok (emitChar_shift .leftParen)
      · exact congrArg Except.ok (emitChar_shift .rightParen)
      · exact congrArg Except.ok (emitChar_shift (.mark .quote))
      · exact congrArg Except.ok (emitChar_shift (.mark .quasiquote))
      · exact congrArg Except.ok (advance_shift (.comma s.position))
      · exact congrArg Except.ok (advance_shift (.string s.position []))
      · refine congrArg Except.error ?_
        simp only [LexError.shift, Span.shift, shift, Nat.add_right_comm]

/-- The end of a literal is the same further on, with any fault in its escapes. -/
theorem closeString_shift (start : Nat) (inside : List Char) :
    (s.shift k before).closeString (start + k) inside =
      ((s.closeString start inside).map (shift k before)).mapError (LexError.shift k) := by
  unfold closeString
  cases Quoted.unescape inside with
  | ok text => rfl
  | error e => cases e <;> rfl

/-- **One character further on.** The scanner moved by some bytes takes a character as it does in
its own place: the state after it and the fault are moved with it. -/
theorem feed_shift : (s.shift k before).feed c =
    ((s.feed c).map (shift k before)).mapError (LexError.shift k) := by
  -- One case for each thing that the scanner can be in the middle of; in all of them the tests look
  -- at the character only, and not at the place.
  cases hPending : s.pending with
  | gap =>
    simp only [feed, pending_shift, hPending, Pending.shift]
    exact enter_shift
  | comment =>
    simp only [feed, pending_shift, hPending, Pending.shift]
    split
    · exact enter_shift
    · exact congrArg Except.ok (advance_shift .comment)
  | word start chars =>
    simp only [feed, pending_shift, hPending, Pending.shift, emit_shift]
    split
    · exact congrArg Except.ok (advance_shift (.word start (c :: chars)))
    · split
      · rfl
      · exact enter_shift
  | comma start =>
    have hAdvance : (s.shift k before).advance c .gap = (s.advance c .gap).shift k before :=
      advance_shift .gap
    simp only [feed, pending_shift, hPending, Pending.shift, emit_shift]
    split
    · -- the mark ends after the character, and the scanner has gone past that by now
      have hEmit := congrArg (fun next : Scanner => next.emit (start + k) (.mark .unquoteSplicing))
        hAdvance
      exact congrArg Except.ok hEmit
    · exact enter_shift
  | string start inside =>
    simp only [feed, pending_shift, hPending, Pending.shift]
    split
    · have hAdvance : (s.shift k before).advance c .gap = (s.advance c .gap).shift k before :=
        advance_shift .gap
      rw [hAdvance]
      exact closeString_shift start inside.reverse
    · split
      · exact congrArg Except.ok (advance_shift (.escape start inside))
      · exact congrArg Except.ok (advance_shift (.string start (c :: inside)))
  | escape start inside =>
    simp only [feed, pending_shift, hPending, Pending.shift]
    split
    · rfl
    · exact congrArg Except.ok (advance_shift (.string start (c :: '\\' :: inside)))

theorem reverse_shift : (s.shift k before).tokens.reverse =
    before.reverse ++ s.tokens.reverse.map (Token.shift k) := by
  rw [shift, List.reverse_append, List.map_reverse]

/-- **The end of the text further on.** The tokens are those before and the moved ones, or the
fault is the moved one. -/
theorem finish_shift : (s.shift k before).finish =
    (s.finish.map fun ts => before.reverse ++ ts.map (Token.shift k)).mapError
      (LexError.shift k) := by
  cases hPending : s.pending with
  | gap | comment =>
    simp only [finish, pending_shift, hPending, Pending.shift]
    exact congrArg Except.ok reverse_shift
  | word start chars | comma start =>
    simp only [finish, pending_shift, hPending, Pending.shift, emit_shift]
    exact congrArg Except.ok reverse_shift
  | string start inside =>
    -- A literal that was cut off looks at its last character, which no shift changes.
    cases inside with
    | nil =>
      simp only [finish, pending_shift, hPending, Pending.shift]
      rfl
    | cons last inside =>
      simp only [finish, pending_shift, hPending, Pending.shift]
      split
      · rfl
      · split
        · rw [closeString_shift]
          cases s.closeString start inside.reverse with
          | ok closed => exact congrArg Except.ok reverse_shift
          | error e => rfl
        · rfl
  | escape start inside =>
    simp only [finish, pending_shift, hPending, Pending.shift]
    rfl

/-- What a text is scanned as, further on and after some tokens. -/
theorem scan_shift (k : Nat) (before : List Token) (s : Scanner) (text : List Char) :
    (s.shift k before).scan text =
    ((s.scan text).map fun ts => before.reverse ++ ts.map (Token.shift k)).mapError
      (LexError.shift k) := by
  -- Character by character, from any state of the scanner.
  induction text generalizing s with
  | nil => exact finish_shift
  | cons c text ih =>
    rw [scan_cons, scan_cons, feed_shift]
    cases s.feed c with
    | ok s' => exact ih s'
    | error e => rfl

end Scanner

/-! ## Reading -/

/-- The same construct, opened further on. -/
def Construct.shift (k : Nat) : Construct → Construct
  | list opening items => list (opening.shift k) items
  | construct => construct

/-- The same datum, or the same constructs further on. -/
def Progress.shift (k : Nat) : Progress → Progress
  | finished d => finished d
  | within stack => within (stack.map (Construct.shift k))

namespace Construct

variable {k : Nat}

/-- A datum is given to the same construct further on. -/
theorem give_shift (stack : List Construct) (d : Datum) :
    give (stack.map (shift k)) d = (give stack d).shift k := by
  -- Marks are finished with their datum, so giving goes on outwards past them.
  induction stack generalizing d with
  | nil => rfl
  | cons construct outer ih =>
    cases construct with
    | marked m => exact ih _
    | _ => rfl

/-- A token begins the same further on. -/
theorem begin_shift (stack : List Construct) (t : Token) : begin (stack.map (shift k)) (t.shift k) =
    ((begin stack t).map (Progress.shift k)).mapError (ParseError.shift k) := by
  obtain ⟨kind, span⟩ := t
  cases kind with
  | symbol name => exact congrArg Except.ok (give_shift stack _)
  | number x => exact congrArg Except.ok (give_shift stack _)
  | boolean b => exact congrArg Except.ok (give_shift stack _)
  | string s => exact congrArg Except.ok (give_shift stack _)
  | _ => rfl

/-- A token is taken, or refused, the same further on. -/
theorem take_shift (stack : List Construct) (t : Token) : take (stack.map (shift k)) (t.shift k) =
    ((take stack t).map (Progress.shift k)).mapError (ParseError.shift k) := by
  match stack with
  | [] => exact begin_shift [] t
  | .marked m :: outer => exact begin_shift (.marked m :: outer) t
  | .dotted items :: outer => exact begin_shift (.dotted items :: outer) t
  | .list opening items :: outer =>
    have hBegin := begin_shift (k := k) (.list opening items :: outer) t
    obtain ⟨kind, span⟩ := t
    cases kind with
    | rightParen => exact congrArg Except.ok (give_shift outer _)
    | dot => cases items <;> rfl
    | _ => exact hBegin
  | .closing items tail :: outer =>
    obtain ⟨kind, span⟩ := t
    cases kind with
    | rightParen => exact congrArg Except.ok (give_shift outer _)
    | _ => rfl

theorem expected_shift (stack : List Construct) :
    expected (stack.map (shift k)) = (expected stack).shift k := by
  rcases stack with _ | ⟨_ | _ | _ | _, outer⟩ <;> rfl

end Construct

/-- Reading on moved tokens with moved constructs gives the same data, or the moved error. -/
theorem readAllWithin_shift {k : Nat} (read : List Datum) (stack : List Construct)
    (ts : List Token) :
    readAllWithin read (stack.map (Construct.shift k)) (ts.map (Token.shift k)) =
      (readAllWithin read stack ts).mapError (ParseError.shift k) := by
  -- Token by token: each is taken the same, and leads to the same stack further on.
  induction ts generalizing read stack with
  | nil =>
    cases stack with
    | nil => rfl
    | cons construct outer =>
      exact congrArg (fun e => Except.error (ParseError.unexpectedEnd e))
        (Construct.expected_shift (construct :: outer))
  | cons t ts ih =>
    rw [List.map_cons, readAllWithin, readAllWithin, Construct.take_shift]
    cases Construct.take stack t with
    | error e => rfl
    | ok progress =>
      cases progress with
      | finished d => exact ih (d :: read) []
      | within stack => exact ih read stack

/-- Tokens are read the same further on. -/
theorem parseAll_shift {k : Nat} (ts : List Token) :
    parseAll (ts.map (Token.shift k)) = (parseAll ts).mapError (ParseError.shift k) :=
  readAllWithin_shift [] [] ts

/-! ## Lines -/

/-- A gap may be followed by the end of a line, which ends the last comment. -/
theorem Gap.line {gap : List Char} (h : Gap true gap) : Gap false (gap ++ ['\n']) := by
  induction h with
  | nil => exact .blank rfl .nil
  | blank hBlank h ih => exact .blank hBlank ih
  | comment hBody hLine h ih =>
    rw [List.cons_append, List.append_assoc, List.cons_append]
    exact .comment hBody hLine ih
  | lastComment hEnd hBody => exact .comment hBody (.inl rfl) .nil

/-- What is cut into tokens is scanned as these, whatever the lines after it are. -/
theorem Segmented.scan_line {position : Nat} {text : List Char} {ts : List Token}
    (h : Segmented position text ts) (before : List Token) (rest : List Char) :
    Scanner.scan ⟨position, .gap, before⟩ (text ++ '\n' :: rest) =
      Scanner.scan ⟨position + byteLength text + 1, .gap, ts.reverse ++ before⟩ rest := by
  induction h generalizing before with
  | @last position gap hGap =>
    have hLength : byteLength (gap ++ ['\n']) = byteLength gap + 1 := byteLength_append _ _
    rw [List.append_cons, Scanner.scan_gap hGap.line, hLength, Nat.add_assoc]
    rfl
  | @token position gap slice rest' kind tokens hGap hLexeme hWhole hRest ih =>
    -- what follows the piece is what followed it before, or the end of the line
    have hStops : ∀ c ∈ (rest' ++ '\n' :: rest).head?, Scanner.StopsAt slice kind c := by
      intro c hc
      cases rest' with
      | nil =>
        cases hc
        exact (Scanner.isClear_of_isSeparator rfl).stopsAt fun _ => by decide
      | cons d rest' => exact (hRest.isClear c hc).stopsAt fun hKind => hWhole hKind c hc
    rw [List.append_assoc, Scanner.scan_token hGap hLexeme hStops, ih, byteLength_append,
      byteLength_append, List.reverse_cons, List.append_assoc]
    simp only [Nat.add_assoc, List.singleton_append]

/-- A text that is scanned, with lines after it. -/
theorem tokenize_lines {a : String} {ts : List Token} (h : tokenize a = .ok ts) (b : String) :
    tokenize (a ++ "\n" ++ b) =
      ((tokenize b).map fun us => ts ++ us.map (Token.shift (a.utf8ByteSize + 1))).mapError
        (LexError.shift (a.utf8ByteSize + 1)) := by
  have hCut : Segmented 0 a.toList ts := tokenizeAt_eq_ok_iff.mp h
  have hText : (a ++ "\n" ++ b).toList = a.toList ++ '\n' :: b.toList := by simp
  have hMoved := Scanner.scan_shift (a.utf8ByteSize + 1) ts.reverse (.start 0) b.toList
  rw [List.reverse_reverse] at hMoved
  rw [tokenize, hText]
  refine (hCut.scan_line [] b.toList).trans ?_
  rw [List.append_nil, byteLength_toList, Nat.add_assoc]
  exact hMoved

/-- A program that is read, with lines after it: its data come before theirs, and an error in them
is moved by its bytes and the line break. -/
theorem parseProgram_lines {a : String} {ds : List Datum} (h : parseProgram a = .ok ds)
    (b : String) :
    parseProgram (a ++ "\n" ++ b) =
      ((parseProgram b).map (ds ++ ·)).mapError (ParseError.shift (a.utf8ByteSize + 1)) := by
  obtain ⟨ts, hTokens, hData⟩ := parseProgram_eq_ok h
  simp only [parseProgram, scanText]
  rw [tokenize_lines hTokens b]
  -- The text's own tokens are read first, so an error can only be in the lines after it.
  cases tokenize b with
  | error e => rfl
  | ok us =>
    have hRead : parseAll (ts ++ us.map (Token.shift (a.utf8ByteSize + 1))) = _ :=
      parseAll_append (parseAll_eq_ok_iff.mp hData) _
    rw [parseAll_shift] at hRead
    refine hRead.trans ?_
    show _ = ((parseAll us).map (ds ++ ·)).mapError _
    cases parseAll us <;> rfl

/-! ## Running -/

/-- A run, and then, unless it was stopped, another one on the machine that it leaves. -/
def ProgramRun.andThen (run : ProgramRun) (next : Machine → ProgramRun) : ProgramRun :=
  match run.stop with
  | some _ => run
  | none => { next run.machine with values := run.values ++ (next run.machine).values }

/-- Data after data run one after the other: what the first leave is where the others begin,
unless they are stopped. -/
theorem runProgram_append (forms : FormTable) (fuel : Nat) (env : FrameId) (echo : Value → String)
    (m : Machine) (ds es : List Datum) :
    runProgram forms fuel env echo m (ds ++ es) =
      (runProgram forms fuel env echo m ds).andThen
        fun m => runProgram forms fuel env echo m es := by
  induction ds generalizing m with
  | nil => rfl
  | cons d ds ih =>
    rw [List.cons_append, runProgram, runProgram]
    obtain ⟨expr, loaded⟩ := m.load d
    dsimp only
    cases evaluate forms fuel expr env loaded with
    | value v m' =>
      dsimp only
      -- the value of the first form comes before those of both runs
      rw [ih (m'.write (echo v))]
      generalize runProgram forms fuel env echo (m'.write (echo v)) ds = run
      obtain ⟨values, stop, machine⟩ := run
      cases stop <;> rfl
    | failure e m' => rfl
    | outOfFuel => rfl

/-- **Programs are read by lines.** A text that is read ends with its last line, and so does
a word or a comment at its end. What is on the lines after it is read as by itself: its data
come after the others, and an error in it is the same error with every place further on. The
whole program runs as the text does and then, unless that run is stopped, as the lines after
it do on the machine that is left. -/
theorem programs_read_by_lines {a : String} {ds : List Datum} (h : parseProgram a = .ok ds)
    (b : String) :
    (∀ es, parseProgram b = .ok es → parseProgram (a ++ "\n" ++ b) = .ok (ds ++ es)) ∧
    (∀ e, parseProgram b = .error e →
      parseProgram (a ++ "\n" ++ b) = .error (e.shift (a.utf8ByteSize + 1))) ∧
    ∀ es program, parseProgram b = .ok es → parseProgram (a ++ "\n" ++ b) = .ok program →
      ∀ forms fuel env echo m, runProgram forms fuel env echo m program =
        (runProgram forms fuel env echo m ds).andThen
          fun m => runProgram forms fuel env echo m es := by
  have hLines := parseProgram_lines h b
  refine ⟨?_, ?_, ?_⟩
  · intro es hb
    rw [hLines, hb]
    rfl
  · intro e hb
    rw [hLines, hb]
    rfl
  · intro es program hb hProgram forms fuel env echo m
    rw [hLines, hb] at hProgram
    cases hProgram
    exact runProgram_append forms fuel env echo m ds es

/-- The comment of `#t ; (` ends with its line, and a parenthesis left open on the next one
stands at the eighth byte. -/
theorem programs_read_by_lines_commented :
    parseProgram "#t ; (" = .ok [.atom (.boolean true)] ∧
      parseProgram ("#t ; (" ++ "\n" ++ "(") = .error (.unexpectedEnd (.close ⟨7, 8⟩)) := by
  have hParse : parseProgram "#t ; (" = .ok [.atom (.boolean true)] := rfl
  have hRest : parseProgram "(" = .error (.unexpectedEnd (.close ⟨0, 1⟩)) := rfl
  exact ⟨hParse, (programs_read_by_lines hParse "(").2.1 _ hRest⟩

end MiniScheme
