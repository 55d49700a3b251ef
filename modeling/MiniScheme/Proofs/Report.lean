import MiniScheme.Proofs.Datum.Misfit
import MiniScheme.Proofs.Text.Places
import MiniScheme.Proofs.Token.Segmentation
import MiniScheme.Report

/-!
# Where reports point

An error about a text that is not read is about a part of the text that has at least one
character, or about its end. The part is given in bytes, but the report takes these for
characters. So it points at the error exactly if no character before the part takes more than one
byte, as long as the bytes of the part are not so many that they leave the text; and its label is
shown where the characters of the part take one byte each as well.

* `Scanner.Begun`, `Scanner.scan_error` — what is in hand has begun before where the scanner is,
  and so faults have characters;
* `Span.Cuts`, `ParseError.exists_cuts` — the part of the source that an error is about;
* `hasWidth_of_utf8Size` — characters of one byte do not hide a label;
* `reports_point_at_error` — when a report points at the error.
-/

namespace MiniScheme

/-! ## Faults of the scanner -/

namespace Scanner

variable {s s' : Scanner} {c : Char} {e : LexError}

/-- What the scanner is in the middle of has begun before the place where it is. -/
def Begun (s : Scanner) : Prop := ∀ start ∈ s.pending.start?, start < s.position

theorem begun_start (position : Nat) : (start position).Begun := nofun

/-- Whatever is in hand after a character has begun before the next one. -/
theorem feed_begun (hs : s.Begun) (h : s.feed c = .ok s') : s'.Begun := by
  have hNext : s.position < s.position + c.utf8Size := Nat.lt_add_of_pos_right c.utf8Size_pos
  have hMoved := feed_position h
  intro begun hMem
  rw [hMoved]
  have hFeeds := s.feeds c
  generalize s.feed c = answer at h hFeeds
  cases hFeeds with
  | @enters s₀ hPosition =>
    obtain ⟨next, hEnter, -, hBegun⟩ | hError := s₀.enter_cases c
    · cases hEnter.symm.trans h
      rw [hBegun begun hMem, hPosition]
      exact hNext
    · cases hError.symm.trans h
  | takes hPosition hPending =>
    cases h
    exact Nat.lt_trans (hs begun (hPending begun hMem)) hNext
  | closes hBegun =>
    -- after a literal nothing is in hand
    unfold closeString at h
    split at h <;> cases h
    cases hMem
  | fails hBegun hFault => cases h

theorem closeString_error {begun : Nat} {inside : List Char}
    (h : s.closeString begun inside = .error e) : e.span = ⟨begun, s.position⟩ := by
  unfold closeString at h
  split at h <;> cases h <;> rfl

/-- A fault at a character has begun earlier, and goes up to the character or past it. -/
theorem feed_error (hs : s.Begun) (h : s.feed c = .error e) :
    e.span.start < e.span.stop ∧
      (e.span.stop = s.position ∨ e.span.stop = s.position + c.utf8Size) := by
  have hNext : s.position < s.position + c.utf8Size := Nat.lt_add_of_pos_right c.utf8Size_pos
  have hFeeds := s.feeds c
  generalize s.feed c = answer at h hFeeds
  cases hFeeds with
  | @enters s₀ hPosition =>
    obtain ⟨next, hEnter, -⟩ | hError := s₀.enter_cases c
    · cases hEnter.symm.trans h
    · cases hError.symm.trans h
      rw [hPosition]
      exact ⟨hNext, .inr rfl⟩
  | takes hPosition hPending => cases h
  | closes hBegun =>
    rw [closeString_error h]
    exact ⟨Nat.lt_trans (hs _ hBegun) hNext, .inr rfl⟩
  | fails hBegun hFault =>
    cases h
    exact ⟨hs _ hBegun, .inl rfl⟩

/-- A fault at the end of the text goes up to the end. -/
theorem finish_error (hs : s.Begun) (h : s.finish = .error e) :
    e.span.start < e.span.stop ∧ e.span.stop = s.position := by
  suffices hSpan : ∃ begun ∈ s.pending.start?, e.span = ⟨begun, s.position⟩ by
    obtain ⟨begun, hBegun, hSpan⟩ := hSpan
    rw [hSpan]
    exact ⟨hs begun hBegun, rfl⟩
  -- Only a literal can be unfinished: an empty one, one that goes on, or one that ends in a
  -- backslash.
  unfold finish at h
  split at h
  · cases h
  · cases h
  · cases h
  · cases h
  · rename_i begun hPending
    cases h
    exact ⟨begun, by rw [hPending]; rfl, rfl⟩
  · rename_i begun last inside hPending
    refine ⟨begun, by rw [hPending]; rfl, ?_⟩
    split at h
    · cases h
      rfl
    · split at h
      · cases hClosed : s.closeString begun inside.reverse with
        | ok closed =>
          rw [hClosed] at h
          cases h
        | error e' =>
          rw [hClosed] at h
          cases h
          exact closeString_error hClosed
      · cases h
        rfl
  · rename_i begun inside hPending
    cases h
    exact ⟨begun, by rw [hPending]; rfl, rfl⟩

/-- A fault has characters, and it ends where one of the text does. -/
theorem scan_error {text : List Char} (hs : s.Begun) (h : s.scan text = .error e) :
    e.span.start < e.span.stop ∧
      ∃ read rest, text = read ++ rest ∧ e.span.stop = s.position + byteLength read := by
  -- The fault is at the end, or at some character after others that have been taken.
  induction text generalizing s with
  | nil =>
    obtain ⟨hStart, hStop⟩ := finish_error hs h
    exact ⟨hStart, [], [], rfl, hStop⟩
  | cons c text ih =>
    rw [scan_cons] at h
    cases hFeed : s.feed c with
    | error e' =>
      rw [hFeed] at h
      cases h
      obtain ⟨hStart, hStop | hStop⟩ := feed_error hs hFeed
      · exact ⟨hStart, [], c :: text, rfl, hStop⟩
      · exact ⟨hStart, [c], text, rfl, hStop⟩
    | ok next =>
      rw [hFeed] at h
      obtain ⟨hStart, read, rest, rfl, hStop⟩ := ih (feed_begun hs hFeed) h
      refine ⟨hStart, c :: read, rest, rfl, ?_⟩
      rw [hStop, feed_position hFeed, byteLength_cons, Nat.add_assoc]

end Scanner

/-- The span is that of this part of the text. -/
structure Span.Cuts (text before slice after : List Char) (span : Span) : Prop where
  text_eq : text = before ++ slice ++ after
  span_eq : span = ⟨byteLength before, byteLength before + byteLength slice⟩

/-- The scanner blames a part of the text that has a character. -/
theorem LexError.exists_cuts {text : List Char} {e : LexError} (h : tokenizeAt 0 text = .error e) :
    ∃ before slice after, e.span.Cuts text before slice after ∧ slice ≠ [] := by
  obtain ⟨before, rest, tokens, hText, hStart, -⟩ := tokenizeAt_eq_error h
  obtain ⟨hSome, read, after, hRead, hStop⟩ := Scanner.scan_error (Scanner.begun_start 0) h
  replace hStop : e.span.stop = 0 + byteLength read := hStop
  rw [Nat.zero_add] at hStart hStop
  rw [hStart, hStop] at hSome
  obtain ⟨slice, hBefore, hRest⟩ | ⟨slice, hBefore, hRest⟩ :=
    List.append_eq_append_iff.mp (hText.symm.trans hRead)
  · refine ⟨before, slice, after, ⟨by rw [hRead, hBefore], ?_⟩, ?_⟩
    · show (⟨e.span.start, e.span.stop⟩ : Span) = _
      rw [hStart, hStop, hBefore, byteLength_append]
    · rintro rfl
      rw [hBefore, List.append_nil] at hSome
      exact absurd hSome (Nat.lt_irrefl _)
  · -- it does not end before it begins
    rw [hBefore, byteLength_append] at hSome
    omega

/-! ## What an error is about -/

namespace ParseError

/-- The place of an error; the end of the source is an empty one. -/
def spanIn (source : String) (e : ParseError) : Span :=
  e.span?.getD ⟨source.utf8ByteSize, source.utf8ByteSize⟩

/-- What is written at the place of an error. -/
def label : ParseError → String
  | lexical e => e.fault.message
  | unexpectedToken _ expected => "Expected " ++ expected.text
  | unexpectedEnd expected => "Expected " ++ expected.text
  | invalidDot _ => "Unexpected dot"

variable {e : ParseError} {source : String}

/-- The place of an error of the reader is that of one of the tokens. -/
theorem PointsAt.exists_token {sentence : List Token → Prop} {ts rest : List Token}
    (h : e.PointsAt sentence ts rest) : ∀ span ∈ e.span?, ∃ t ∈ ts, t.span = span := by
  cases h with
  | token hSplit hBefore hMisfit | dot hSplit hBefore hMisfit =>
    intro span hSpan
    refine ⟨_, ?_, Option.some.inj hSpan⟩
    rw [hSplit]
    exact List.mem_append_right _ List.mem_cons_self
  | ending hRest hViable hPart hExpected => exact nofun

/-- An error is about a part of the source that has a character, or about its end. -/
theorem exists_cuts {α : Type} {parse : List Token → Except ParseError α}
    (hParse : ∀ ts e, parse ts = .error e → ∀ span ∈ e.span?, ∃ t ∈ ts, t.span = span)
    (h : (scanText source >>= parse) = .error e) :
    ∃ before slice after, (e.spanIn source).Cuts source.toList before slice after ∧
      (slice = [] → after = []) := by
  unfold scanText at h
  cases hTokens : tokenize source with
  | error fault =>
    rw [hTokens] at h
    cases h
    obtain ⟨before, slice, after, hCuts, hSome⟩ := LexError.exists_cuts hTokens
    exact ⟨before, slice, after, hCuts, fun hNone => absurd hNone hSome⟩
  | ok tokens =>
    rw [hTokens] at h
    cases hSpan : e.span? with
    | none =>
      -- only the end of the source has no span
      refine ⟨source.toList, [], [], ⟨by simp, ?_⟩, fun _ => rfl⟩
      rw [spanIn, hSpan, byteLength_toList]
      rfl
    | some span =>
      obtain ⟨t, hMem, rfl⟩ := hParse tokens e h span hSpan
      obtain ⟨before, slice, after, hHolds⟩ :=
        (tokenizeAt_eq_ok_iff.mp hTokens).holds t hMem
      refine ⟨before, slice, after, ⟨hHolds.text_eq, ?_⟩, fun hNone =>
        absurd hNone hHolds.lexeme.ne_nil⟩
      rw [spanIn, hSpan, Option.getD_some, hHolds.span_eq, Nat.zero_add]

/-- The place of an error cuts a slice out of the text, and that slice is empty only at
its end. -/
theorem exists_cuts_of_parse (h : parseText source = .error e ∨ parseProgram source = .error e) :
    ∃ before slice after, (e.spanIn source).Cuts source.toList before slice after ∧
      (slice = [] → after = []) := by
  obtain hOne | hAll := h
  · refine exists_cuts (fun ts e hError => ?_) hOne
    obtain ⟨rest, hPoints⟩ := parseOne_error hError
    exact hPoints.exists_token
  · refine exists_cuts (fun ts e hError => ?_) hAll
    obtain ⟨rest, hPoints⟩ := parseAll_error hError
    exact hPoints.exists_token

end ParseError

/-! ## Characters of one byte -/

/-- No character of one byte is in ranges that begin behind these. -/
theorem CodePoints.contain_eq_false {ranges : CodePoints} {c : Char} (hc : c.utf8Size = 1)
    (hRanges : ranges.all fun range => 128 ≤ range.1) : ranges.contain c = false := by
  have hSmall : c.toNat ≤ 127 := Char.utf8Size_eq_one_iff.mp hc
  rw [CodePoints.contain, List.any_eq_false]
  intro range hMem
  have hFirst := of_decide_eq_true (List.all_eq_true.mp hRanges range hMem)
  simp only [Bool.and_eq_true, decide_eq_true_eq, not_and]
  omega

/-- The characters that take no column take more than one byte. -/
theorem hasWidth_of_utf8Size {c : Char} (hc : c.utf8Size = 1) : hasWidth c := by
  have hIgnorable : isIgnorable c = false := CodePoints.contain_eq_false hc (by decide)
  have hFormer : Width.formerMarkRanges.contain c = false :=
    CodePoints.contain_eq_false hc (by decide)
  have hExtending : isExtending c = false := CodePoints.contain_eq_false hc (by decide +kernel)
  have hJamo : Width.jamoRanges.contain c = false := CodePoints.contain_eq_false hc (by decide)
  have hSign : Width.signRanges.contain c = false := CodePoints.contain_eq_false hc (by decide)
  rw [hasWidth, Width.isOverlaid, hIgnorable, hFormer, hExtending, hJamo, hSign]
  simp

/-! ## Reports -/

namespace Report

variable {source : String} {span : Span} {before slice after : List Char}

/-- The report of an error points at its place in the source. -/
theorem ofParseError_eq (name source : String) (e : ParseError) : ∃ message,
    ofParseError name source e = pointAt name source (e.spanIn source) message e.label := by
  cases e <;> exact ⟨_, rfl⟩

theorem fits_iff {length : Nat} : fits length span ↔
    span.start ≤ length ∧ (span.stop ≤ span.start ∨ span.stop - 1 ≤ length) := by
  simp [fits]

/-- A span that fits is shown at the place that it would have if it counted characters. -/
theorem location_pointAt_iff (name message label : String) {line column : Nat} :
    (pointAt name source span message label).location = some ⟨name, line + 1, column + 1⟩ ↔
      fits source.toList.length span ∧ StandsAt source.toList span.start line column := by
  rw [pointAt]
  dsimp only
  split
  · rename_i hFits
    have hStands := standsAt_lineAt (fits_iff.mp hFits).1
    constructor
    · intro hLocation
      cases hLocation
      exact ⟨hFits, hStands⟩
    · rintro ⟨-, hOther⟩
      obtain ⟨rfl, rfl⟩ := hStands.column_unique hOther
      rfl
  · rename_i hFits
    exact iff_of_false nofun fun h => hFits h.1

/-- The place of a part of the source is shown exactly if its bytes can pass for characters. -/
theorem location_of_cuts (name message label : String) {line column : Nat}
    (hCuts : span.Cuts source.toList before slice after)
    (hStands : StandsAt source.toList before.length line column) :
    (pointAt name source span message label).location = some ⟨name, line + 1, column + 1⟩ ↔
      (∀ c ∈ before, c.utf8Size = 1) ∧ byteLength slice ≤ slice.length + after.length + 1 := by
  obtain ⟨hText, rfl⟩ := hCuts
  have hLength : source.toList.length = before.length + slice.length + after.length := by
    rw [hText, List.length_append, List.length_append]
  rw [location_pointAt_iff, fits_iff, hLength, ← byteLength_eq_length_iff]
  constructor
  · rintro ⟨⟨hStart, hStop⟩, hShown⟩
    have hSame := hShown.place_unique hStands
    dsimp only at hSame hStop
    exact ⟨hSame, by omega⟩
  · rintro ⟨hSame, hStop⟩
    rw [hSame]
    dsimp only
    exact ⟨⟨by omega, by omega⟩, hStands⟩

/-- The label of a span of the source is shown if there is something to hang it from, or if it
hangs from the end. -/
theorem showsLabel_of_hasWidth {source : List Char} {start stop : Nat} (hOrder : start ≤ stop)
    (hStop : stop ≤ source.length) (hEnd : start = stop → stop = source.length)
    (hWidth : ∀ place < stop, source[place]?.all hasWidth) : showsLabel source ⟨start, stop⟩ := by
  -- the last character of the span, or its place if it has none
  obtain ⟨last, hLast, hPlace⟩ : ∃ last, lastPlace ⟨start, stop⟩ = last ∧
      (start = stop ∧ last = start ∨ start < stop ∧ last + 1 = stop) := by
    refine ⟨_, rfl, ?_⟩
    rw [lastPlace]
    dsimp only
    split <;> omega
  obtain ⟨hFirstLine, -, -⟩ := lineAt_spec (Nat.le_trans hOrder hStop)
  have hInside : last ≤ source.length := by omega
  obtain ⟨hLastLine, -, hStands⟩ := lineAt_spec hInside
  rw [showsLabel, hLast]
  dsimp only
  split
  · rename_i hNumber
    rw [hFirstLine.eq_of_number hLastLine hNumber, Bool.and_eq_true, decide_eq_true_eq]
    refine ⟨by omega, ?_⟩
    rw [anchor]
    dsimp only
    obtain ⟨rfl, -⟩ | ⟨hSome, -⟩ := hPlace
    · rw [List.getElem?_eq_none (by omega)]
      rfl
    · exact hWidth _ (by omega)
  · rename_i hNumber
    obtain ⟨-, rfl⟩ | ⟨hSome, -⟩ := hPlace
    · exact absurd rfl hNumber
    · rw [decide_eq_true_eq]
      omega

/-- Where all characters up to the end of a part of the source take one byte, its label is
shown. -/
theorem label_of_cuts (name message label : String)
    (hCuts : span.Cuts source.toList before slice after) (hSlice : slice = [] → after = [])
    (hOne : ∀ c ∈ before ++ slice, c.utf8Size = 1) :
    (pointAt name source span message label).label = some label := by
  obtain ⟨hText, rfl⟩ := hCuts
  obtain ⟨hBefore, hInside⟩ := List.forall_mem_append.mp hOne
  rw [byteLength_eq_length_iff.mpr hBefore, byteLength_eq_length_iff.mpr hInside]
  have hLength : source.toList.length = before.length + slice.length + after.length := by
    rw [hText, List.length_append, List.length_append]
  have hEnd : before.length = before.length + slice.length →
      before.length + slice.length = source.toList.length := by
    intro hNone
    have hAfter := hSlice (List.eq_nil_of_length_eq_zero (by omega))
    rw [hLength, hAfter, List.length_nil, Nat.add_zero]
  -- Every character up to the end of the slice takes a column.
  have hWidth : ∀ place < before.length + slice.length, source.toList[place]?.all hasWidth := by
    intro place hPlace
    rw [hText, List.getElem?_append_left (by rwa [List.length_append])]
    cases hChar : (before ++ slice)[place]? with
    | none => rfl
    | some c => exact hasWidth_of_utf8Size (hOne c (List.mem_of_getElem? hChar))
  have hFits : fits source.toList.length ⟨before.length, before.length + slice.length⟩ := by
    rw [fits_iff, hLength]
    dsimp only
    omega
  have hShows : showsLabel source.toList ⟨before.length, before.length + slice.length⟩ :=
    showsLabel_of_hasWidth (Nat.le_add_right _ _) (by omega) hEnd hWidth
  rw [pointAt]
  dsimp only
  rw [if_pos hFits, if_pos hShows]

end Report

/-- **A report points at the error where bytes can be taken for characters.** The error is about a
part of the source with at least one character, or about the end of the source. The location is the
line and the column of the first character there exactly if every character before it takes one
byte, and the bytes of the part are not so many that they leave the source. The label is shown if
the characters of the part take one byte as well. -/
theorem reports_point_at_error (name : String) {source : String} {e : ParseError}
    (hError : parseText source = .error e ∨ parseProgram source = .error e) :
    ∃ before slice after line column,
      (e.spanIn source).Cuts source.toList before slice after ∧ (slice = [] → after = []) ∧
      StandsAt source.toList before.length line column ∧
      ((Report.ofParseError name source e).location = some ⟨name, line + 1, column + 1⟩ ↔
        (∀ c ∈ before, c.utf8Size = 1) ∧ byteLength slice ≤ slice.length + after.length + 1) ∧
      ((∀ c ∈ before ++ slice, c.utf8Size = 1) →
        (Report.ofParseError name source e).location = some ⟨name, line + 1, column + 1⟩ ∧
        (Report.ofParseError name source e).label = some e.label) := by
  obtain ⟨before, slice, after, hCuts, hSlice⟩ := ParseError.exists_cuts_of_parse hError
  obtain ⟨message, hReport⟩ := Report.ofParseError_eq name source e
  have hPlace : before.length ≤ source.toList.length := by
    rw [hCuts.text_eq, List.append_assoc, List.length_append]
    exact Nat.le_add_right _ _
  have hStands := standsAt_lineAt hPlace
  have hLocation := Report.location_of_cuts name message e.label hCuts hStands
  rw [← hReport] at hLocation
  -- The place is that of the slice; it is shown where bytes and characters are the same.
  refine ⟨before, slice, after, _, _, hCuts, hSlice, hStands, hLocation, fun hOne => ⟨?_, ?_⟩⟩
  · obtain ⟨hBefore, hInside⟩ := List.forall_mem_append.mp hOne
    rw [hLocation, byteLength_eq_length_iff.mpr hInside]
    exact ⟨hBefore, by omega⟩
  · rw [hReport]
    exact Report.label_of_cuts name message e.label hCuts hSlice hOne

/-- In `(a` and ` . b c)` on the next line, the report points at the `c`, in line 2 and column 6,
and says what was expected there. -/
theorem reports_point_at_error_dotted :
    parseText "(a\n . b c)" = .error (.unexpectedToken ⟨.symbol "c", 8, 9⟩ .closeAfterDot) ∧
      ∃ line column, StandsAt "(a\n . b c)".toList 8 line column ∧
        (Report.ofParseError "REPL" "(a\n . b c)"
            (.unexpectedToken ⟨.symbol "c", 8, 9⟩ .closeAfterDot)).location =
          some ⟨"REPL", line + 1, column + 1⟩ ∧
        (Report.ofParseError "REPL" "(a\n . b c)"
            (.unexpectedToken ⟨.symbol "c", 8, 9⟩ .closeAfterDot)).label =
          some "Expected ')' after dotted pair" := by
  have hParse : parseText "(a\n . b c)" =
      .error (.unexpectedToken ⟨.symbol "c", 8, 9⟩ .closeAfterDot) := by rfl
  have hAscii : ∀ c ∈ "(a\n . b c)".toList, c.utf8Size = 1 :=
    byteLength_eq_length_iff.mp (by decide)
  obtain ⟨before, slice, after, line, column, hCuts, -, hStands, -, hShown⟩ :=
    reports_point_at_error "REPL" (.inl hParse)
  have hOne : ∀ c ∈ before ++ slice, c.utf8Size = 1 := by
    intro c hMem
    exact hAscii c (hCuts.text_eq ▸ List.mem_append_left after hMem)
  have hStart : 8 = byteLength before := congrArg Span.start hCuts.span_eq
  rw [byteLength_eq_length_iff.mpr (List.forall_mem_append.mp hOne).1] at hStart
  rw [← hStart] at hStands
  exact ⟨hParse, line, column, hStands, hShown hOne⟩

/-- Behind a character of two bytes, a report points past the error and has no label. -/
theorem report_past_error :
    parseProgram "\"é\" )" = .error (.unexpectedToken ⟨.rightParen, 5, 6⟩ .expression) ∧
      Span.Cuts "\"é\" )".toList "\"é\" ".toList [')'] [] ⟨5, 6⟩ ∧
      StandsAt "\"é\" )".toList 4 0 4 ∧
      Report.ofParseError "REPL" "\"é\" )" (.unexpectedToken ⟨.rightParen, 5, 6⟩ .expression) =
        ⟨"Unexpected token: )", some ⟨"REPL", 1, 6⟩, none⟩ := by
  refine ⟨by rfl, ⟨by decide, by decide⟩, ?_, by decide⟩
  have hPlace : 4 ≤ "\"é\" )".toList.length := by decide
  exact standsAt_lineAt hPlace

end MiniScheme
