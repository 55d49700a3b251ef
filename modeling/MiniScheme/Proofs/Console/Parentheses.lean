import MiniScheme.Proofs.Console.Accepted
import MiniScheme.Proofs.Token.Segmentation

/-!
# What the console measures

The console looks at characters, and the reader at tokens. In a text that is scanned
and has no comments, the two see the same parentheses: outside of literals there are no
other brackets, and from its opening quote to its closing one a literal leaves open what
was open before it.

The text is followed piece by piece, as it is cut into tokens. What is invariant is that
the console stands outside of literals with one open bracket for each parenthesis that is
open among the tokens so far.

* `opened`, `closed`, `FirstUnopened` — parentheses among tokens;
* `SemicolonsQuoted` — a text without comments;
* `Console.checkBracketsFrom_append` — the verdict on a text that goes on;
* `Lexeme.bracketsAfter_eq`, `Segmented.bracketsAfter_eq` — a piece, and a whole text;
* `depthAfter_of_unfinished` — where the reader waits for a parenthesis, one is open;
* `verdict_from_parentheses` — the verdict told from the tokens.
-/

namespace MiniScheme

/-! ## Parentheses among tokens -/

/-- How many parentheses the tokens open. -/
def opened (ts : List Token) : Nat := ts.countP fun t => t.kind = .leftParen

/-- How many parentheses the tokens close. -/
def closed (ts : List Token) : Nat := ts.countP fun t => t.kind = .rightParen

/-- The token closes a parenthesis although none is open, and it is the first to do so. -/
def FirstUnopened (tokens : List Token) (t : Token) : Prop :=
  ∃ before after, tokens = before ++ t :: after ∧ t.kind = .rightParen ∧
    depthAfter 0 before = some 0

/-- In the text, whose first byte has the given offset, every semicolon is within the
literal of some token. -/
def SemicolonsQuoted (position : Nat) (text : List Char) (tokens : List Token) : Prop :=
  ∀ before after, text = before ++ ';' :: after → ∃ t ∈ tokens, (∃ s, t.kind = .string s) ∧
    t.span.start ≤ position + byteLength before ∧ position + byteLength before < t.span.stop

/-- What has been opened and is not closed is open. -/
theorem depthAfter_count {depth depth' : Nat} {ts : List Token}
    (h : depthAfter depth ts = some depth') : depth + opened ts = depth' + closed ts := by
  -- Token by token; only parentheses are counted, and only they change the depth.
  induction ts generalizing depth with
  | nil =>
    cases h
    rfl
  | cons t ts ih =>
    rw [depthAfter_cons] at h
    obtain ⟨inner, hFirst, hRest⟩ := Option.bind_eq_some_iff.mp h
    have hLater := ih hRest
    rw [opened, closed, List.countP_cons, List.countP_cons, ← opened, ← closed]
    cases hKind : t.kind with
    | leftParen =>
      rw [hKind] at hFirst
      cases hFirst
      simp
      omega
    | rightParen =>
      rw [hKind] at hFirst
      cases depth with
      | zero => cases hFirst
      | succ outer =>
        cases hFirst
        simp
        omega
    | _ =>
      rw [hKind] at hFirst
      cases hFirst
      simpa using hLater

/-- Unless everything that is closed was open, there is a first token that closes what is
not. -/
theorem exists_unopened {depth : Nat} {ts : List Token} (h : depthAfter depth ts = none) :
    ∃ before t after, ts = before ++ t :: after ∧ t.kind = .rightParen ∧
      depthAfter depth before = some 0 := by
  induction ts generalizing depth with
  | nil => cases h
  | cons t ts ih =>
    rw [depthAfter_cons] at h
    cases hFirst : t.kind.deepen depth with
    | none =>
      -- only a closing parenthesis fails, and only where nothing is open
      cases hKind : t.kind with
      | rightParen =>
        rw [hKind] at hFirst
        cases depth with
        | zero => exact ⟨[], t, ts, rfl, hKind, rfl⟩
        | succ outer => cases hFirst
      | _ =>
        rw [hKind] at hFirst
        cases hFirst
    | some inner =>
      rw [hFirst] at h
      obtain ⟨before, u, after, rfl, hKind, hDepth⟩ := ih h
      refine ⟨t :: before, u, after, rfl, hKind, ?_⟩
      rw [depthAfter_cons, hFirst]
      exact hDepth

/-- Where the depth is lost, a first right parenthesis closes nothing. -/
theorem exists_firstUnopened {tokens : List Token} (h : depthAfter 0 tokens = none) :
    ∃ t, FirstUnopened tokens t := by
  obtain ⟨before, t, after, hSplit, hKind, hDepth⟩ := exists_unopened h
  exact ⟨t, before, after, hSplit, hKind, hDepth⟩

/-! ## The verdict on a text that goes on -/

namespace Console

variable {zone zone' : Zone} {outer inner : List Char} {c : Char} {text : List Char}

/-- The verdict on a text goes character by character, as long as no bracket is amiss: the step by
itself and the verdict from there on are the same two tests. -/
theorem checkBracketsFrom_cons (h : bracketStep (zone, outer) c = some (zone', inner))
    (place : Nat) (rest : List Char) :
    checkBracketsFrom zone outer place (c :: rest) =
      checkBracketsFrom zone' inner (place + 1) rest := by
  rw [bracketStep] at h
  conv => lhs; unfold checkBracketsFrom
  -- The step tells three kinds of characters apart: openings, closings, and all others.
  split at h
  · rename_i hOpening
    cases h
    rw [if_pos hOpening]
  · rename_i hOpening
    rw [if_neg hOpening]
    split at h
    · rename_i hClosing
      rw [if_pos hClosing]
      obtain ⟨left, hClose, hEq⟩ := Option.map_eq_some_iff.mp h
      cases hEq
      cases outer with
      | nil => cases hClose
      | cons opening outer =>
        rw [closeInnermost] at hClose
        split at hClose
        · rename_i hPartner
          cases hClose
          exact if_pos hPartner
        · cases hClose
    · rename_i hClosing
      cases h
      rw [if_neg hClosing]

/-- Where no bracket of a text closes nothing, the verdict is that on what follows. -/
theorem checkBracketsFrom_append (h : bracketsAfter (zone, outer) text = some (zone', inner))
    (place : Nat) (rest : List Char) :
    checkBracketsFrom zone outer place (text ++ rest) =
      checkBracketsFrom zone' inner (place + text.length) rest := by
  induction text generalizing zone outer place with
  | nil =>
    cases h
    rfl
  | cons c text ih =>
    rw [bracketsAfter_cons] at h
    obtain ⟨⟨zone₁, outer₁⟩, hStep, hRest⟩ := Option.bind_eq_some_iff.mp h
    rw [List.cons_append, checkBracketsFrom_cons hStep, ih hRest, List.length_cons]
    congr 1
    omega

/-- The verdict on a text that ends here. -/
theorem checkBracketsFrom_eq (h : bracketsAfter (zone, outer) text = some (zone', inner))
    (place : Nat) : checkBracketsFrom zone outer place text =
      if zone' = .code ∧ inner = [] then .complete else .incomplete := by
  have hEnd := checkBracketsFrom_append h place []
  rwa [List.append_nil] at hEnd

/-! ## The pieces of a text -/

/-- A text of characters that open and close nothing. -/
theorem bracketsAfter_flat {outer : List Char}
    (h : ∀ c ∈ text, bracketStep (.code, outer) c = some (.code, outer)) :
    bracketsAfter (.code, outer) text = some (.code, outer) := by
  induction text with
  | nil => rfl
  | cons c text ih =>
    obtain ⟨hFirst, hRest⟩ := List.forall_mem_cons.mp h
    rw [bracketsAfter_cons, hFirst]
    exact ih hRest

/-- Between the quotes of a literal, escaped quotes included, nothing counts. -/
theorem bracketsAfter_inside {inside : List Char} (h : Quoted.Inside inside) (outer : List Char) :
    bracketsAfter (.string, outer) inside = some (.string, outer) := by
  induction h with
  | nil => rfl
  | @char c rest hQuote hBackslash h ih =>
    have hStep : bracketStep (.string, outer) c = some (.string, outer) := by
      rw [bracketStep_string .string (by decide), Zone.next, if_neg hBackslash, if_neg hQuote]
    rw [bracketsAfter_cons, hStep]
    exact ih
  | @escape c rest hFeed h ih =>
    have hBackslash : bracketStep (.string, outer) '\\' = some (.escape, outer) := rfl
    have hEscaped : bracketStep (.escape, outer) c = some (.string, outer) :=
      bracketStep_string .escape (by decide) outer c
    rw [bracketsAfter_cons, hBackslash]
    show bracketsAfter (.escape, outer) (c :: rest) = _
    rw [bracketsAfter_cons, hEscaped]
    exact ih

/-- A whole literal leaves the brackets as they are, whatever it is made of. -/
theorem bracketsAfter_literal {inside : List Char} (h : Quoted.Inside inside)
    (outer : List Char) :
    bracketsAfter (.code, outer) ('"' :: (inside ++ ['"'])) = some (.code, outer) := by
  have hOpen : bracketStep (.code, outer) '"' = some (.string, outer) := rfl
  have hClose : bracketsAfter (.string, outer) ['"'] = some (.code, outer) := rfl
  rw [bracketsAfter_cons, hOpen]
  show bracketsAfter (.string, outer) (inside ++ ['"']) = _
  rw [bracketsAfter_append, bracketsAfter_inside h]
  exact hClose

/-- Blanks, and no comments among them. -/
theorem bracketsAfter_gap {atEnd : Bool} {gap : List Char} (h : Gap atEnd gap)
    (hPlain : ';' ∉ gap) (outer : List Char) :
    bracketsAfter (.code, outer) gap = some (.code, outer) := by
  induction h with
  | nil => rfl
  | @blank c rest hBlank h ih =>
    rw [bracketsAfter_cons, bracketStep_separator hBlank]
    exact ih fun hMem => hPlain (List.mem_cons_of_mem _ hMem)
  | comment hBody hLine h ih => exact absurd List.mem_cons_self hPlain
  | lastComment hEnd hBody => exact absurd List.mem_cons_self hPlain

end Console

open Console

/-- A piece of a text opens and closes for the console what its token does. -/
theorem Lexeme.bracketsAfter_eq {slice : List Char} {kind : TokenKind} (h : Lexeme slice kind)
    {depth depth' : Nat} (hDepth : kind.deepen depth = some depth') :
    bracketsAfter (.code, List.replicate depth '(') slice =
      some (.code, List.replicate depth' '(') := by
  -- Each kind of piece: the two parentheses, the marks, words, and literals.
  cases h with
  | leftParen =>
    cases hDepth
    rfl
  | rightParen =>
    cases depth with
    | zero => cases hDepth
    | succ outer =>
      cases hDepth
      rfl
  | mark m =>
    cases hDepth
    cases m <;> rfl
  | word hSome hWord =>
    rw [TokenKind.deepen_ofWord] at hDepth
    cases hDepth
    exact bracketsAfter_flat fun c hc => bracketStep_word (hWord c hc) _
  | string hInside hText =>
    cases hDepth
    exact bracketsAfter_literal hInside _

/-- After a literal the same brackets are open as before it, whichever they are. -/
theorem Lexeme.bracketsAfter_string {slice : List Char} {kind : TokenKind} (h : Lexeme slice kind)
    {s : String} (hKind : kind = .string s) (outer : List Char) :
    bracketsAfter (.code, outer) slice = some (.code, outer) := by
  cases h with
  | string hInside hText => exact bracketsAfter_literal hInside outer
  | word hSome hWord =>
    have hIsWord := TokenKind.isWord_ofWord slice
    rw [hKind] at hIsWord
    cases hIsWord
  | _ => cases hKind

/-- The piece of a right parenthesis is that one character. -/
theorem Lexeme.eq_of_rightParen {slice : List Char} {kind : TokenKind} (h : Lexeme slice kind)
    (hKind : kind = .rightParen) : slice = [')'] := by
  cases h with
  | rightParen => rfl
  | word hSome hWord =>
    have hIsWord := TokenKind.isWord_ofWord slice
    rw [hKind] at hIsWord
    cases hIsWord
  | _ => cases hKind

/-! ## A whole text -/

section Pieces
variable {position : Nat} {gap slice rest : List Char} {kind : TokenKind} {tokens : List Token}
  (hQuoted : SemicolonsQuoted position (gap ++ slice ++ rest)
    (⟨kind, position + byteLength gap, position + byteLength gap + byteLength slice⟩ :: tokens))
include hQuoted

/-- No token begins before the first one. -/
theorem SemicolonsQuoted.notMem_gap
    (hRest : Segmented (position + byteLength gap + byteLength slice) rest tokens) :
    ';' ∉ gap := by
  intro hMem
  obtain ⟨before, after, rfl⟩ := List.append_of_mem hMem
  obtain ⟨t, ht, -, hStart, -⟩ := hQuoted before (after ++ slice ++ rest) (by simp)
  have hInner : byteLength before < byteLength (before ++ ';' :: after) := by
    have hOne : 0 < ';'.utf8Size := by decide
    rw [byteLength_append, byteLength_cons]
    omega
  obtain rfl | ht := List.mem_cons.mp ht
  · have hStart : position + byteLength (before ++ ';' :: after) ≤ position + byteLength before :=
      hStart
    omega
  · have hLater := hRest.position_le t ht
    omega

/-- What is behind a token is not within it. -/
theorem SemicolonsQuoted.behind :
    SemicolonsQuoted (position + byteLength gap + byteLength slice) rest tokens := by
  intro before after hText
  obtain ⟨t, ht, hString, hStart, hStop⟩ :=
    hQuoted (gap ++ slice ++ before) after (by rw [hText]; simp)
  have hPlace : position + byteLength (gap ++ slice ++ before) =
      position + byteLength gap + byteLength slice + byteLength before := by
    rw [byteLength_append, byteLength_append]
    omega
  rw [hPlace] at hStart hStop
  obtain rfl | ht := List.mem_cons.mp ht
  · have hStop : position + byteLength gap + byteLength slice + byteLength before <
        position + byteLength gap + byteLength slice := hStop
    omega
  · exact ⟨t, ht, hString, hStart, hStop⟩

end Pieces

/-- A gap at the end of a text without tokens. -/
theorem SemicolonsQuoted.notMem_last {position : Nat} {gap : List Char}
    (h : SemicolonsQuoted position gap []) : ';' ∉ gap := by
  intro hMem
  obtain ⟨before, after, hGap⟩ := List.append_of_mem hMem
  obtain ⟨t, ht, -⟩ := h before after hGap
  cases ht

namespace Segmented

variable {position : Nat} {text : List Char} {tokens : List Token}

/-- A gap and a piece. -/
theorem bracketsAfter_token {gap slice : List Char} {kind : TokenKind} (hGap : Gap false gap)
    (hPlain : ';' ∉ gap) (hLexeme : Lexeme slice kind) {depth depth' : Nat}
    (hDepth : kind.deepen depth = some depth') :
    bracketsAfter (.code, List.replicate depth '(') (gap ++ slice) =
      some (.code, List.replicate depth' '(') := by
  rw [bracketsAfter_append, bracketsAfter_gap hGap hPlain]
  exact hLexeme.bracketsAfter_eq hDepth

/-- Where the tokens close nothing that is not open, the console has the same parentheses
open after the text. -/
theorem bracketsAfter_eq (h : Segmented position text tokens)
    (hQuoted : SemicolonsQuoted position text tokens) {depth depth' : Nat}
    (hDepth : depthAfter depth tokens = some depth') :
    bracketsAfter (.code, List.replicate depth '(') text =
      some (.code, List.replicate depth' '(') := by
  induction h generalizing depth with
  | last h =>
    cases hDepth
    exact bracketsAfter_gap h hQuoted.notMem_last _
  | @token position gap slice rest kind tokens hGap hLexeme hWhole hRest ih =>
    rw [depthAfter_cons] at hDepth
    obtain ⟨inner, hFirst, hLater⟩ := Option.bind_eq_some_iff.mp hDepth
    have hToken := bracketsAfter_token hGap (hQuoted.notMem_gap hRest) hLexeme hFirst
    rw [bracketsAfter_append, hToken]
    exact ih hQuoted.behind hLater

/-- Up to a token behind which nothing is open, the console has nothing open either. -/
theorem bracketsAfter_before (h : Segmented position text tokens)
    (hQuoted : SemicolonsQuoted position text tokens) {before after : List Token} {t : Token}
    (hSplit : tokens = before ++ t :: after) (hKind : t.kind = .rightParen) {depth : Nat}
    (hDepth : depthAfter depth before = some 0) :
    ∃ pre post, text = pre ++ ')' :: post ∧ t.span.start = position + byteLength pre ∧
      bracketsAfter (.code, List.replicate depth '(') pre = some (.code, []) := by
  induction h generalizing before depth with
  | last h => simp at hSplit
  | @token position gap slice rest kind tokens hGap hLexeme hWhole hRest ih =>
    have hPlain : ';' ∉ gap := hQuoted.notMem_gap hRest
    cases before with
    | nil =>
      -- it is the first token, and between it and what came before there are only blanks
      obtain ⟨rfl, -⟩ := List.cons.inj hSplit
      cases hDepth
      obtain rfl := hLexeme.eq_of_rightParen hKind
      exact ⟨gap, rest, by simp, rfl, bracketsAfter_gap hGap hPlain _⟩
    | cons u before =>
      obtain ⟨rfl, hTail⟩ := List.cons.inj hSplit
      rw [depthAfter_cons] at hDepth
      obtain ⟨inner, hFirst, hLater⟩ := Option.bind_eq_some_iff.mp hDepth
      have hToken := bracketsAfter_token hGap hPlain hLexeme hFirst
      obtain ⟨pre, post, rfl, hStart, hPre⟩ := ih hQuoted.behind hTail hLater
      refine ⟨gap ++ slice ++ pre, post, by simp, ?_, ?_⟩
      · rw [hStart, byteLength_append, byteLength_append]
        omega
      · rw [bracketsAfter_append, hToken]
        exact hPre

end Segmented

/-! ## Where the reader waits for a parenthesis -/

/-- If the innermost thing that the tokens leave unfinished is a list, then a parenthesis is
open. -/
theorem depthAfter_of_unfinished {ts : List Token} {opening : Span} {depth : Nat}
    (h : Unfinished ts (.close opening)) (hDepth : depthAfter 0 ts = some depth) : 0 < depth := by
  cases h with
  | @list before inside t ds hOpen hItems =>
    rw [depthAfter_append] at hDepth
    obtain ⟨outer, -, hDepth⟩ := Option.bind_eq_some_iff.mp hDepth
    rw [depthAfter_cons, hOpen] at hDepth
    have hInside : depthAfter (outer + 1) inside = some depth := hDepth
    rw [hItems.depthAfter_eq] at hInside
    cases hInside
    exact Nat.succ_pos outer

/-- What is the beginning of data closes nothing that is not open. -/
theorem Viable.exists_depth {ts : List Token} (h : Viable SpellsData ts) :
    ∃ depth, depthAfter 0 ts = some depth := by
  obtain ⟨more, ds, hData⟩ := h
  have hWhole := hData.depthAfter_eq 0
  rw [depthAfter_append] at hWhole
  obtain ⟨depth, hDepth, -⟩ := Option.bind_eq_some_iff.mp hWhole
  exact ⟨depth, hDepth⟩

/-- Where an error asks for a closing parenthesis, one is open. -/
theorem exists_depth_of_unclosed {sentence : List Token → Prop}
    (hSentence : ∀ ts, sentence ts → SpellsData ts) {ts rest : List Token} {opening : Span}
    (h : (ParseError.unexpectedEnd (.close opening)).PointsAt sentence ts rest) :
    ∃ depth, depthAfter 0 ts = some depth ∧ 0 < depth := by
  cases h with
  | ending hRest hViable hPart hExpected =>
    obtain ⟨more, hMore⟩ := hViable
    have hData : Viable SpellsData ts := ⟨more, hSentence _ hMore⟩
    obtain ⟨depth, hDepth⟩ := hData.exists_depth
    exact ⟨depth, hDepth, depthAfter_of_unfinished hExpected hDepth⟩

/-- A reader that waits for a parenthesis has found one more opened than closed. -/
theorem exists_depth_of_parse_error {ts : List Token} {opening : Span}
    (h : parseOne ts = .error (.unexpectedEnd (.close opening)) ∨
      parseAll ts = .error (.unexpectedEnd (.close opening))) :
    ∃ depth, depthAfter 0 ts = some depth ∧ 0 < depth := by
  obtain hOne | hAll := h
  · obtain ⟨rest, hPoints⟩ := parseOne_error hOne
    refine exists_depth_of_unclosed ?_ hPoints
    rintro us ⟨d, hd⟩
    exact ⟨[d], hd.single⟩
  · obtain ⟨rest, hPoints⟩ := parseAll_error hAll
    exact exists_depth_of_unclosed (fun _ hData => hData) hPoints

/-! ## The verdict -/

/-- **The console measures parentheses.** For a text that is scanned and has no semicolons
outside of literals the verdict can be told from the tokens. If some token closes a parenthesis
although none is open, the first one that does is what is unmatched, at its place in characters.
Otherwise the text is incomplete if more parentheses are opened than closed, and complete if not.
So it is incomplete wherever the reader fails for want of a closing parenthesis. Whatever is
open before a literal, the verdict on the rest of the text is the same after it. -/
theorem verdict_from_parentheses {text : String} {tokens : List Token}
    (hTokens : tokenize text = .ok tokens) (hQuoted : SemicolonsQuoted 0 text.toList tokens) :
    (∀ t, FirstUnopened tokens t → ∃ before after, text.toList = before ++ ')' :: after ∧
      byteLength before = t.span.start ∧
      checkBrackets text.toList = .unmatched ')' before.length) ∧
    ((∀ t, ¬ FirstUnopened tokens t) →
      checkBrackets text.toList =
        if closed tokens < opened tokens then .incomplete else .complete) ∧
    (∀ opening, parseText text = .error (.unexpectedEnd (.close opening)) ∨
        parseProgram text = .error (.unexpectedEnd (.close opening)) →
      checkBrackets text.toList = .incomplete) ∧
    (∀ t ∈ tokens, ∀ s, t.kind = .string s → ∃ before slice after,
      text.toList = before ++ slice ++ after ∧
      t.span = ⟨byteLength before, byteLength before + byteLength slice⟩ ∧
      ∀ outer place, checkBracketsFrom .code outer place (slice ++ after) =
        checkBracketsFrom .code outer (place + slice.length) after) := by
  have hCut : Segmented 0 text.toList tokens := tokenizeAt_eq_ok_iff.mp hTokens
  -- with every parenthesis opened before it is closed, the console has those open that are left
  have hVerdict : ∀ depth, depthAfter 0 tokens = some depth →
      checkBrackets text.toList = if 0 < depth then .incomplete else .complete := by
    intro depth hDepth
    have hAfter : bracketsAfter (.code, []) text.toList = some (.code, List.replicate depth '(') :=
      hCut.bracketsAfter_eq hQuoted hDepth
    rw [checkBrackets, checkBracketsFrom_eq hAfter]
    cases depth with
    | zero => rfl
    | succ outer => rfl
  refine ⟨?_, ?_, ?_, ?_⟩
  · rintro t ⟨before, after, hSplit, hKind, hDepth⟩
    obtain ⟨pre, post, hText, hStart, hPre⟩ :=
      hCut.bracketsAfter_before hQuoted hSplit hKind hDepth
    have hPre : bracketsAfter (.code, []) pre = some (.code, []) := hPre
    refine ⟨pre, post, hText, by rw [hStart, Nat.zero_add], ?_⟩
    rw [checkBrackets, hText, checkBracketsFrom_append hPre, Nat.zero_add]
    rfl
  · intro hOpened
    cases hDepth : depthAfter 0 tokens with
    | none =>
      obtain ⟨t, hFirst⟩ := exists_firstUnopened hDepth
      exact absurd hFirst (hOpened t)
    | some depth =>
      have hCount := depthAfter_count hDepth
      have hMore : 0 < depth ↔ closed tokens < opened tokens := by omega
      rw [hVerdict depth hDepth]
      simp only [hMore]
  · intro opening hFails
    have hScan : scanText text = .ok tokens := by
      rw [scanText, hTokens]
      rfl
    rw [parseText, parseProgram, hScan] at hFails
    obtain ⟨depth, hDepth, hOpen⟩ := exists_depth_of_parse_error hFails
    rw [hVerdict depth hDepth, if_pos hOpen]
  · intro t ht s hKind
    obtain ⟨before, slice, after, hHolds⟩ := hCut.holds t ht
    refine ⟨before, slice, after, hHolds.text_eq, ?_, ?_⟩
    · rw [hHolds.span_eq, Nat.zero_add]
    · intro outer place
      exact checkBracketsFrom_append (hHolds.lexeme.bracketsAfter_string hKind outer) place after

/-- In `(";λ\")"))` the last parenthesis closes nothing: the one in the literal does not count,
and neither does the semicolon. Ten bytes are before it, and nine characters. -/
theorem verdict_from_parentheses_unmatched :
    ∃ tokens t, tokenize "(\";λ\\\")\"))" = .ok tokens ∧
      SemicolonsQuoted 0 "(\";λ\\\")\"))".toList tokens ∧ FirstUnopened tokens t ∧
      ∃ before after, "(\";λ\\\")\"))".toList = before ++ ')' :: after ∧ byteLength before = 10 ∧
        checkBrackets "(\";λ\\\")\"))".toList = .unmatched ')' before.length := by
  have hTokens : tokenize "(\";λ\\\")\"))" = .ok [⟨.leftParen, 0, 1⟩, ⟨.string ";λ\")", 1, 9⟩,
      ⟨.rightParen, 9, 10⟩, ⟨.rightParen, 10, 11⟩] := by rfl
  have hQuoted : SemicolonsQuoted 0 "(\";λ\\\")\"))".toList [⟨.leftParen, 0, 1⟩,
      ⟨.string ";λ\")", 1, 9⟩, ⟨.rightParen, 9, 10⟩, ⟨.rightParen, 10, 11⟩] := by
    intro before after hText
    refine ⟨⟨.string ";λ\")", 1, 9⟩, by simp, ⟨_, rfl⟩, ?_⟩
    -- the only semicolon is behind two characters
    have hText : ['(', '"', ';', 'λ', '\\', '"', ')', '"', ')', ')'] = before ++ ';' :: after :=
      hText
    obtain _ | ⟨c, _ | ⟨d, _ | ⟨e, before⟩⟩⟩ := before
    · simp at hText
    · simp at hText
    · simp only [List.cons_append, List.cons.injEq] at hText
      obtain ⟨rfl, rfl, -⟩ := hText
      exact ⟨by decide, by decide⟩
    · have hMem : ';' ∈ ['λ', '\\', '"', ')', '"', ')', ')'] := by simp_all
      exact absurd hMem (by decide)
  have hLast : FirstUnopened [⟨.leftParen, 0, 1⟩, ⟨.string ";λ\")", 1, 9⟩, ⟨.rightParen, 9, 10⟩,
      ⟨.rightParen, 10, 11⟩] ⟨.rightParen, 10, 11⟩ :=
    ⟨[⟨.leftParen, 0, 1⟩, ⟨.string ";λ\")", 1, 9⟩, ⟨.rightParen, 9, 10⟩], [], rfl, rfl, rfl⟩
  exact ⟨_, _, hTokens, hQuoted, hLast, (verdict_from_parentheses hTokens hQuoted).1 _ hLast⟩

end MiniScheme
