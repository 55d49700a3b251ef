import MiniScheme.Proofs.Token.Scan
import MiniScheme.Proofs.Token.Unclosed

/-!
# Texts cut into tokens

Tokens cut a text into pieces: parentheses, marks, words and literals, and between them
blanks and comments. Nothing else is left out, and no word stops before the word
characters do. There is at most one way to cut a text, and scanning finds it. Where there
is none, it stops at the first place up to which the text can be cut.

* `Lexeme`, `Gap`, `Segmented` — the pieces, what stands between them, a text cut into
  tokens;
* `Scanner.scan_gap`, `Scanner.scan_lexeme` — the scanner goes past one piece;
* `Scanner.exists_front` — what any text begins with: a piece, or a fault;
* `Segmented.scan_eq`, `Scanner.scan_cases` — whole texts, in both directions;
* `tokens_cut_text` — the tokens of a text, and the place where there are no more.

One character misleads the scanner: after a number that lacks the digits of its exponent
it takes the first byte of some characters for that of a pictograph. Those characters
begin no piece, so that a text in which one follows cannot be cut anyway.
-/

namespace MiniScheme

/-! ## The pieces of a text -/

/-- Symbols, numbers, truth values and dots are words. -/
def TokenKind.isWord : TokenKind → Bool
  | symbol _ | number _ | boolean _ | dot => true
  | leftParen | rightParen | mark _ | string _ => false

/-- The text of a token: a parenthesis, a mark, a word or a literal. -/
inductive Lexeme : List Char → TokenKind → Prop
  | leftParen : Lexeme ['('] .leftParen
  | rightParen : Lexeme [')'] .rightParen
  | mark (m : Mark) : Lexeme m.text.toList (.mark m)
  | word {word : List Char} (hSome : word ≠ []) (hWord : ∀ c ∈ word, isWordChar c) :
      Lexeme word (.ofWord word)
  | string {inside text : List Char} (hInside : Quoted.Inside inside)
      (hText : Quoted.unescape inside = .ok text) :
      Lexeme ('"' :: (inside ++ ['"'])) (.string (.ofList text))

/-- Blanks and comments. A comment goes to the end of its line; the last one may also
go to the end of the text. -/
inductive Gap (atEnd : Bool) : List Char → Prop
  | nil : Gap atEnd []
  | blank {c : Char} {rest : List Char} (hBlank : isSeparator c) (h : Gap atEnd rest) :
      Gap atEnd (c :: rest)
  | comment {body rest : List Char} {c : Char} (hBody : ∀ d ∈ body, ¬ (d = '\n' ∨ d = '\r'))
      (hLine : c = '\n' ∨ c = '\r') (h : Gap atEnd rest) : Gap atEnd (';' :: (body ++ c :: rest))
  | lastComment {body : List Char} (hEnd : atEnd = true)
      (hBody : ∀ d ∈ body, ¬ (d = '\n' ∨ d = '\r')) : Gap atEnd (';' :: body)

/-- The text, whose first byte has the given offset, is cut into these tokens. A word
goes as far as there are word characters. -/
inductive Segmented : (position : Nat) → List Char → List Token → Prop
  | last {position : Nat} {gap : List Char} (h : Gap true gap) : Segmented position gap []
  | token {position : Nat} {gap slice rest : List Char} {kind : TokenKind} {tokens : List Token}
      (hGap : Gap false gap) (hLexeme : Lexeme slice kind)
      (hWhole : kind.isWord → ∀ c ∈ rest.head?, isWordChar c = false)
      (hRest : Segmented (position + byteLength gap + byteLength slice) rest tokens) :
      Segmented position (gap ++ slice ++ rest)
        (⟨kind, position + byteLength gap, position + byteLength gap + byteLength slice⟩ :: tokens)

/-- Every kind that a word can have is that of a word. -/
theorem TokenKind.isWord_ofWord (word : List Char) : (ofWord word).isWord = true := by
  unfold ofWord
  split
  · rfl
  · split
    · rfl
    · split
      · rfl
      · split <;> rfl

/-- A gap before a token ends in a blank. -/
theorem Gap.getLast? {gap : List Char} (h : Gap false gap) :
    ∀ c ∈ gap.getLast?, isWordChar c = false := by
  -- the last blank, unless there is more after it
  have hBlank : ∀ (before : List Char) {rest : List Char} {d : Char}, isSeparator d →
      (∀ c ∈ rest.getLast?, isWordChar c = false) →
      ∀ c ∈ (before ++ d :: rest).getLast?, isWordChar c = false := by
    intro before rest d hd hRest c hc
    cases rest with
    | nil =>
      rw [List.getLast?_concat] at hc
      cases hc
      exact (Scanner.isSeparator_ends hd).1
    | cons e rest =>
      rw [List.getLast?_append, List.getLast?_cons_cons] at hc
      exact hRest c (by simpa [List.getLast?_cons] using hc)
  induction h with
  | nil => exact nofun
  | blank hd h ih => exact hBlank [] hd ih
  | @comment body rest d hBody hLine h ih =>
    have hd : isSeparator d := by rcases hLine with rfl | rfl <;> rfl
    exact hBlank (';' :: body) hd ih
  | lastComment hEnd hBody => cases hEnd

/-- A gap within the text may also stand at its end. -/
theorem Gap.atEnd {gap : List Char} (h : Gap false gap) : Gap true gap := by
  induction h with
  | nil => exact .nil
  | blank hBlank h ih => exact .blank hBlank ih
  | comment hBody hLine h ih => exact .comment hBody hLine ih
  | lastComment hEnd hBody => cases hEnd

namespace Lexeme

variable {slice : List Char} {kind : TokenKind}

theorem ne_nil (h : Lexeme slice kind) : slice ≠ [] := by
  cases h with
  | mark m => cases m <;> exact List.cons_ne_nil _ _
  | word hSome hWord => exact hSome
  | _ => exact List.cons_ne_nil _ _

/-- A piece that is a word is made of word characters. -/
theorem of_isWord (h : Lexeme slice kind) (hKind : kind.isWord) : ∀ c ∈ slice, isWordChar c := by
  cases h with
  | word hSome hWord => exact hWord
  | _ => cases hKind

/-- A piece that is no word does not end in a word character. -/
theorem getLast?_of_not_isWord (h : Lexeme slice kind) (hKind : kind.isWord = false) :
    ∀ c ∈ slice.getLast?, isWordChar c = false := by
  have hChar : ∀ (before : List Char) {d : Char}, isWordChar d = false →
      ∀ c ∈ (before ++ [d]).getLast?, isWordChar c = false := by
    intro before d hd c hc
    rw [List.getLast?_concat] at hc
    cases hc
    exact hd
  cases h with
  | leftParen => exact hChar [] (by decide)
  | rightParen => exact hChar [] (by decide)
  | mark m =>
    cases m with
    | unquoteSplicing => exact hChar [','] (by decide)
    | _ => exact hChar [] (by decide)
  | word hSome hWord =>
    rw [TokenKind.isWord_ofWord] at hKind
    cases hKind
  | @string inside text hInside hText => exact hChar ('"' :: inside) (by decide)

end Lexeme

namespace Scanner

variable {position : Nat} {tokens : List Token} {gap rest : List Char}

/-- What the rest of a text is scanned as. -/
def scan (s : Scanner) (text : List Char) : Except LexError (List Token) :=
  s.feedAll text >>= finish

theorem scan_nil (s : Scanner) : s.scan [] = s.finish := rfl

theorem scan_cons (s : Scanner) (c : Char) (rest : List Char) :
    s.scan (c :: rest) = s.feed c >>= fun s' => s'.scan rest := by
  rw [scan, feedAll_cons, bind_assoc]
  rfl

theorem scan_append {s s' : Scanner} {text : List Char} (h : s.feedAll text = .ok s')
    (rest : List Char) : s.scan (text ++ rest) = s'.scan rest := by
  rw [scan, feedAll_append, h]
  rfl

/-! ## Gaps -/

/-- A blank is skipped. -/
theorem scan_blank {c : Char} (h : isSeparator c) (rest : List Char) :
    scan ⟨position, .gap, tokens⟩ (c :: rest) =
      scan ⟨position + c.utf8Size, .gap, tokens⟩ rest := by
  have hFeed : feed ⟨position, .gap, tokens⟩ c = .ok ⟨position + c.utf8Size, .gap, tokens⟩ := by
    simp only [feed, enter, h, if_true]
    rfl
  rw [scan_cons, hFeed]
  rfl

/-- A comment up to the end of its line or of the text. -/
theorem feedAll_comment {body : List Char} (hBody : ∀ d ∈ body, ¬ (d = '\n' ∨ d = '\r')) :
    feedAll ⟨position, .gap, tokens⟩ (';' :: body) =
      .ok ⟨position + byteLength (';' :: body), .comment, tokens⟩ := by
  suffices h : ∀ position, feedAll ⟨position, .comment, tokens⟩ body =
      .ok ⟨position + byteLength body, .comment, tokens⟩ by
    have hFeed : feed ⟨position, .gap, tokens⟩ ';' =
        .ok ⟨position + ';'.utf8Size, .comment, tokens⟩ := rfl
    rw [feedAll_cons, hFeed, byteLength_cons, ← Nat.add_assoc]
    exact h _
  induction body with
  | nil => exact fun position => rfl
  | cons d body ih =>
    intro position
    obtain ⟨hFirst, hRest⟩ := List.forall_mem_cons.mp hBody
    have hFeed : feed ⟨position, .comment, tokens⟩ d =
        .ok ⟨position + d.utf8Size, .comment, tokens⟩ := by
      simp only [feed, if_neg hFirst]
      rfl
    rw [feedAll_cons, hFeed, byteLength_cons, ← Nat.add_assoc]
    exact ih hRest _

/-- The end of a line ends a comment. -/
theorem scan_line {c : Char} (h : c = '\n' ∨ c = '\r') (rest : List Char) :
    scan ⟨position, .comment, tokens⟩ (c :: rest) =
      scan ⟨position + c.utf8Size, .gap, tokens⟩ rest := by
  have hBlank : isSeparator c := by rcases h with rfl | rfl <;> rfl
  have hFeed : feed ⟨position, .comment, tokens⟩ c =
      .ok ⟨position + c.utf8Size, .gap, tokens⟩ := by
    simp only [feed, if_pos h, enter, hBlank, if_true]
    rfl
  rw [scan_cons, hFeed]
  rfl

/-- A gap within the text is skipped. -/
theorem scan_gap (h : Gap false gap) (rest : List Char) :
    scan ⟨position, .gap, tokens⟩ (gap ++ rest) =
      scan ⟨position + byteLength gap, .gap, tokens⟩ rest := by
  induction h generalizing position with
  | nil => rfl
  | blank hBlank h ih =>
    rw [List.cons_append, scan_blank hBlank, ih, byteLength_cons, Nat.add_assoc]
  | @comment body more c hBody hLine h ih =>
    rw [← List.cons_append, List.append_assoc, scan_append (feedAll_comment hBody),
      List.cons_append, scan_line hLine, ih, byteLength_append, byteLength_cons c, Nat.add_assoc,
      Nat.add_assoc]
  | lastComment hEnd hBody => cases hEnd

/-- The end of a text. -/
theorem scan_lastGap (h : Gap true gap) :
    scan ⟨position, .gap, tokens⟩ gap = .ok tokens.reverse := by
  induction h generalizing position with
  | nil => rfl
  | blank hBlank h ih => rw [scan_blank hBlank, ih]
  | comment hBody hLine h ih =>
    rw [← List.cons_append, scan_append (feedAll_comment hBody), scan_line hLine, ih]
  | lastComment hEnd hBody =>
    rw [scan, feedAll_comment hBody]
    rfl

/-! ## Tokens -/

/-- The scanner sees that a piece ends before this character. -/
def StopsAt (slice : List Char) (kind : TokenKind) (c : Char) : Prop :=
  (kind.isWord → isWordChar c = false ∧
    (beginsLikePictograph c → Decimal.lacksExponent slice = false)) ∧
  (kind = .mark .unquote → c ≠ '@')

theorem not_isSeparator {c : Char} (h : isWordChar c) : isSeparator c = false := by
  rw [Bool.eq_false_iff]
  intro hBlank
  rw [(isSeparator_ends hBlank).1] at h
  cases h

/-- A word is taken character by character, and is then in hand. -/
theorem feedAll_begun {word : List Char} (hSome : word ≠ []) (hWord : ∀ c ∈ word, isWordChar c) :
    feedAll ⟨position, .gap, tokens⟩ word =
      .ok ⟨position + byteLength word, .word position word.reverse, tokens⟩ := by
  obtain ⟨c, word, rfl⟩ := List.exists_cons_of_ne_nil hSome
  obtain ⟨hFirst, hRest⟩ := List.forall_mem_cons.mp hWord
  have hFeed : feed ⟨position, .gap, tokens⟩ c =
      .ok ⟨position + c.utf8Size, .word position [c], tokens⟩ := by
    simp only [feed, enter, not_isSeparator hFirst, hFirst, if_true]
    rfl
  obtain ⟨position', hWhole⟩ := feedAll_word (position + c.utf8Size) position [c] tokens hRest
  have hPosition : position' = position + byteLength (c :: word) := by
    have hEnd := feedAll_position hWhole
    rw [byteLength_cons, ← Nat.add_assoc]
    exact hEnd
  rw [feedAll_cons, hFeed, ← hPosition, List.reverse_cons]
  exact hWhole

/-- A word is one token where no more of it follows, and no number that lacks its exponent is
cut short. -/
theorem scan_word {word : List Char} (hSome : word ≠ []) (hWord : ∀ c ∈ word, isWordChar c)
    (hStops : ∀ c ∈ rest.head?, isWordChar c = false ∧
      (beginsLikePictograph c → Decimal.lacksExponent word = false)) :
    scan ⟨position, .gap, tokens⟩ (word ++ rest) =
      scan ⟨position + byteLength word, .gap,
        ⟨.ofWord word, position, position + byteLength word⟩ :: tokens⟩ rest := by
  rw [scan_append (feedAll_begun hSome hWord)]
  cases rest with
  | nil =>
    rw [scan_nil, scan_nil]
    simp only [finish, emit, List.reverse_reverse]
  | cons c rest =>
    obtain ⟨hc, hNumber⟩ := hStops c rfl
    have hNot : ¬ (beginsLikePictograph c ∧ Decimal.lacksExponent word) := by
      rintro ⟨hBegins, hLacks⟩
      rw [hNumber hBegins] at hLacks
      cases hLacks
    rw [scan_cons, scan_cons]
    simp only [feed, hc, List.reverse_reverse, if_neg hNot]
    rfl

/-- A comma is a token of its own unless an at sign follows. -/
theorem scan_comma (hStops : ∀ c ∈ rest.head?, c ≠ '@') :
    scan ⟨position, .gap, tokens⟩ (',' :: rest) =
      scan ⟨position + 1, .gap, ⟨.mark .unquote, position, position + 1⟩ :: tokens⟩ rest := by
  show scan ⟨position + 1, .comma position, tokens⟩ rest = _
  cases rest with
  | nil => rfl
  | cons c rest =>
    have hAt : c ≠ '@' := hStops c rfl
    rw [scan_cons, scan_cons]
    simp only [feed, if_neg hAt]
    rfl

/-- A literal is one token, with its text unescaped. -/
theorem scan_string {inside text : List Char} (hInside : Quoted.Inside inside)
    (hText : Quoted.unescape inside = .ok text) (rest : List Char) :
    scan ⟨position, .gap, tokens⟩ ('"' :: (inside ++ ['"']) ++ rest) =
      scan ⟨position + byteLength ('"' :: (inside ++ ['"'])), .gap,
        ⟨.string (.ofList text), position,
          position + byteLength ('"' :: (inside ++ ['"']))⟩ :: tokens⟩ rest := by
  have hLength : position + byteLength ('"' :: (inside ++ ['"'])) =
      position + 1 + byteLength inside + 1 := by
    rw [byteLength_cons, byteLength_append, ← Nat.add_assoc, ← Nat.add_assoc]
    rfl
  have hOpen : feed ⟨position, .gap, tokens⟩ '"' =
      .ok ⟨position + 1, .string position [], tokens⟩ := rfl
  have hClose : feed ⟨position + 1 + byteLength inside, .string position inside.reverse, tokens⟩
      '"' = .ok ⟨position + 1 + byteLength inside + 1, .gap,
        ⟨.string (.ofList text), position, position + 1 + byteLength inside + 1⟩ :: tokens⟩ := by
    simp only [feed, if_true, closeString, List.reverse_reverse, hText]
    rfl
  -- The quote opens the literal, the characters inside leave it open, and the next quote closes it.
  rw [hLength, List.cons_append, scan_cons, hOpen, List.append_assoc]
  show scan _ (inside ++ '"' :: rest) = _
  rw [scan_append (feedAll_inside hInside _ _ _ _), List.append_nil, scan_cons, hClose]
  rfl

/-- A piece is one token. -/
theorem scan_lexeme {slice : List Char} {kind : TokenKind} (h : Lexeme slice kind)
    (hStops : ∀ c ∈ rest.head?, StopsAt slice kind c) :
    scan ⟨position, .gap, tokens⟩ (slice ++ rest) =
      scan ⟨position + byteLength slice, .gap,
        ⟨kind, position, position + byteLength slice⟩ :: tokens⟩ rest := by
  cases h with
  | leftParen => rfl
  | rightParen => rfl
  | mark m =>
    cases m with
    | unquote => exact scan_comma fun c hc => (hStops c hc).2 rfl
    | _ => rfl
  | word hSome hWord =>
    exact scan_word hSome hWord fun c hc => (hStops c hc).1 (TokenKind.isWord_ofWord _)
  | string hInside hText => exact scan_string hInside hText rest

/-- A gap and a piece. -/
theorem scan_token {slice : List Char} {kind : TokenKind} (hGap : Gap false gap)
    (hLexeme : Lexeme slice kind) (hStops : ∀ c ∈ rest.head?, StopsAt slice kind c) :
    scan ⟨position, .gap, tokens⟩ (gap ++ slice ++ rest) =
      scan ⟨position + byteLength gap + byteLength slice, .gap,
        ⟨kind, position + byteLength gap, position + byteLength gap + byteLength slice⟩ :: tokens⟩
        rest := by
  rw [List.append_assoc, scan_gap hGap, scan_lexeme hLexeme hStops]

/-! ## What a text begins with -/

/-- Scanning fails at the first character. -/
def FailsAtOnce (text : List Char) : Prop :=
  ∀ position tokens, ∃ fault stop,
    scan ⟨position, .gap, tokens⟩ text = .error ⟨fault, position, stop⟩

/-- Nothing but a gap, or after a gap a token or a fault. -/
inductive Front : List Char → Prop
  | last {text : List Char} (h : Gap true text) : Front text
  | lexeme {gap slice rest : List Char} {kind : TokenKind} (hGap : Gap false gap)
      (hLexeme : Lexeme slice kind) (hStops : ∀ c ∈ rest.head?, StopsAt slice kind c) :
      Front (gap ++ slice ++ rest)
  | fault {gap rest : List Char} (hGap : Gap false gap) (hFault : FailsAtOnce rest) :
      Front (gap ++ rest)

/-- A token right at the front. -/
theorem Front.of_lexeme {slice : List Char} {kind : TokenKind} (h : Lexeme slice kind)
    (hStops : ∀ c ∈ rest.head?, StopsAt slice kind c) : Front (slice ++ rest) :=
  show Front ([] ++ slice ++ rest) from .lexeme .nil h hStops

/-- A fault right at the front. -/
theorem Front.of_fault (h : FailsAtOnce rest) : Front rest :=
  show Front ([] ++ rest) from .fault .nil h

/-- A gap before the front. -/
theorem Front.after (before : List Char)
    (hBefore : ∀ {atEnd : Bool} {gap : List Char}, Gap atEnd gap → Gap atEnd (before ++ gap))
    (h : Front rest) : Front (before ++ rest) := by
  cases h with
  | last h => exact .last (hBefore h)
  | lexeme hGap hLexeme hStops =>
    rw [← List.append_assoc, ← List.append_assoc]
    exact .lexeme (hBefore hGap) hLexeme hStops
  | fault hGap hFault =>
    rw [← List.append_assoc]
    exact .fault (hBefore hGap) hFault

/-- What begins with a word character begins with a word, or with a number that lacks
its exponent. -/
theorem front_word {c : Char} (hc : isWordChar c) (rest : List Char) : Front (c :: rest) := by
  have hSplit : (c :: rest).takeWhile isWordChar ++ (c :: rest).dropWhile isWordChar = c :: rest :=
    List.takeWhile_append_dropWhile
  have hSome : (c :: rest).takeWhile isWordChar ≠ [] := by
    rw [List.takeWhile_cons_of_pos hc]
    exact List.cons_ne_nil _ _
  have hWord : ∀ d ∈ (c :: rest).takeWhile isWordChar, isWordChar d :=
    fun d hd => List.all_eq_true.mp List.all_takeWhile d hd
  have hNext : ∀ d ∈ ((c :: rest).dropWhile isWordChar).head?, isWordChar d = false := by
    intro d hd
    have hNot := List.head?_dropWhile_not isWordChar (c :: rest)
    rw [hd] at hNot
    exact hNot
  rw [← hSplit]
  generalize (c :: rest).takeWhile isWordChar = word at hSome hWord
  generalize (c :: rest).dropWhile isWordChar = more at hNext
  have hLexeme : Lexeme word (.ofWord word) := .word hSome hWord
  -- The word goes as far as it can; what stops it may show that it is an unfinished number.
  cases more with
  | nil => exact .of_lexeme hLexeme nofun
  | cons d more =>
    have hd : isWordChar d = false := hNext d rfl
    by_cases hNumber : beginsLikePictograph d ∧ Decimal.lacksExponent word
    · -- the number that lacks its exponent
      refine .of_fault fun position tokens =>
        ⟨.invalidNumber (.ofList word), position + byteLength word, ?_⟩
      rw [scan_append (feedAll_begun hSome hWord), scan_cons]
      simp only [feed, hd, List.reverse_reverse, if_pos hNumber]
      rfl
    · refine .of_lexeme hLexeme ?_
      rintro _ ⟨⟩
      refine ⟨fun _ => ⟨hd, fun hBegins => ?_⟩, fun hMark => ?_⟩
      · exact Bool.eq_false_iff.mpr fun hLacks => hNumber ⟨hBegins, hLacks⟩
      · have hKind := TokenKind.isWord_ofWord word
        rw [hMark] at hKind
        cases hKind

/-- What begins with a comma begins with one of the two marks. -/
theorem front_comma (rest : List Char) : Front (',' :: rest) := by
  have hComma : (∀ c ∈ rest.head?, c ≠ '@') → Front (',' :: rest) := fun hAt =>
    show Front (Mark.unquote.text.toList ++ rest) from
      .of_lexeme (.mark .unquote) fun c hc => ⟨nofun, fun _ => hAt c hc⟩
  cases rest with
  | nil => exact hComma nofun
  | cons c rest =>
    by_cases hAt : c = '@'
    · subst hAt
      show Front (Mark.unquoteSplicing.text.toList ++ rest)
      exact .of_lexeme (.mark .unquoteSplicing) fun c hc => ⟨nofun, nofun⟩
    · refine hComma ?_
      rintro _ ⟨⟩
      exact hAt

/-- What begins with a quote begins with a literal, or with the fault of one that never closes or
has a bad escape. -/
theorem front_string (rest : List Char) : Front ('"' :: rest) := by
  -- Either no quote closes the literal, or there is a first one that does.
  by_cases hNever : Quoted.NeverCloses rest
  · obtain ⟨matched, after, rfl, hUnclosed⟩ := hNever.exists_unclosed
    refine .of_fault fun position tokens => ?_
    obtain ⟨fault, hError, -⟩ := feedAll_unclosed hUnclosed (position + 1) position tokens
    exact ⟨fault, _, hError⟩
  · obtain ⟨inside, after, hInside, rfl⟩ : ∃ inside after, Quoted.Inside inside ∧
        rest = inside ++ '"' :: after := by
      refine Classical.byContradiction fun hNone => hNever ?_
      intro inside after hInside hEq
      exact hNone ⟨inside, after, hInside, hEq⟩
    cases hText : Quoted.unescape inside with
    | ok text =>
      have hLexeme : Lexeme ('"' :: (inside ++ ['"'])) (.string (.ofList text)) :=
        .string hInside hText
      have hSplit : '"' :: (inside ++ '"' :: after) = '"' :: (inside ++ ['"']) ++ after := by simp
      rw [hSplit]
      exact .of_lexeme hLexeme fun c hc => ⟨nofun, nofun⟩
    | error e =>
      -- the literal is closed, but there is a bad escape in it
      refine .of_fault fun position tokens => ?_
      have hOpen : feed ⟨position, .gap, tokens⟩ '"' =
          .ok ⟨position + 1, .string position [], tokens⟩ := rfl
      rw [scan_cons, hOpen]
      show ∃ fault stop, scan _ (inside ++ '"' :: after) = _
      rw [scan_append (feedAll_inside hInside _ _ _ _), List.append_nil, scan_cons]
      simp only [feed, if_true, closeString, List.reverse_reverse, hText]
      cases e with
      | unknownEscape c => exact ⟨_, _, rfl⟩
      | loneBackslash => exact ⟨_, _, rfl⟩

/-- A comment goes to the end of the text, or there is an end of line after it. -/
theorem front_comment {rest : List Char}
    (hFront : ∀ more : List Char, more.length < rest.length + 1 → Front more) :
    Front (';' :: rest) := by
  cases hFind : rest.find? fun d => decide (d = '\n' ∨ d = '\r') with
  | none =>
    refine .last (.lastComment rfl fun d hd => ?_)
    have hNot := List.find?_eq_none.mp hFind d hd
    exact fun hLine => hNot (decide_eq_true hLine)
  | some c =>
    obtain ⟨hLine, body, more, rfl, hBody⟩ := List.find?_eq_some_iff_append.mp hFind
    have hShorter : more.length < (body ++ c :: more).length + 1 := by
      rw [List.length_append, List.length_cons]
      omega
    have hMore := (hFront more hShorter).after (';' :: (body ++ [c])) fun {_ gap} h => by
      have hComment : Gap _ (';' :: (body ++ c :: gap)) :=
        .comment (fun d hd => by simpa using hBody d hd) (of_decide_eq_true hLine) h
      simpa using hComment
    simpa using hMore

/-- No other character begins anything. -/
theorem failsAtOnce_of_other {c : Char} (hBlank : ¬ isSeparator c) (hWord : ¬ isWordChar c)
    (hOther : c ∉ [';', '(', ')', '\'', '\x60', ',', '"']) (rest : List Char) :
    FailsAtOnce (c :: rest) := by
  intro position tokens
  refine ⟨.invalidToken, position + c.utf8Size, ?_⟩
  simp only [List.mem_cons, List.not_mem_nil, or_false, not_or] at hOther
  rw [scan_cons]
  simp [feed, enter, hBlank, hWord, hOther]
  rfl

/-- Every text begins in one of these ways. -/
theorem exists_front (text : List Char) : Front text := by
  -- A comment may be of any length, so the induction is on the length of the text.
  induction hLength : text.length using Nat.strongRecOn generalizing text with
  | ind n ih =>
    subst hLength
    cases text with
    | nil => exact .last .nil
    | cons c rest =>
      by_cases hBlank : isSeparator c
      · exact (ih rest.length (Nat.lt_succ_self _) rest rfl).after [c] (.blank hBlank)
      · by_cases hWord : isWordChar c
        · exact front_word hWord rest
        · by_cases hOther : c ∈ [';', '(', ')', '\'', '\x60', ',', '"']
          · -- the characters that begin something else, one by one
            simp only [List.mem_cons, List.not_mem_nil, or_false] at hOther
            rcases hOther with rfl | rfl | rfl | rfl | rfl | rfl | rfl
            · exact front_comment fun more hMore => ih more.length hMore more rfl
            · exact .of_lexeme .leftParen fun c hc => ⟨nofun, nofun⟩
            · exact .of_lexeme .rightParen fun c hc => ⟨nofun, nofun⟩
            · exact .of_lexeme (.mark .quote) fun c hc => ⟨nofun, nofun⟩
            · exact .of_lexeme (.mark .quasiquote) fun c hc => ⟨nofun, nofun⟩
            · exact front_comma rest
            · exact front_string rest
          · exact .of_fault (failsAtOnce_of_other hBlank hWord hOther rest)

/-- A text is cut into tokens and scanned as these, or what stands before the fault
is. -/
theorem scan_cases (position : Nat) (tokens : List Token) (text : List Char) :
    (∃ more, Segmented position text more ∧
      scan ⟨position, .gap, tokens⟩ text = .ok (tokens.reverse ++ more)) ∨
    ∃ before rest more fault stop, text = before ++ rest ∧ Segmented position before more ∧
      scan ⟨position, .gap, tokens⟩ text =
        .error ⟨fault, position + byteLength before, stop⟩ := by
  -- Gaps and tokens may be of any length.
  induction hLength : text.length using Nat.strongRecOn generalizing position tokens text with
  | ind n ih =>
    subst hLength
    cases exists_front text with
    | last h => exact .inl ⟨[], .last h, by rw [scan_lastGap h, List.append_nil]⟩
    | @fault gap rest hGap hFault =>
      obtain ⟨fault, stop, hError⟩ := hFault (position + byteLength gap) tokens
      refine .inr ⟨gap, rest, [], fault, stop, rfl, .last hGap.atEnd, ?_⟩
      rw [scan_gap hGap, hError]
    | @lexeme gap slice rest kind hGap hLexeme hStops =>
      have hShorter : rest.length < (gap ++ slice ++ rest).length := by
        have hSome := List.length_pos_iff.mpr hLexeme.ne_nil
        rw [List.length_append, List.length_append]
        omega
      have hWhole : kind.isWord → ∀ c ∈ rest.head?, isWordChar c = false :=
        fun hKind c hc => ((hStops c hc).1 hKind).1
      rw [scan_token hGap hLexeme hStops]
      obtain ⟨more, hRest, hScan⟩ | ⟨before, after, more, fault, stop, rfl, hBefore, hScan⟩ :=
        ih rest.length hShorter (position + byteLength gap + byteLength slice) _ rest rfl
      · refine .inl ⟨_, .token hGap hLexeme hWhole hRest, ?_⟩
        rw [hScan]
        simp
      · -- the rest is scanned up to the fault
        have hWhole' : kind.isWord → ∀ c ∈ before.head?, isWordChar c = false := by
          intro hKind c hc
          cases before with
          | nil => cases hc
          | cons d before => exact hWhole hKind c hc
        refine .inr ⟨gap ++ slice ++ before, after, _, fault, stop, ?_,
          .token hGap hLexeme hWhole' hBefore, ?_⟩
        · simp
        · rw [hScan, byteLength_append, byteLength_append]
          simp only [Nat.add_assoc]

/-! ## No piece begins misleadingly -/

/-- The character misleads the scanner neither about a comma nor about a word. -/
def IsClear (c : Char) : Prop :=
  c ≠ '@' ∧ (isWordChar c = false → beginsLikePictograph c = false)

/-- A clear character stops any piece that is no word, and a word that it does not continue. -/
theorem IsClear.stopsAt {c : Char} (h : IsClear c) {slice : List Char} {kind : TokenKind}
    (hWhole : kind.isWord → isWordChar c = false) : StopsAt slice kind c := by
  refine ⟨fun hKind => ⟨hWhole hKind, fun hBegins => ?_⟩, fun _ => h.1⟩
  rw [h.2 (hWhole hKind)] at hBegins
  cases hBegins

theorem isClear_of_isSeparator {c : Char} (h : isSeparator c) : IsClear c := by
  refine ⟨?_, fun _ => (isSeparator_ends h).2⟩
  rintro rfl
  exact absurd h (by decide)

theorem isClear_of_isWordChar {c : Char} (h : isWordChar c) : IsClear c := by
  constructor
  · rintro rfl
    exact absurd h (by decide)
  · intro hNot
    rw [h] at hNot
    cases hNot

/-- The first character of a gap is clear. -/
theorem isClear_of_gap {atEnd : Bool} (h : Gap atEnd gap) : ∀ c ∈ gap.head?, IsClear c := by
  rintro c hc
  cases h with
  | nil => cases hc
  | blank hBlank h =>
    cases hc
    exact isClear_of_isSeparator hBlank
  | comment hBody hLine h =>
    cases hc
    exact ⟨by decide, fun _ => by decide⟩
  | lastComment hEnd hBody =>
    cases hc
    exact ⟨by decide, fun _ => by decide⟩

/-- The first character of a piece is clear. -/
theorem isClear_of_lexeme {slice : List Char} {kind : TokenKind} (h : Lexeme slice kind) :
    ∀ c ∈ slice.head?, IsClear c := by
  intro c hc
  cases h with
  | leftParen | rightParen | string hInside hText =>
    cases hc
    exact ⟨by decide, fun _ => by decide⟩
  | mark m => cases m <;> cases hc <;> exact ⟨by decide, fun _ => by decide⟩
  | word hSome hWord => exact isClear_of_isWordChar (hWord c (List.mem_of_mem_head? hc))

end Scanner

namespace Segmented

open Scanner

variable {position : Nat} {text : List Char} {more : List Token}

/-- What is cut into tokens begins clearly. -/
theorem isClear (h : Segmented position text more) : ∀ c ∈ text.head?, IsClear c := by
  cases h with
  | last h => exact isClear_of_gap h
  | @token _ gap slice rest kind tokens hGap hLexeme hWhole hRest =>
    cases gap with
    | cons c gap => exact fun d hd => isClear_of_gap hGap d hd
    | nil =>
      obtain ⟨c, slice, rfl⟩ := List.exists_cons_of_ne_nil hLexeme.ne_nil
      exact fun d hd => isClear_of_lexeme hLexeme d hd

/-- A text is scanned as it is cut, after whatever tokens came before. -/
theorem scan_eq (h : Segmented position text more) (tokens : List Token) :
    scan ⟨position, .gap, tokens⟩ text = .ok (tokens.reverse ++ more) := by
  induction h generalizing tokens with
  | last h => rw [scan_lastGap h, List.append_nil]
  | token hGap hLexeme hWhole hRest ih =>
    rw [scan_token hGap hLexeme fun c hc => (hRest.isClear c hc).stopsAt fun hKind =>
      hWhole hKind c hc, ih]
    simp

/-- A text is scanned as the tokens that it is cut into. -/
theorem tokenizeAt_eq (h : Segmented position text more) : tokenizeAt position text = .ok more :=
  h.scan_eq []

/-! ## What is so of every token -/

/-- No token stands before the text. -/
theorem position_le (h : Segmented position text more) : ∀ t ∈ more, position ≤ t.span.start := by
  induction h with
  | last h => exact nofun
  | token hGap hLexeme hWhole hRest ih =>
    refine List.forall_mem_cons.mpr ⟨Nat.le_add_right _ _, fun t ht => ?_⟩
    have hLater := ih t ht
    omega

/-- The tokens stand in a row. -/
theorem pairwise (h : Segmented position text more) :
    more.Pairwise fun t u => t.span.stop ≤ u.span.start := by
  induction h with
  | last h => exact .nil
  | token hGap hLexeme hWhole hRest ih => exact .cons hRest.position_le ih

/-- The token is this part of the text, with no word character next to it if it is a word. -/
structure Holds (position : Nat) (text : List Char) (t : Token) (before slice after : List Char) :
    Prop where
  text_eq : text = before ++ slice ++ after
  span_eq : t.span = ⟨position + byteLength before, position + byteLength before + byteLength slice⟩
  lexeme : Lexeme slice t.kind
  not_before : t.kind.isWord → ∀ c ∈ before.getLast?, isWordChar c = false
  not_after : t.kind.isWord → ∀ c ∈ after.head?, isWordChar c = false

/-- Every token is a piece of the text, with no word character next to it if it is a word. -/
theorem holds (h : Segmented position text more) :
    ∀ t ∈ more, ∃ before slice after, Holds position text t before slice after := by
  -- Token by token: the first by its own gap, and the others further on in the text.
  induction h with
  | last h => exact nofun
  | @token position gap slice rest kind tokens hGap hLexeme hWhole hRest ih =>
    refine List.forall_mem_cons.mpr ⟨?_, fun t ht => ?_⟩
    · exact ⟨gap, slice, rest, rfl, rfl, hLexeme, fun _ => hGap.getLast?, hWhole⟩
    · obtain ⟨before, slice', after, hText, hSpan, hLexeme', hBefore, hAfter⟩ := ih t ht
      refine ⟨gap ++ slice ++ before, slice', after, ?_, ?_, hLexeme', fun hKind => ?_, hAfter⟩
      · rw [hText]
        simp
      · rw [hSpan, byteLength_append, byteLength_append]
        simp only [Nat.add_assoc]
      · -- right before a word stands its gap, or a piece that is no word
        intro c hc
        cases hLast : before.getLast? with
        | some d =>
          rw [List.getLast?_append, hLast] at hc
          cases hc
          exact hBefore hKind c hLast
        | none =>
          cases List.getLast?_eq_none_iff.mp hLast
          obtain ⟨d, word, rfl⟩ := List.exists_cons_of_ne_nil hLexeme'.ne_nil
          have hNotWord : kind.isWord = false := by
            rw [Bool.eq_false_iff]
            intro hWord
            have hd := hWhole hWord d (by rw [hText]; rfl)
            rw [hLexeme'.of_isWord hKind d List.mem_cons_self] at hd
            cases hd
          obtain ⟨e, hLast⟩ :=
            Option.isSome_iff_exists.mp (List.getLast?_isSome.mpr hLexeme.ne_nil)
          rw [List.append_nil, List.getLast?_append, hLast] at hc
          cases hc
          exact hLexeme.getLast?_of_not_isWord hNotWord c hLast

end Segmented

/-- A piece by itself is one token. -/
theorem Lexeme.tokenizeAt_eq {slice : List Char} {kind : TokenKind} (h : Lexeme slice kind) :
    tokenizeAt 0 slice = .ok [⟨kind, 0, byteLength slice⟩] := by
  have hCut : Segmented 0 ([] ++ slice ++ []) [⟨kind, 0 + 0, 0 + 0 + byteLength slice⟩] :=
    .token .nil h (fun _ => nofun) (.last .nil)
  rw [List.nil_append, List.append_nil, Nat.zero_add, Nat.zero_add] at hCut
  exact hCut.tokenizeAt_eq

/-- Scanning succeeds with some tokens if and only if the text is cut into these. -/
theorem tokenizeAt_eq_ok_iff {position : Nat} {text : List Char} {tokens : List Token} :
    tokenizeAt position text = .ok tokens ↔ Segmented position text tokens := by
  constructor
  · intro h
    obtain ⟨more, hCut, hScan⟩ | ⟨before, rest, more, fault, stop, -, -, hScan⟩ :=
      Scanner.scan_cases position [] text
    · cases h.symm.trans hScan
      exact hCut
    · cases h.symm.trans hScan
  · exact fun h => h.tokenizeAt_eq

/-- Scanning fails right behind something that is cut into tokens. -/
theorem tokenizeAt_eq_error {position : Nat} {text : List Char} {e : LexError}
    (h : tokenizeAt position text = .error e) :
    ∃ before rest tokens, text = before ++ rest ∧ e.span.start = position + byteLength before ∧
      Segmented position before tokens := by
  obtain ⟨more, -, hScan⟩ | ⟨before, rest, more, fault, stop, hText, hCut, hScan⟩ :=
    Scanner.scan_cases position [] text
  · cases h.symm.trans hScan
  · cases h.symm.trans hScan
    exact ⟨before, rest, more, hText, rfl, hCut⟩

/-- **Tokens cut a text without loss.** Scanning gives the tokens that the text is cut into,
with only blanks and comments between them, and fails if there is no way to cut it. The
tokens stand in a row; each is a part of the text that by itself is that one token, and
next to a word there is no word character. Where scanning fails, what stands before the
place of the error is scanned without one. -/
theorem tokens_cut_text (text : String) :
    (∀ tokens, tokenize text = .ok tokens ↔ Segmented 0 text.toList tokens) ∧
    (∀ tokens, tokenize text = .ok tokens →
      (tokens.Pairwise fun t u => t.span.stop ≤ u.span.start) ∧
      ∀ t ∈ tokens, ∃ before slice after, text.toList = before ++ slice ++ after ∧ slice ≠ [] ∧
        t.span = ⟨byteLength before, byteLength before + byteLength slice⟩ ∧
        tokenize (.ofList slice) = .ok [⟨t.kind, 0, byteLength slice⟩] ∧
        (t.kind.isWord → (∀ c ∈ before.getLast?, isWordChar c = false) ∧
          ∀ c ∈ after.head?, isWordChar c = false)) ∧
    ∀ e, tokenize text = .error e → ∃ before rest tokens, text.toList = before ++ rest ∧
      byteLength before = e.span.start ∧ tokenize (.ofList before) = .ok tokens := by
  refine ⟨fun tokens => tokenizeAt_eq_ok_iff, ?_, ?_⟩
  · intro tokens h
    have hCut := tokenizeAt_eq_ok_iff.mp h
    refine ⟨hCut.pairwise, fun t ht => ?_⟩
    -- Each token is a piece of the text, and a piece by itself is one token.
    obtain ⟨before, slice, after, hHolds⟩ := hCut.holds t ht
    refine ⟨before, slice, after, hHolds.text_eq, hHolds.lexeme.ne_nil, ?_, ?_, fun hKind =>
      ⟨hHolds.not_before hKind, hHolds.not_after hKind⟩⟩
    · rw [hHolds.span_eq, Nat.zero_add]
    · rw [tokenize, String.toList_ofList]
      exact hHolds.lexeme.tokenizeAt_eq
  · intro e h
    obtain ⟨before, rest, tokens, hText, hStart, hCut⟩ := tokenizeAt_eq_error h
    refine ⟨before, rest, tokens, hText, ?_, ?_⟩
    · rw [hStart, Nat.zero_add]
    · rw [tokenize, String.toList_ofList]
      exact hCut.tokenizeAt_eq

end MiniScheme
