import MiniScheme.Datum.Reader

/-!
# What the scanner makes of a text

The scanner between two pieces of text has either nothing in hand or a word that
the next character may end. What a piece of text adds to the tokens depends on
nothing else, so that pieces can be scanned one by one.

* `Quoted.unescape_escape` — the inside of a literal stands for the text it was
  made of;
* `Scanner.Ready`, `Scanner.Settled` — the tokens so far, nothing in hand or a
  word;
* `Scanner.Takes` — a piece of text and the tokens it adds;
* `Scanner.takes_word`, `Scanner.takes_literal`, … — the pieces;
* `Scanner.tokenize_of_takes` — and a whole text.
-/

namespace MiniScheme

/-! ## Escapes -/

namespace Quoted

/-- An escaped character is read as itself. -/
theorem unescapeOnto_escapeChar (read : List Char) (c : Char) (rest : List Char) :
    unescapeOnto read (escapeChar c ++ rest) = unescapeOnto (c :: read) rest := by
  unfold escapeChar
  split
  -- any character that needs no escape; above all it is not a backslash
  case h_6 hQuote hBackslash _ _ _ =>
    rw [List.singleton_append, unescapeOnto]
    · exact fun h _ => hBackslash h
    · exact fun _ _ h _ => hBackslash h
  all_goals rfl

/-- The inside of a literal stands for the text it was made of. -/
theorem unescape_escape (text : List Char) : unescape (escape text) = .ok text := by
  -- The induction needs whatever has been read before.
  have hOnto : ∀ read, unescapeOnto read (escape text) = .ok (read.reverse ++ text) := by
    induction text with
    | nil => exact fun read => by rw [List.append_nil]; rfl
    | cons c text ih =>
      intro read
      rw [escape, List.flatMap_cons, unescapeOnto_escapeChar, ← escape, ih, List.reverse_cons,
        List.append_assoc, List.singleton_append]
  exact hOnto []

end Quoted

/-! ## Between two pieces of text -/

namespace Scanner

/-- The scanner after the word it has in hand. -/
def settle (s : Scanner) : Scanner :=
  match s.pending with
  | .word start chars => s.emit start (.ofWord chars.reverse)
  | _ => s

/-- Nothing is in hand, and the tokens so far are of these kinds. -/
structure Ready (s : Scanner) (kinds : List TokenKind) : Prop where
  pending_eq : s.pending = .gap
  kinds_eq : s.tokens.reverse.map Token.kind = kinds

/-- With the word in hand, if there is one, the tokens so far are of these kinds. -/
def Settled (s : Scanner) (kinds : List TokenKind) : Prop := s.settle.Ready kinds

theorem Ready.settled {s : Scanner} {kinds : List TokenKind} (h : s.Ready kinds) :
    s.Settled kinds := by
  unfold Settled settle
  rw [h.pending_eq]
  exact h

theorem ready_start (position : Nat) : (start position).Ready [] := ⟨rfl, rfl⟩

theorem Ready.emit {s : Scanner} {kinds : List TokenKind} (h : s.Ready kinds) (start : Nat)
    (kind : TokenKind) : (s.emit start kind).Ready (kinds ++ [kind]) := by
  refine ⟨rfl, ?_⟩
  rw [← h.kinds_eq]
  simp [Scanner.emit]

theorem Ready.advance {s : Scanner} {kinds : List TokenKind} (h : s.Ready kinds) (c : Char) :
    (s.advance c .gap).Ready kinds :=
  ⟨rfl, h.kinds_eq⟩

theorem Ready.emitChar {s : Scanner} {kinds : List TokenKind} (h : s.Ready kinds) (c : Char)
    (kind : TokenKind) : (s.emitChar c kind).Ready (kinds ++ [kind]) :=
  (h.advance c).emit s.position kind

theorem Ready.feed {s : Scanner} {kinds : List TokenKind} (h : s.Ready kinds) (c : Char) :
    s.feed c = s.enter c := by
  rw [Scanner.feed, h.pending_eq]

/-- The end of the text ends a word. -/
theorem Settled.finish {s : Scanner} {kinds : List TokenKind} (h : s.Settled kinds) :
    ∃ tokens, s.finish = .ok tokens ∧ tokens.map Token.kind = kinds := by
  obtain ⟨position, pending, tokens⟩ := s
  unfold Settled settle at h
  cases pending with
  -- A gap or a word is all that a settled scanner can have in hand.
  | gap => exact ⟨_, rfl, h.kinds_eq⟩
  | word start chars => exact ⟨_, rfl, h.kinds_eq⟩
  | _ => cases h.pending_eq

/-- A character that no word goes on with begins something new. -/
theorem Settled.feed {s : Scanner} {kinds : List TokenKind} (h : s.Settled kinds) {c : Char}
    (hWord : isWordChar c = false) (hPictograph : beginsLikePictograph c = false) :
    s.feed c = s.settle.enter c := by
  obtain ⟨position, pending, tokens⟩ := s
  unfold Settled settle at *
  cases pending with
  | gap => rfl
  | word start chars => simp [Scanner.feed, hWord, hPictograph]
  | _ => cases h.pending_eq

/-! ## Pieces of text -/

/-- Wherever the scanner is as `P` says, the text adds tokens of these kinds and
leaves it as `Q` says. -/
def Takes (P Q : Scanner → List TokenKind → Prop) (text : List Char) (kinds : List TokenKind) :
    Prop :=
  ∀ s before, P s before → ∃ s', s.feedAll text = .ok s' ∧ Q s' (before ++ kinds)

variable {P Q R : Scanner → List TokenKind → Prop}

/-- Pieces after one another are taken one after the other. -/
theorem Takes.append {text text' : List Char} {kinds kinds' : List TokenKind}
    (h : Takes P Q text kinds) (h' : Takes Q R text' kinds') :
    Takes P R (text ++ text') (kinds ++ kinds') := by
  intro s before hs
  obtain ⟨s₁, hFeed, hs₁⟩ := h s before hs
  obtain ⟨s₂, hFeed', hs₂⟩ := h' s₁ _ hs₁
  refine ⟨s₂, ?_, by rwa [← List.append_assoc]⟩
  rw [feedAll, List.foldlM_append, ← feedAll, hFeed]
  exact hFeed'

theorem Takes.settled {text : List Char} {kinds : List TokenKind} (h : Takes P Ready text kinds) :
    Takes P Settled text kinds := by
  intro s before hs
  obtain ⟨s', hFeed, hs'⟩ := h s before hs
  exact ⟨s', hFeed, hs'.settled⟩

theorem Takes.ready {text : List Char} {kinds : List TokenKind} (h : Takes Settled Q text kinds) :
    Takes Ready Q text kinds :=
  fun s before hs => h s before hs.settled

/-- A piece of text that is one character. -/
theorem takes_char {c : Char} {kinds : List TokenKind}
    (h : ∀ s before, P s before → ∃ s', s.feed c = .ok s' ∧ Q s' (before ++ kinds)) :
    Takes P Q [c] kinds := by
  intro s before hs
  obtain ⟨s', hFeed, hs'⟩ := h s before hs
  refine ⟨s', ?_, hs'⟩
  rw [feedAll, List.foldlM_cons, hFeed]
  rfl

theorem takes_open : Takes Ready Ready ['('] [.leftParen] := by
  refine takes_char fun s before hs => ⟨_, ?_, hs.emitChar '(' .leftParen⟩
  have hWord : isWordChar '(' = false := by decide
  simp [hs.feed, enter, hWord, isSeparator]

theorem takes_close : Takes Settled Ready [')'] [.rightParen] := by
  refine takes_char fun s before hs => ⟨_, ?_, Ready.emitChar hs ')' .rightParen⟩
  have hWord : isWordChar ')' = false := by decide
  simp [hs.feed hWord (by decide), enter, hWord, isSeparator]

/-- No word goes on with a blank. -/
theorem isSeparator_ends {c : Char} (h : isSeparator c) :
    isWordChar c = false ∧ beginsLikePictograph c = false := by
  simp only [isSeparator, Bool.or_eq_true, decide_eq_true_eq] at h
  rcases h with ((rfl | rfl) | rfl) | rfl <;> decide

/-- A blank ends a word and begins nothing. -/
theorem takes_separator {c : Char} (hBlank : isSeparator c) : Takes Settled Ready [c] [] := by
  obtain ⟨hWord, hPictograph⟩ := isSeparator_ends hBlank
  refine takes_char fun s before hs => ⟨s.settle.advance c .gap, ?_, ?_⟩
  · simp only [hs.feed hWord hPictograph, enter, hBlank, if_true]
  · rw [List.append_nil]
    exact Ready.advance hs c

/-- Word characters are taken into the word in hand. -/
theorem feedAll_word (position start : Nat) (chars : List Char) (tokens : List Token)
    {word : List Char} (hWord : ∀ c ∈ word, isWordChar c) :
    ∃ position', feedAll ⟨position, .word start chars, tokens⟩ word =
      .ok ⟨position', .word start (word.reverse ++ chars), tokens⟩ := by
  -- Where the word ends does not matter to what it is, so the position is only said to exist.
  induction word generalizing position chars with
  | nil => exact ⟨position, rfl⟩
  | cons c word ih =>
    have hFeed : feed ⟨position, .word start chars, tokens⟩ c =
        .ok ⟨position + c.utf8Size, .word start (c :: chars), tokens⟩ := by
      simp [Scanner.feed, hWord c List.mem_cons_self, advance]
    obtain ⟨position', hRest⟩ := ih (position + c.utf8Size) (c :: chars)
      fun c hc => hWord c (List.mem_cons_of_mem _ hc)
    refine ⟨position', ?_⟩
    rw [feedAll, List.foldlM_cons, hFeed, List.reverse_cons, List.append_assoc]
    exact hRest

/-- A word is one token. -/
theorem takes_word {word : List Char} (hSome : word ≠ []) (hWord : ∀ c ∈ word, isWordChar c) :
    Takes Ready Settled word [.ofWord word] := by
  intro s before hs
  -- The first character begins the word and the others go on with it.
  obtain ⟨c, word, rfl⟩ := List.exists_cons_of_ne_nil hSome
  have hc : isWordChar c := hWord c List.mem_cons_self
  have hBlank : ¬ isSeparator c := by
    intro hBlank
    rw [(isSeparator_ends hBlank).1] at hc
    cases hc
  have hFeed : s.feed c = .ok (s.advance c (.word s.position [c])) := by
    simp [hs.feed, enter, hBlank, hc]
  obtain ⟨position, hRest⟩ := feedAll_word (s.position + c.utf8Size) s.position [c] s.tokens
    fun c hc => hWord c (List.mem_cons_of_mem _ hc)
  refine ⟨⟨position, .word s.position (word.reverse ++ [c]), s.tokens⟩, ?_, ?_⟩
  · rw [feedAll, List.foldlM_cons, hFeed]
    exact hRest
  · -- whatever ends the word later, the token is this one
    have hReady : Ready ⟨position, .gap, s.tokens⟩ before := ⟨rfl, hs.kinds_eq⟩
    have hWhole : (word.reverse ++ [c]).reverse = c :: word := by simp
    simp only [Settled, settle, hWhole]
    exact hReady.emit s.position (.ofWord (c :: word))

/-- What is written for a character is taken into the string in hand. -/
theorem feedAll_escapeChar (position start : Nat) (inside : List Char) (tokens : List Token)
    (c : Char) :
    ∃ position', feedAll ⟨position, .string start inside, tokens⟩ (Quoted.escapeChar c) =
      .ok ⟨position', .string start ((Quoted.escapeChar c).reverse ++ inside), tokens⟩ := by
  unfold Quoted.escapeChar
  split
  -- An escaped character is fed as two, and the second of them is never looked at.
  case h_6 hQuote hBackslash _ _ _ =>
    refine ⟨position + c.utf8Size, ?_⟩
    show feed _ c >>= _ = _
    simp only [Scanner.feed, if_neg hQuote, if_neg hBackslash]
    rfl
  all_goals exact ⟨_, rfl⟩

/-- The characters of an escaped text are taken into the string in hand. -/
theorem feedAll_escape (position start : Nat) (inside : List Char) (tokens : List Token)
    (text : List Char) :
    ∃ position', feedAll ⟨position, .string start inside, tokens⟩ (Quoted.escape text) =
      .ok ⟨position', .string start ((Quoted.escape text).reverse ++ inside), tokens⟩ := by
  induction text generalizing position inside with
  | nil => exact ⟨position, rfl⟩
  | cons c text ih =>
    obtain ⟨position₁, hChar⟩ := feedAll_escapeChar position start inside tokens c
    obtain ⟨position₂, hRest⟩ := ih position₁ ((Quoted.escapeChar c).reverse ++ inside)
    refine ⟨position₂, ?_⟩
    rw [Quoted.escape, List.flatMap_cons, ← Quoted.escape, feedAll, List.foldlM_append, ← feedAll,
      hChar, List.reverse_append, List.append_assoc]
    exact hRest

/-- A literal is one token. -/
theorem takes_literal (text : List Char) :
    Takes Ready Ready (Quoted.literal text) [.string (.ofList text)] := by
  intro s before hs
  have hOpen : s.feed '"' = .ok (s.advance '"' (.string s.position [])) := by
    have hWord : isWordChar '"' = false := by decide
    simp [hs.feed, enter, hWord, isSeparator]
  obtain ⟨position, hInside⟩ :=
    feedAll_escape (s.position + '"'.utf8Size) s.position [] s.tokens text
  have hReady : Ready ⟨position + '"'.utf8Size, .gap, s.tokens⟩ before := ⟨rfl, hs.kinds_eq⟩
  refine ⟨_, ?_, hReady.emit s.position (.string (.ofList text))⟩
  -- The opening quote, the inside and the closing quote, one after the other.
  rw [feedAll, Quoted.literal, List.cons_append, List.foldlM_cons, hOpen]
  show feedAll ⟨_, .string s.position [], s.tokens⟩ (Quoted.escape text ++ ['"']) = _
  rw [feedAll, List.foldlM_append, ← feedAll, hInside]
  show feed _ '"' >>= _ = _
  simp only [Scanner.feed, if_true, closeString, List.append_nil, List.reverse_reverse,
    Quoted.unescape_escape]
  rfl

/-- What a whole text is scanned as. -/
theorem tokenize_of_takes {text : String} {kinds : List TokenKind}
    (h : Takes Ready Settled text.toList kinds) :
    ∃ tokens, tokenize text = .ok tokens ∧ tokens.map Token.kind = kinds := by
  obtain ⟨s, hFeed, hs⟩ := h (start 0) [] (ready_start 0)
  obtain ⟨tokens, hFinish, hKinds⟩ := hs.finish
  refine ⟨tokens, ?_, hKinds⟩
  rw [tokenize, tokenizeAt, hFeed]
  exact hFinish

end Scanner

end MiniScheme
