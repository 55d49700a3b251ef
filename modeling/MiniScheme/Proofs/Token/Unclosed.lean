import MiniScheme.Console.Completion
import MiniScheme.Console.Session
import MiniScheme.Proofs.Datum.Misfit
import MiniScheme.Proofs.Text.Bytes

/-!
# Literals that are never closed

Scanning gets to an opening quote, and no quote after it closes the literal. The
scanner then stops with an error whose span is the literal as far as it was
matched: to the end of the text, or to a backslash before a line feed. There is one
exception. If the literal goes to the end of the text and the last character takes
more than one byte, then the test for the closing quote cuts that character in two,
and there is no answer at all.

* `Quoted.Inside`, `Quoted.NeverCloses`, `Quoted.Unclosed` — what stands between
  quotes, a text without the closing one, and how far it is matched;
* `Scanner.Opens` — scanning a text gets to an opening quote;
* `Scanner.Feeds`, `Scanner.feeds` — all that a character can bring about;
* `Scanner.feedAll_unclosed` — what becomes of such a literal;
* `Scanner.Held.feed`, `Scanner.feedAll_held` — wherever the scanner is inside a
  literal, it got there through an opening quote;
* `unclosed_literals_reported` — the errors, and exactly when there is no answer.
-/

namespace MiniScheme

/-! ## Between quotes -/

namespace Quoted

/-- Characters and escapes, as they stand between the quotes of a literal. An escape
is a backslash and any character but a line feed. -/
inductive Inside : List Char → Prop
  | nil : Inside []
  | char {c : Char} {rest : List Char} (hQuote : c ≠ '"') (hBackslash : c ≠ '\\')
      (h : Inside rest) : Inside (c :: rest)
  | escape {c : Char} {rest : List Char} (hFeed : c ≠ '\n') (h : Inside rest) :
      Inside ('\\' :: c :: rest)

theorem Inside.append {cs ds : List Char} (h : Inside cs) (h' : Inside ds) : Inside (cs ++ ds) := by
  induction h with
  | nil => exact h'
  | char hQuote hBackslash h ih => exact .char hQuote hBackslash ih
  | escape hFeed h ih => exact .escape hFeed ih

/-- No quote closes the literal that this text follows the opening quote of. -/
def NeverCloses (text : List Char) : Prop :=
  ∀ inside after, Inside inside → text ≠ inside ++ '"' :: after

/-- What follows the opening quote is matched so far and no further: to the end, with
perhaps a last backslash, or to a backslash before a line feed. -/
inductive Unclosed : (matched after : List Char) → Prop
  | inside {cs : List Char} (h : Inside cs) : Unclosed cs []
  | backslash {cs : List Char} (h : Inside cs) : Unclosed (cs ++ ['\\']) []
  | lineFeed {cs : List Char} (h : Inside cs) (after : List Char) :
      Unclosed (cs ++ ['\\']) ('\n' :: after)

/-- After characters and good escapes comes a backslash with this character, and that
is no escape. -/
def BadEscape (text : List Char) (c : Char) : Prop :=
  ∃ inside after, Inside inside ∧ text = inside ++ '\\' :: c :: after ∧ unescapeChar? c = none

/-- Any character but a quote and a backslash leaves a literal unclosed. -/
theorem Unclosed.char {c : Char} {matched after : List Char} (hQuote : c ≠ '"')
    (hBackslash : c ≠ '\\') (h : Unclosed matched after) : Unclosed (c :: matched) after := by
  cases h with
  | inside h => exact .inside (.char hQuote hBackslash h)
  | backslash h => exact .backslash (.char hQuote hBackslash h)
  | lineFeed h after => exact .lineFeed (.char hQuote hBackslash h) after

/-- An escape leaves a literal unclosed. -/
theorem Unclosed.escape {c : Char} {matched after : List Char} (hFeed : c ≠ '\n')
    (h : Unclosed matched after) : Unclosed ('\\' :: c :: matched) after := by
  cases h with
  | inside h => exact .inside (.escape hFeed h)
  | backslash h => exact .backslash (.escape hFeed h)
  | lineFeed h after => exact .lineFeed (.escape hFeed h) after

/-- Every text without a closing quote is matched to some place. -/
theorem NeverCloses.exists_unclosed {text : List Char} (h : NeverCloses text) :
    ∃ matched after, text = matched ++ after ∧ Unclosed matched after := by
  -- An escape is two characters, so the induction is on the length.
  induction hLength : text.length using Nat.strongRecOn generalizing text with
  | ind n ih =>
    subst hLength
    cases text with
    | nil => exact ⟨[], [], rfl, .inside .nil⟩
    | cons c rest =>
      have hQuote : c ≠ '"' := by
        rintro rfl
        exact h [] rest .nil rfl
      by_cases hBackslash : c = '\\'
      · subst hBackslash
        cases rest with
        | nil => exact ⟨['\\'], [], rfl, .backslash .nil⟩
        | cons d rest =>
          by_cases hFeed : d = '\n'
          · subst hFeed
            exact ⟨['\\'], '\n' :: rest, rfl, .lineFeed .nil rest⟩
          · have hRest : NeverCloses rest := by
              rintro inside after hInside rfl
              exact h ('\\' :: d :: inside) after (.escape hFeed hInside) rfl
            have hShorter : rest.length < ('\\' :: d :: rest).length :=
              Nat.lt_succ_of_lt (Nat.lt_succ_self _)
            obtain ⟨matched, after, rfl, hUnclosed⟩ := ih _ hShorter hRest rfl
            exact ⟨'\\' :: d :: matched, after, rfl, hUnclosed.escape hFeed⟩
      · have hRest : NeverCloses rest := by
          rintro inside after hInside rfl
          exact h (c :: inside) after (.char hQuote hBackslash hInside) rfl
        have hShorter : rest.length < (c :: rest).length := Nat.lt_succ_self _
        obtain ⟨matched, after, rfl, hUnclosed⟩ := ih _ hShorter hRest rfl
        exact ⟨c :: matched, after, rfl, hUnclosed.char hQuote hBackslash⟩

/-- A backslash at the end has nothing to escape, so it or an escape before it is a
fault. -/
theorem unescapeOnto_backslash {cs : List Char} (h : Inside cs) (read : List Char) :
    unescapeOnto read (cs ++ ['\\']) = .error .loneBackslash ∨
      ∃ c, unescapeOnto read (cs ++ ['\\']) = .error (.unknownEscape c) ∧
        ∀ after, BadEscape (cs ++ after) c := by
  -- A bad escape further on has more good ones before it.
  induction h generalizing read with
  | nil => exact .inl rfl
  | @char c rest hQuote hBackslash h ih =>
    have hSkip : unescapeOnto read (c :: rest ++ ['\\']) =
        unescapeOnto (c :: read) (rest ++ ['\\']) := by
      rw [List.cons_append, unescapeOnto]
      · exact fun hEq _ => hBackslash hEq
      · exact fun _ _ hEq _ => hBackslash hEq
    rw [hSkip]
    refine (ih (c :: read)).imp id ?_
    rintro ⟨d, hError, hBad⟩
    refine ⟨d, hError, fun after => ?_⟩
    obtain ⟨inside, more, hInside, hEq, hNone⟩ := hBad after
    exact ⟨c :: inside, more, .char hQuote hBackslash hInside, congrArg (c :: ·) hEq, hNone⟩
  | @escape c rest hFeed h ih =>
    cases hKnown : unescapeChar? c with
    | none =>
      refine .inr ⟨c, ?_, fun after => ⟨[], rest ++ after, .nil, rfl, hKnown⟩⟩
      rw [List.cons_append, List.cons_append, unescapeOnto, hKnown]
    | some d =>
      rw [List.cons_append, List.cons_append, unescapeOnto, hKnown]
      refine (ih (d :: read)).imp id ?_
      rintro ⟨e, hError, hBad⟩
      refine ⟨e, hError, fun after => ?_⟩
      obtain ⟨inside, more, hInside, hEq, hNone⟩ := hBad after
      exact ⟨'\\' :: c :: inside, more, .escape hFeed hInside,
        congrArg ('\\' :: c :: ·) hEq, hNone⟩

/-- Where characters and escapes end in a quote, that quote is escaped. -/
theorem Inside.of_quote {cs : List Char} (h : Inside (cs ++ ['"'])) :
    ∃ before, Inside before ∧ cs = before ++ ['\\'] := by
  generalize hEq : cs ++ ['"'] = text at h
  -- A quote at the end is the second character of the last escape.
  induction h generalizing cs with
  | nil => simp at hEq
  | @char c rest hQuote hBackslash h ih =>
    cases cs with
    | nil =>
      cases hEq
      exact absurd rfl hQuote
    | cons d cs =>
      obtain ⟨rfl, hRest⟩ := List.cons.inj hEq
      obtain ⟨before, hBefore, rfl⟩ := ih hRest
      exact ⟨d :: before, .char hQuote hBackslash hBefore, rfl⟩
  | @escape c rest hFeed h ih =>
    rcases cs with _ | ⟨d, _ | ⟨e, cs⟩⟩
    · cases hEq
    · cases hEq
      exact ⟨[], .nil, rfl⟩
    · have hTail : d = '\\' ∧ e = c ∧ cs ++ ['"'] = rest := by simpa using hEq
      obtain ⟨rfl, rfl, hRest⟩ := hTail
      obtain ⟨before, hBefore, rfl⟩ := ih hRest
      exact ⟨'\\' :: e :: before, .escape hFeed hBefore, rfl⟩

end Quoted

/-! ## Getting to a literal -/

/-- Does the next character stand outside of literals and comments? -/
def Pending.isOutside : Pending → Bool
  | .gap | .word .. | .comma _ => true
  | .comment | .string .. | .escape .. => false

/-- Where what the scanner is in the middle of has begun. -/
def Pending.start? : Pending → Option Nat
  | .gap | .comment => none
  | .word start _ | .comma start | .string start _ | .escape start _ => some start

namespace Scanner

/-- Scanning the text gets to an opening quote, with this before it and this after. -/
structure Opens (text before rest : List Char) : Prop where
  text_eq : text = before ++ '"' :: rest
  reached : ∃ s, (start 0).feedAll before = .ok s ∧ s.pending.isOutside

variable {s s' : Scanner} {c : Char}

/-- A character begins something at its own place, or it is a fault by itself. -/
theorem enter_cases (s : Scanner) (c : Char) :
    (∃ s', s.enter c = .ok s' ∧ s'.position = s.position + c.utf8Size ∧
      ∀ begun ∈ s'.pending.start?, begun = s.position) ∨
    s.enter c = .error ⟨.invalidToken, s.position, s.position + c.utf8Size⟩ := by
  unfold enter
  split
  · exact .inl ⟨_, rfl, rfl, nofun⟩
  · split
    · exact .inl ⟨_, rfl, rfl, fun begun hBegun => (Option.some.inj hBegun).symm⟩
    · split
      case h_8 => exact .inr rfl
      case h_6 | h_7 => exact .inl ⟨_, rfl, rfl, fun begun hBegun => (Option.some.inj hBegun).symm⟩
      all_goals exact .inl ⟨_, rfl, rfl, nofun⟩

/-- What taking a character comes to. -/
inductive Feeds (s : Scanner) (c : Char) : Except LexError Scanner → Prop
  /-- Whatever was in hand is finished, and something new begins. -/
  | enters {s₀ : Scanner} (hPosition : s₀.position = s.position) : Feeds s c (s₀.enter c)
  /-- The character belongs to what is in hand, and may finish it. -/
  | takes {s' : Scanner} (hPosition : s'.position = s.position + c.utf8Size)
      (hPending : ∀ begun ∈ s'.pending.start?, begun ∈ s.pending.start?) : Feeds s c (.ok s')
  /-- The quote closes the literal in hand. -/
  | closes {begun : Nat} {inside : List Char} (hBegun : begun ∈ s.pending.start?) :
      Feeds s c ((s.advance c .gap).closeString begun inside)
  /-- What is in hand can neither end nor go on at the character. -/
  | fails {begun : Nat} {fault : LexFault} (hBegun : begun ∈ s.pending.start?)
      (hFault : fault ≠ .brokenCharacter) : Feeds s c (.error ⟨fault, begun, s.position⟩)

/-- **One character.** Whatever the scanner is in the middle of, it does one of these things. -/
theorem feeds (s : Scanner) (c : Char) : s.Feeds c (s.feed c) := by
  obtain ⟨position, pending, tokens⟩ := s
  cases pending with
  | gap => exact .enters rfl
  | comment =>
    simp only [feed]
    split
    · exact .enters rfl
    · exact .takes rfl nofun
  | word begun chars =>
    simp only [feed]
    split
    · exact .takes rfl fun _ hBegun => hBegun
    · split
      · exact .fails rfl nofun
      · exact .enters rfl
  | comma begun =>
    simp only [feed]
    split
    · exact .takes rfl nofun
    · exact .enters rfl
  | string begun inside =>
    simp only [feed]
    split
    · exact .closes rfl
    · split
      · exact .takes rfl fun _ hBegun => hBegun
      · exact .takes rfl fun _ hBegun => hBegun
  | escape begun inside =>
    simp only [feed]
    split
    · exact .fails rfl nofun
    · exact .takes rfl fun _ hBegun => hBegun

/-- Each character moves the scanner by its bytes. -/
theorem feed_position (h : s.feed c = .ok s') : s'.position = s.position + c.utf8Size := by
  have hFeeds := s.feeds c
  generalize s.feed c = answer at h hFeeds
  cases hFeeds with
  | @enters s₀ hPosition =>
    obtain ⟨next, hNext, hPlace, -⟩ | hError := s₀.enter_cases c
    · cases hNext.symm.trans h
      rw [hPlace, hPosition]
    · cases hError.symm.trans h
  | takes hPosition hPending =>
    cases h
    exact hPosition
  | closes hBegun =>
    unfold closeString at h
    split at h <;> cases h
    rfl
  | fails hBegun hFault => cases h

theorem feedAll_cons (s : Scanner) (c : Char) (text : List Char) :
    s.feedAll (c :: text) = s.feed c >>= fun s' => s'.feedAll text := rfl

theorem feedAll_append (s : Scanner) (text text' : List Char) :
    s.feedAll (text ++ text') = s.feedAll text >>= fun s' => s'.feedAll text' :=
  List.foldlM_append

/-- A text moves the scanner by its bytes. -/
theorem feedAll_position {text : List Char} (h : s.feedAll text = .ok s') :
    s'.position = s.position + byteLength text := by
  induction text generalizing s with
  | nil =>
    cases h
    rfl
  | cons c text ih =>
    rw [feedAll_cons] at h
    cases hFeed : s.feed c with
    | error e =>
      rw [hFeed] at h
      cases h
    | ok next =>
      rw [hFeed] at h
      rw [ih h, feed_position hFeed, byteLength_cons, Nat.add_assoc]

/-! ## What becomes of the literal -/

/-- The opening quote. -/
theorem feed_quote (h : s.pending.isOutside) :
    ∃ tokens, s.feed '"' = .ok ⟨s.position + '"'.utf8Size, .string s.position [], tokens⟩ := by
  have hWord : isWordChar '"' = false := by decide
  have hPictograph : beginsLikePictograph '"' = false := by decide
  obtain ⟨position, pending, tokens⟩ := s
  cases pending with
  | gap => exact ⟨tokens, by simp [feed, enter, hWord, isSeparator, advance]⟩
  | word begun chars =>
    exact ⟨_, by simp [feed, enter, hWord, hPictograph, isSeparator, advance, emit]; rfl⟩
  | comma begun => exact ⟨_, by simp [feed, enter, hWord, isSeparator, advance, emit]; rfl⟩
  | _ => cases h

/-- Characters and escapes are taken into the string in hand. -/
theorem feedAll_inside {cs : List Char} (h : Quoted.Inside cs) (position begun : Nat)
    (inside : List Char) (tokens : List Token) :
    feedAll ⟨position, .string begun inside, tokens⟩ cs =
      .ok ⟨position + byteLength cs, .string begun (cs.reverse ++ inside), tokens⟩ := by
  -- One character or one escape at a time.
  induction h generalizing position inside with
  | nil => rfl
  | @char c rest hQuote hBackslash h ih =>
    have hFeed : feed ⟨position, .string begun inside, tokens⟩ c =
        .ok ⟨position + c.utf8Size, .string begun (c :: inside), tokens⟩ := by
      simp only [feed, if_neg hQuote, if_neg hBackslash]
      rfl
    rw [feedAll_cons, hFeed, List.reverse_cons, List.append_assoc, byteLength_cons,
      ← Nat.add_assoc]
    exact ih _ _
  | @escape c rest hFeed h ih =>
    have hEscaped : feed ⟨position + '\\'.utf8Size, .escape begun inside, tokens⟩ c =
        .ok ⟨position + '\\'.utf8Size + c.utf8Size, .string begun (c :: '\\' :: inside),
          tokens⟩ := by
      simp only [feed, if_neg hFeed]
      rfl
    have hReverse : ('\\' :: c :: rest).reverse ++ inside =
        rest.reverse ++ (c :: '\\' :: inside) := by simp
    show feedAll ⟨position + '\\'.utf8Size, .escape begun inside, tokens⟩ (c :: rest) = _
    rw [feedAll_cons, hEscaped, byteLength_cons, byteLength_cons, hReverse, ← Nat.add_assoc,
      ← Nat.add_assoc]
    exact ih _ _

end Scanner

/-- Why the scanner stops at a literal that is matched so far and not closed. -/
inductive Quoted.Blames (matched : List Char) : LexFault → Prop
  | unterminatedString : Blames matched .unterminatedString
  | unknownEscape {c : Char} (h : BadEscape matched c) : Blames matched (.unknownEscape c)

/-- Characters and escapes go on to the end of the text, and the last character takes
more than one byte. -/
def Quoted.BreaksOff (text : List Char) : Prop :=
  Inside text ∧ ∃ before last, text = before ++ [last] ∧ last.utf8Size ≠ 1

namespace Scanner

variable {s s' : Scanner} {c : Char}

/-- A literal whose last character is a wide one is broken off within that character. -/
theorem finish_breaksOff {cs : List Char} (h : Quoted.BreaksOff cs) (position begun : Nat)
    (tokens : List Token) :
    finish ⟨position, .string begun cs.reverse, tokens⟩ =
      .error ⟨.brokenCharacter, begun, position⟩ := by
  obtain ⟨-, before, last, rfl, hWide⟩ := h
  rw [List.reverse_append, List.reverse_singleton, List.singleton_append]
  simp only [finish, if_pos hWide]

/-- The end of the text in a literal. -/
theorem finish_inside {cs : List Char} (h : Quoted.Inside cs) (position begun : Nat)
    (tokens : List Token) :
    ∃ fault, finish ⟨position, .string begun cs.reverse, tokens⟩ =
        .error ⟨fault, begun, position⟩ ∧
      (Quoted.Blames cs fault ∨ fault = .brokenCharacter ∧ Quoted.BreaksOff cs) := by
  obtain rfl | ⟨before, last, rfl⟩ := List.eq_nil_or_concat cs
  · exact ⟨_, rfl, .inl .unterminatedString⟩
  · rw [List.concat_eq_append] at *
    -- A wide character at the end is cut in two; otherwise it is looked at.
    by_cases hWide : last.utf8Size = 1
    · rw [List.reverse_append, List.reverse_singleton, List.singleton_append]
      simp only [finish, hWide, ne_eq, not_true_eq_false, if_false]
      split
      · -- the quote is an escaped one, so that a backslash is left without a character
        rename_i hQuote
        subst hQuote
        obtain ⟨inside, hInside, rfl⟩ := h.of_quote
        rw [List.reverse_reverse, closeString, Quoted.unescape]
        obtain hLone | ⟨c, hUnknown, hBad⟩ := Quoted.unescapeOnto_backslash hInside []
        · rw [hLone]
          exact ⟨_, rfl, .inl .unterminatedString⟩
        · rw [hUnknown, List.append_assoc]
          exact ⟨_, rfl, .inl (.unknownEscape (hBad _))⟩
      · exact ⟨_, rfl, .inl .unterminatedString⟩
    · have hBreaks : Quoted.BreaksOff (before ++ [last]) := ⟨h, before, last, rfl, hWide⟩
      exact ⟨_, finish_breaksOff hBreaks position begun tokens, .inr ⟨rfl, hBreaks⟩⟩

/-- A literal that is not closed is an error with the span that is matched. -/
theorem feedAll_unclosed {matched after : List Char} (h : Quoted.Unclosed matched after)
    (position begun : Nat) (tokens : List Token) :
    ∃ fault, (feedAll ⟨position, .string begun [], tokens⟩ (matched ++ after) >>= finish) =
        .error ⟨fault, begun, position + byteLength matched⟩ ∧
      (Quoted.Blames matched fault ∨
        fault = .brokenCharacter ∧ after = [] ∧ Quoted.BreaksOff matched) := by
  cases h with
  | inside h =>
    obtain ⟨fault, hFinish, hFault⟩ := finish_inside h (position + byteLength matched) begun tokens
    refine ⟨fault, ?_, hFault.imp id fun hBroken => ⟨hBroken.1, rfl, hBroken.2⟩⟩
    rw [List.append_nil, feedAll_inside h, List.append_nil]
    exact hFinish
  | @backslash cs h =>
    refine ⟨.unterminatedString, ?_, .inl .unterminatedString⟩
    rw [List.append_nil, feedAll_append, feedAll_inside h, byteLength_append, ← Nat.add_assoc]
    rfl
  | @lineFeed cs h after =>
    refine ⟨.unterminatedString, ?_, .inl .unterminatedString⟩
    rw [List.append_assoc, feedAll_append, feedAll_inside h, byteLength_append, ← Nat.add_assoc]
    rfl

/-- From the opening quote on. -/
theorem Opens.tokenizeAt_eq {text before rest : List Char} (h : Opens text before rest) :
    ∃ tokens, tokenizeAt 0 text =
      feedAll ⟨byteLength before + '"'.utf8Size, .string (byteLength before) [], tokens⟩ rest >>=
        finish := by
  obtain ⟨rfl, s, hBefore, hOpens⟩ := h
  obtain ⟨tokens, hQuote⟩ := feed_quote hOpens
  have hPosition : s.position = byteLength before := by
    rw [feedAll_position hBefore]
    exact Nat.zero_add _
  refine ⟨tokens, ?_⟩
  rw [tokenizeAt, feedAll_append, hBefore, ← hPosition]
  show (feedAll s ('"' :: rest) >>= finish) = _
  rw [feedAll_cons, hQuote]
  rfl

/-! ## Only through an opening quote -/

/-- A literal that is open stays open with one more character in it. -/
theorem Opens.snoc {text before rest : List Char} (h : Opens text before rest) (c : Char) :
    Opens (text ++ [c]) before (rest ++ [c]) := by
  refine ⟨?_, h.reached⟩
  rw [h.text_eq, List.append_assoc, List.cons_append]

/-- If there is a literal in hand, scanning the text so far has got to its opening
quote. -/
def Held (s : Scanner) (text : List Char) : Prop :=
  match s.pending with
  | .string _ inside => ∃ before, Opens text before inside.reverse ∧ Quoted.Inside inside.reverse
  | .escape _ inside =>
    ∃ before, Opens text before (inside.reverse ++ ['\\']) ∧ Quoted.Inside inside.reverse
  | _ => True

/-- What a character begins is a literal only if it is a quote. -/
theorem enter_held {text : List Char} (hQuote : c = '"' → Opens (text ++ [c]) text [])
    (h : s.enter c = .ok s') : s'.Held (text ++ [c]) := by
  unfold enter at h
  split at h
  · cases h
    trivial
  · split at h
    · cases h
      trivial
    · split at h <;> cases h
      case h_7 => exact ⟨text, hQuote rfl, .nil⟩
      all_goals trivial

theorem closeString_held {begun : Nat} {inside text : List Char}
    (h : s.closeString begun inside = .ok s') : s'.Held text := by
  unfold closeString at h
  split at h <;> cases h
  trivial

/-- **One character.** If a literal is in hand after it, the scanner has got to its opening quote;
the character has opened it, or belongs to it. -/
theorem Held.feed {text : List Char} (hText : (start 0).feedAll text = .ok s) (h : s.Held text)
    (hFeed : s.feed c = .ok s') : s'.Held (text ++ [c]) := by
  -- A quote opens a literal only where none is in hand.
  have hOpens : s.pending.isOutside → c = '"' → Opens (text ++ [c]) text [] := by
    rintro hPending rfl
    exact ⟨rfl, s, hText, hPending⟩
  obtain ⟨position, pending, tokens⟩ := s
  -- One case for each thing that the scanner can be in the middle of; only two of them are
  -- literals.
  cases pending with
  | gap => exact enter_held (hOpens rfl) hFeed
  | comment =>
    simp only [Scanner.feed] at hFeed
    split at hFeed
    · rename_i hEnd
      refine enter_held ?_ hFeed
      rintro rfl
      exact absurd hEnd (by decide)
    · cases hFeed
      trivial
  | word begun chars =>
    simp only [Scanner.feed] at hFeed
    split at hFeed
    · cases hFeed
      trivial
    · split at hFeed
      · cases hFeed
      · exact enter_held (hOpens rfl) hFeed
  | comma begun =>
    simp only [Scanner.feed] at hFeed
    split at hFeed
    · cases hFeed
      trivial
    · exact enter_held (hOpens rfl) hFeed
  | string begun inside =>
    obtain ⟨before, hBefore, hInside⟩ := h
    simp only [Scanner.feed] at hFeed
    split at hFeed
    · exact closeString_held hFeed
    · split at hFeed
      · rename_i hBackslash
        cases hFeed
        exact ⟨before, hBackslash ▸ hBefore.snoc c, hInside⟩
      · rename_i hQuote hBackslash
        cases hFeed
        refine ⟨before, ?_, ?_⟩
        · rw [List.reverse_cons]
          exact hBefore.snoc c
        · rw [List.reverse_cons]
          exact hInside.append (.char hQuote hBackslash .nil)
  | escape begun inside =>
    obtain ⟨before, hBefore, hInside⟩ := h
    simp only [Scanner.feed] at hFeed
    split at hFeed
    · cases hFeed
    · rename_i hNoFeed
      cases hFeed
      have hReverse : (c :: '\\' :: inside).reverse = inside.reverse ++ ['\\', c] := by simp
      refine ⟨before, ?_, ?_⟩
      · rw [hReverse]
        simpa using hBefore.snoc c
      · rw [hReverse]
        exact hInside.append (.escape hNoFeed .nil)

/-- **A whole text.** If a literal is in hand after it, the scanner has got to its
opening quote. -/
theorem Held.feedAll {text rest : List Char} (hText : (start 0).feedAll text = .ok s)
    (h : s.Held text) (hRest : s.feedAll rest = .ok s') : s'.Held (text ++ rest) := by
  -- The text so far grows by one character at a time.
  induction rest generalizing s text with
  | nil =>
    cases hRest
    rwa [List.append_nil]
  | cons c rest ih =>
    rw [feedAll_cons] at hRest
    cases hFeed : s.feed c with
    | error e =>
      rw [hFeed] at hRest
      cases hRest
    | ok next =>
      rw [hFeed] at hRest
      have hNext : (start 0).feedAll (text ++ [c]) = .ok next := by
        rw [feedAll_append, hText]
        show s.feed c >>= pure = _
        rw [hFeed]
        rfl
      have hAll := ih hNext (h.feed hText hFeed) hRest
      rwa [List.append_assoc] at hAll

/-! ## Where there is no answer -/

theorem closeString_fault {begun : Nat} {inside : List Char} {e : LexError}
    (h : s.closeString begun inside = .error e) : e.fault ≠ .brokenCharacter := by
  unfold closeString at h
  split at h <;> cases h <;> exact nofun

/-- No character cuts the scan off; only the end of the text can. -/
theorem feed_fault {e : LexError} (h : s.feed c = .error e) : e.fault ≠ .brokenCharacter := by
  have hFeeds := s.feeds c
  generalize s.feed c = answer at h hFeeds
  cases hFeeds with
  | @enters s₀ hPosition =>
    obtain ⟨next, hNext, -⟩ | hError := s₀.enter_cases c
    · cases hNext.symm.trans h
    · cases hError.symm.trans h
      exact nofun
  | takes hPosition hPending => cases h
  | closes hBegun => exact closeString_fault h
  | fails hBegun hFault =>
    cases h
    exact hFault

/-- No fault within a text is about a broken character. -/
theorem feedAll_fault {text : List Char} {e : LexError} (h : s.feedAll text = .error e) :
    e.fault ≠ .brokenCharacter := by
  induction text generalizing s with
  | nil => cases h
  | cons c text ih =>
    rw [feedAll_cons] at h
    cases hFeed : s.feed c with
    | error e' =>
      rw [hFeed] at h
      cases h
      exact feed_fault hFeed
    | ok next =>
      rw [hFeed] at h
      exact ih h

/-- At the end of the text the scan is cut off only in a literal. -/
theorem finish_fault {e : LexError} (h : s.finish = .error e)
    (hBroken : e.fault = .brokenCharacter) :
    ∃ begun last inside, s.pending = .string begun (last :: inside) ∧ last.utf8Size ≠ 1 := by
  obtain ⟨position, pending, tokens⟩ := s
  unfold finish at h
  -- Only in a literal does the last character matter.
  cases pending with
  | string begun chars =>
    cases chars with
    | nil =>
      cases h
      cases hBroken
    | cons last inside =>
      refine ⟨begun, last, inside, rfl, fun hNarrow => ?_⟩
      simp only [hNarrow, ne_eq, not_true_eq_false, if_false] at h
      split at h
      · cases hClose : closeString ⟨position, .string begun (last :: inside), tokens⟩ begun
            inside.reverse with
        | error e' =>
          rw [hClose] at h
          cases h
          exact closeString_fault hClose hBroken
        | ok s' =>
          rw [hClose] at h
          cases h
      · cases h
        cases hBroken
  | escape begun inside =>
    cases h
    cases hBroken
  | _ => cases h

end Scanner

/-- Scanning gets to an opening quote, and what follows breaks off. -/
def CutsCharacter (text : List Char) : Prop :=
  ∃ before rest, Scanner.Opens text before rest ∧ Quoted.BreaksOff rest

/-- The scan is cut off exactly where a literal breaks off. -/
theorem tokenizeAt_cutOff_iff (text : List Char) :
    (∃ span, tokenizeAt 0 text = .error ⟨.brokenCharacter, span⟩) ↔ CutsCharacter text := by
  constructor
  · rintro ⟨span, h⟩
    rw [tokenizeAt] at h
    -- The text itself has no such fault, so it comes at the end, within the literal in hand.
    cases hText : (Scanner.start 0).feedAll text with
    | error e =>
      rw [hText] at h
      cases h
      exact absurd rfl (Scanner.feedAll_fault hText)
    | ok s =>
      rw [hText] at h
      obtain ⟨begun, last, inside, hPending, hWide⟩ := Scanner.finish_fault h rfl
      have hNothing : (Scanner.start 0).Held [] := trivial
      have hHeld := hNothing.feedAll rfl hText
      simp only [Scanner.Held, hPending, List.reverse_cons] at hHeld
      obtain ⟨before, hOpens, hInside⟩ := hHeld
      exact ⟨before, _, hOpens, hInside, inside.reverse, last, rfl, hWide⟩
  · rintro ⟨before, rest, hOpens, hBreaks⟩
    obtain ⟨tokens, hScan⟩ := hOpens.tokenizeAt_eq
    refine ⟨⟨byteLength before, byteLength before + '"'.utf8Size + byteLength rest⟩, ?_⟩
    rw [hScan, Scanner.feedAll_inside hBreaks.1, List.append_nil]
    exact Scanner.finish_breaksOff hBreaks _ _ _

/-! ## What depends on the scan -/

theorem ParseError.PointsAt.isCutOff_eq {sentence : List Token → Prop} {ts rest : List Token}
    {e : ParseError} (h : e.PointsAt sentence ts rest) : e.isCutOff = false := by
  cases h <;> rfl

/-- Reading tokens is never cut off, and so reading a text is where scanning it is. -/
theorem scanText_cutOff_iff {α : Type} {parse : List Token → Except ParseError α}
    (hParse : ∀ ts e, parse ts = .error e → e.isCutOff = false) (text : String) :
    (∃ e, (scanText text >>= parse) = .error e ∧ e.isCutOff) ↔ CutsCharacter text.toList := by
  rw [← tokenizeAt_cutOff_iff, ← tokenize]
  constructor
  · rintro ⟨e, hError, hCutOff⟩
    unfold scanText at hError
    -- The reader has an answer for all tokens, so it is the scanner that has none.
    cases hTokens : tokenize text with
    | ok tokens =>
      rw [hTokens] at hError
      have hNot := hParse tokens e hError
      rw [hNot] at hCutOff
      cases hCutOff
    | error fault =>
      rw [hTokens] at hError
      cases hError
      obtain ⟨kind, span⟩ := fault
      obtain rfl : kind = .brokenCharacter := of_decide_eq_true hCutOff
      exact ⟨span, rfl⟩
  · rintro ⟨span, hTokens⟩
    refine ⟨.lexical ⟨.brokenCharacter, span⟩, ?_, rfl⟩
    rw [scanText, hTokens]
    rfl

theorem parseProgram_cutOff_iff (text : String) :
    (∃ e, parseProgram text = .error e ∧ e.isCutOff) ↔ CutsCharacter text.toList := by
  refine scanText_cutOff_iff (fun ts e hError => ?_) text
  obtain ⟨rest, hPoints⟩ := parseAll_error hError
  exact hPoints.isCutOff_eq

/-- An input is cut off exactly if it cuts a character. -/
theorem evalInput_cutOff_iff (fuel : Nat) (env : FrameId) (m : Machine) (text : String) :
    (Console.evalInput fuel env m text).outcome = .error .cutOff ↔ CutsCharacter text.toList := by
  rw [← parseProgram_cutOff_iff]
  unfold Console.evalInput
  cases hParse : parseProgram text with
  | error e =>
    by_cases hCutOff : e.isCutOff
    · simp [hCutOff]
    · simp [hCutOff]
  | ok program =>
    -- The run of a program may end for want of fuel, and else there is a result.
    have hRun : ¬ ∃ e, (Except.ok program : Except ParseError (List Datum)) = .error e ∧
        e.isCutOff := by
      rintro ⟨e, hError, -⟩
      cases hError
    refine iff_of_false (fun hOutcome => ?_) hRun
    simp only at hOutcome
    split at hOutcome <;> cases hOutcome

/-- A completion is cut off exactly if the line before the cursor cuts a character. -/
theorem complete?_eq_none_iff (names : List String) {line : String} {cursor : Nat}
    {before : List Char} (hBefore : Console.takeBytes? cursor line.toList = some before) :
    Console.complete? names line cursor = none ↔ CutsCharacter before := by
  rw [← tokenizeAt_cutOff_iff, Console.complete?, hBefore]
  simp only [Option.bind_eq_bind, Option.bind_some]
  cases hTokens : tokenizeAt 0 before with
  | ok tokens =>
    refine iff_of_false (fun hNone => ?_) (by rintro ⟨span, hError⟩; cases hError)
    simp only at hNone
    split at hNone <;> cases hNone
  | error e =>
    obtain ⟨fault, span⟩ := e
    by_cases hBroken : fault = .brokenCharacter
    · subst hBroken
      simp
    · simp [hBroken]

/-- **Literals that are never closed are reported.** Where scanning gets to an opening
quote and no quote closes the literal, the error is that the literal is unterminated,
or a bad escape in it, and its span is the literal as far as it is matched. Otherwise
the literal goes to the end of the text and breaks off in a character of several
bytes: exactly then there is no answer, from the scan and from all that depends on it. -/
theorem unclosed_literals_reported (text : String) :
    (∀ before rest, Scanner.Opens text.toList before rest → Quoted.NeverCloses rest →
      ∃ matched after fault, rest = matched ++ after ∧ Quoted.Unclosed matched after ∧
        tokenize text =
          .error ⟨fault, byteLength before, byteLength before + byteLength ('"' :: matched)⟩ ∧
        (Quoted.Blames matched fault ∨
          fault = .brokenCharacter ∧ after = [] ∧ Quoted.BreaksOff matched)) ∧
    ((∃ span, tokenize text = .error ⟨.brokenCharacter, span⟩) ↔ CutsCharacter text.toList) ∧
    ((∃ e, parseText text = .error e ∧ e.isCutOff) ↔ CutsCharacter text.toList) ∧
    ((∃ e, parseProgram text = .error e ∧ e.isCutOff) ↔ CutsCharacter text.toList) ∧
    (∀ fuel env m, (Console.evalInput fuel env m text).outcome = .error .cutOff ↔
      CutsCharacter text.toList) ∧
    ∀ names cursor before, Console.takeBytes? cursor text.toList = some before →
      (Console.complete? names text cursor = none ↔ CutsCharacter before) := by
  refine ⟨?_, tokenizeAt_cutOff_iff text.toList, ?_, parseProgram_cutOff_iff text, ?_, ?_⟩
  · intro before rest hOpens hNever
    obtain ⟨matched, after, rfl, hUnclosed⟩ := hNever.exists_unclosed
    -- The literal begins at the quote, and nothing after it ends it.
    obtain ⟨tokens, hScan⟩ := hOpens.tokenizeAt_eq
    obtain ⟨fault, hError, hFault⟩ := Scanner.feedAll_unclosed hUnclosed
      (byteLength before + '"'.utf8Size) (byteLength before) tokens
    refine ⟨matched, after, fault, rfl, hUnclosed, ?_, hFault⟩
    rw [tokenize, hScan, hError, Nat.add_assoc]
    rfl
  · refine scanText_cutOff_iff (fun ts e hError => ?_) text
    obtain ⟨rest, hPoints⟩ := parseOne_error hError
    exact hPoints.isCutOff_eq
  · exact fun fuel env m => evalInput_cutOff_iff fuel env m text
  · exact fun names cursor before hBefore => complete?_eq_none_iff names hBefore

/-- A quote and then an e with an accent, which takes two bytes: the literal is not
closed, but there is no error that says so. -/
theorem unclosed_literal_cut_off :
    Scanner.Opens "\"é".toList [] ['é'] ∧ Quoted.NeverCloses ['é'] ∧
      tokenize "\"é" = .error ⟨.brokenCharacter, 0, 3⟩ := by
  refine ⟨⟨rfl, _, rfl, rfl⟩, ?_, rfl⟩
  intro inside after hInside hEq
  cases hInside with
  | nil => cases hEq
  | char hQuote hBackslash h => simp at hEq
  | escape hFeed h => cases hEq

end MiniScheme
