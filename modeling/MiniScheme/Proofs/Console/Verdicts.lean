import MiniScheme.Proofs.Console.Parentheses
import Mathlib.Data.List.TakeWhile

/-!
# What becomes of a verdict

An input grows from line to line, and is looked at without its line feeds and the white space
around it. A bracket that closes nothing stays what it is, and white space makes no difference.
Where the reader stops in the middle of a literal or a list, an input is not complete, if its
comments would do by themselves.

* `bracketsAfter_or_unmatched` — brackets can be counted to the end, or one closes nothing;
* `checkBrackets_append_of_unmatched` — the verdict on a text that goes on;
* `checkBrackets_append_blanks`, `checkBrackets_trim` — white space around a text;
* `not_complete_of_cutsCharacter`, `not_complete_of_unclosed` — inputs that the reader cannot
  finish.
-/

namespace MiniScheme

open Console

/-! ## Verdicts on texts that go on -/

namespace Console

variable {zone : Zone} {opened text more blanks : List Char} {c : Char} {place : Nat}

/-- A character at which the count ends is a bracket that closes nothing. -/
theorem checkBracketsFrom_cons_of_none (h : bracketStep (zone, opened) c = none) (place : Nat)
    (rest : List Char) : checkBracketsFrom zone opened place (c :: rest) = .unmatched c place := by
  rw [bracketStep] at h
  unfold checkBracketsFrom
  split at h
  · cases h
  · rename_i hOpening
    rw [if_neg hOpening]
    split at h
    · rename_i hClosing
      rw [if_pos hClosing]
      cases opened with
      | nil => rfl
      | cons opening outer =>
        rw [Option.map_eq_none_iff, closeInnermost] at h
        split at h
        · cases h
        · rename_i hPartner
          exact if_neg hPartner
    · cases h

/-- Either the brackets of a text can be counted to its end, or the verdict is that one of them
closes nothing, however the text goes on. -/
theorem bracketsAfter_or_unmatched (zone : Zone) (opened text : List Char) (place : Nat) :
    (∃ zone' inner, bracketsAfter (zone, opened) text = some (zone', inner)) ∨
      ∃ bracket place', ∀ more,
        checkBracketsFrom zone opened place (text ++ more) = .unmatched bracket place' := by
  induction text generalizing zone opened place with
  | nil => exact .inl ⟨zone, opened, rfl⟩
  | cons c text ih =>
    cases hStep : bracketStep (zone, opened) c with
    | none => exact .inr ⟨c, place, fun more => checkBracketsFrom_cons_of_none hStep place _⟩
    | some state =>
      obtain ⟨zone₁, opened₁⟩ := state
      refine (ih zone₁ opened₁ (place + 1)).imp ?_ ?_
      · rintro ⟨zone', inner, hRest⟩
        refine ⟨zone', inner, ?_⟩
        rw [bracketsAfter_cons, hStep]
        exact hRest
      · rintro ⟨bracket, place', hRest⟩
        refine ⟨bracket, place', fun more => ?_⟩
        rw [List.cons_append, checkBracketsFrom_cons hStep]
        exact hRest more

/-- What follows a bracket that closes nothing makes no difference. -/
theorem checkBrackets_append_of_unmatched {bracket : Char} {place' : Nat}
    (h : checkBrackets text = .unmatched bracket place') (more : List Char) :
    checkBrackets (text ++ more) = .unmatched bracket place' := by
  obtain ⟨zone, inner, hAfter⟩ | ⟨_, _, hAll⟩ := bracketsAfter_or_unmatched .code [] text 0
  · rw [checkBrackets, checkBracketsFrom_eq hAfter] at h
    split at h <;> cases h
  · have hText := hAll []
    rw [List.append_nil, ← checkBrackets, h] at hText
    cases hText
    exact hAll more

/-- White space is nothing that the console counts. -/
theorem notCounted_of_isWhiteSpace (h : isWhiteSpace c) :
    isOpening c = false ∧ isClosing c = false ∧ c ≠ '"' ∧ c ≠ '\\' := by
  have hNot : ∀ d, isWhiteSpace d = false → c ≠ d := by
    rintro d hd rfl
    rw [h] at hd
    cases hd
  refine ⟨?_, ?_, hNot _ (by decide), hNot _ (by decide)⟩
  · simp [isOpening, hNot '(' (by decide), hNot '[' (by decide), hNot '\x7b' (by decide)]
  · simp [isClosing, hNot ')' (by decide), hNot ']' (by decide), hNot '\x7d' (by decide)]

/-- White space leaves code in code, and what is not code outside of it. -/
theorem bracketStep_blank (h : isWhiteSpace c) (zone : Zone) (opened : List Char) :
    ∃ zone', bracketStep (zone, opened) c = some (zone', opened) ∧
      (zone' = .code ↔ zone = .code) := by
  obtain ⟨hOpening, hClosing, hQuote, hBackslash⟩ := notCounted_of_isWhiteSpace h
  cases zone with
  | code => exact ⟨.code, bracketStep_plain hOpening hClosing hQuote opened, Iff.rfl⟩
  | string =>
    refine ⟨.string, ?_, by simp⟩
    rw [bracketStep_string .string (by decide), Zone.next, if_neg hBackslash, if_neg hQuote]
  | escape => exact ⟨.string, bracketStep_string .escape (by decide) opened c, by simp⟩

/-- Blanks neither open nor close anything; they may end a comment, and no more than that. -/
theorem bracketsAfter_blanks (h : ∀ c ∈ blanks, isWhiteSpace c) (zone : Zone)
    (opened : List Char) :
    ∃ zone', bracketsAfter (zone, opened) blanks = some (zone', opened) ∧
      (zone' = .code ↔ zone = .code) := by
  induction blanks generalizing zone with
  | nil => exact ⟨zone, rfl, Iff.rfl⟩
  | cons c blanks ih =>
    obtain ⟨hFirst, hRest⟩ := List.forall_mem_cons.mp h
    obtain ⟨zone₁, hStep, hCode₁⟩ := bracketStep_blank hFirst zone opened
    obtain ⟨zone₂, hLater, hCode₂⟩ := ih hRest zone₁
    refine ⟨zone₂, ?_, hCode₂.trans hCode₁⟩
    rw [bracketsAfter_cons, hStep]
    exact hLater

/-- The verdict does not depend on the white space at the end. -/
theorem checkBrackets_append_blanks (h : ∀ c ∈ blanks, isWhiteSpace c) :
    checkBrackets (text ++ blanks) = checkBrackets text := by
  obtain ⟨zone, inner, hAfter⟩ | ⟨_, _, hAll⟩ := bracketsAfter_or_unmatched .code [] text 0
  · obtain ⟨zone', hBlanks, hCode⟩ := bracketsAfter_blanks h zone inner
    have hBoth : bracketsAfter (.code, []) (text ++ blanks) = some (zone', inner) := by
      rw [bracketsAfter_append, hAfter]
      exact hBlanks
    rw [checkBrackets, checkBrackets, checkBracketsFrom_eq hBoth, checkBracketsFrom_eq hAfter]
    simp only [hCode]
  · have hText := hAll []
    rw [List.append_nil] at hText
    exact (hAll blanks).trans hText.symm

/-- Nor does it matter for completeness what white space stands before a text. -/
theorem complete_of_blanks_append (h : ∀ c ∈ blanks, isWhiteSpace c)
    (hComplete : checkBrackets (blanks ++ text) = .complete) : checkBrackets text = .complete := by
  obtain ⟨zone', hBlanks, hCode⟩ := bracketsAfter_blanks h .code []
  obtain rfl := hCode.mpr rfl
  have hBoth := checkBracketsFrom_eq_complete_iff.mp hComplete
  rw [bracketsAfter_append, hBlanks] at hBoth
  exact checkBracketsFrom_eq_complete_iff.mpr hBoth

/-- What is left of a complete text without the white space around it is complete. -/
theorem checkBrackets_trim (hComplete : checkBrackets text = .complete) :
    checkBrackets (trim text) = .complete := by
  have hBefore : ∀ c ∈ text.takeWhile isWhiteSpace, isWhiteSpace c :=
    fun c hMem => List.mem_takeWhile_imp hMem
  have hStart : checkBrackets (trimStart text) = .complete := by
    refine complete_of_blanks_append hBefore ?_
    rwa [trimStart, List.takeWhile_append_dropWhile]
  -- the white space at the end is at the beginning of the reversed text
  have hBehind : ∀ c ∈ ((trimStart text).reverse.takeWhile isWhiteSpace).reverse, isWhiteSpace c :=
    fun c hMem => List.mem_takeWhile_imp (List.mem_reverse.mp hMem)
  have hSplit : trim text ++ ((trimStart text).reverse.takeWhile isWhiteSpace).reverse =
      trimStart text := by
    rw [trim, trimEnd, ← List.reverse_append, List.takeWhile_append_dropWhile, List.reverse_reverse]
  rwa [← hSplit, checkBrackets_append_blanks hBehind] at hStart

theorem mem_of_mem_trim (h : c ∈ trim text) : c ∈ text := by
  rw [trim, trimEnd, List.mem_reverse] at h
  have hStart : c ∈ trimStart text :=
    List.mem_reverse.mp ((List.dropWhile_sublist isWhiteSpace).subset h)
  exact (List.dropWhile_sublist isWhiteSpace).subset hStart

end Console

/-! ## Inputs that the reader cannot finish -/

section Unfinished
variable {text : String} (hComments : ∀ comment ∈ comments text, checkBrackets comment = .complete)
include hComments

/-- What the console has seen of a text, where the scanner takes all its characters. -/
theorem bracketsAfter_of_feedAll {s : Scanner}
    (hText : (Scanner.start 0).feedAll text.toList = .ok s) :
    bracketsAfter (.code, []) text.toList = s.brackets :=
  Scanner.feedAll_brackets hText hComments

/-- A literal in which the scan is cut off is open for the console too. -/
theorem not_complete_of_cutsCharacter (h : CutsCharacter text.toList) :
    checkBrackets text.toList ≠ .complete := by
  intro hComplete
  obtain ⟨span, hError⟩ := (tokenizeAt_cutOff_iff _).mpr h
  rw [tokenizeAt] at hError
  cases hText : (Scanner.start 0).feedAll text.toList with
  | error e =>
    rw [hText] at hError
    cases hError
    exact Scanner.feedAll_fault hText rfl
  | ok s =>
    rw [hText] at hError
    obtain ⟨begun, last, inside, hPending, -⟩ := Scanner.finish_fault hError rfl
    have hBrackets := bracketsAfter_of_feedAll hComments hText
    rw [checkBracketsFrom_eq_complete_iff.mp hComplete, Scanner.brackets, hPending] at hBrackets
    obtain ⟨depth, -, hState⟩ := Option.map_eq_some_iff.mp hBrackets.symm
    cases hState

/-- Where the reader waits for a parenthesis, the console waits too. -/
theorem not_complete_of_unclosed {opening : Span}
    (h : parseProgram text = .error (.unexpectedEnd (.close opening))) :
    checkBrackets text.toList ≠ .complete := by
  intro hComplete
  unfold parseProgram scanText at h
  cases hTokens : tokenize text with
  | error e =>
    rw [hTokens] at h
    cases h
  | ok tokens =>
    rw [hTokens] at h
    obtain ⟨depth, hDepth, hOpen⟩ := exists_depth_of_parse_error (.inr h)
    rw [tokenize, tokenizeAt] at hTokens
    cases hText : (Scanner.start 0).feedAll text.toList with
    | error e =>
      rw [hText] at hTokens
      cases hTokens
    | ok s =>
      rw [hText] at hTokens
      have hBrackets := bracketsAfter_of_feedAll hComments hText
      rw [checkBracketsFrom_eq_complete_iff.mp hComplete, Scanner.finish_brackets hText hTokens,
        hDepth] at hBrackets
      -- one parenthesis at least is open, and none would have to be
      cases depth with
      | zero => exact absurd hOpen (Nat.lt_irrefl 0)
      | succ outer => cases hBrackets

end Unfinished

/-- A literal that breaks off begins with a quote. -/
theorem CutsCharacter.quote_mem {text : List Char} (h : CutsCharacter text) : '"' ∈ text := by
  obtain ⟨before, rest, hOpens, -⟩ := h
  rw [hOpens.text_eq]
  exact List.mem_append_right _ List.mem_cons_self

/-- A text without semicolons has no comments. -/
theorem comments_eq_nil {text : String} (h : ';' ∉ text.toList) : comments text = [] := by
  suffices hAll : ∀ (s : Scanner) (rest : List Char), ';' ∉ rest → s.comments rest = [] from
    hAll _ _ h
  intro s rest hRest
  induction rest generalizing s with
  | nil => rfl
  | cons c rest ih =>
    obtain ⟨hFirst, hLater⟩ := not_or.mp (fun hMem => hRest (List.mem_cons.mpr hMem))
    unfold Scanner.comments
    split
    · rfl
    · rw [if_neg fun hBegins => hFirst hBegins.1.symm]
      exact ih _ hLater

end MiniScheme
