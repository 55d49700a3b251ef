import MiniScheme.Proofs.Datum.Grammar
import MiniScheme.Proofs.Token.Unclosed

/-!
# Inputs that the reader accepts

The console looks at brackets character by character and knows of strings, but not of
comments. The reader goes by tokens. As long as the comments of a text would do by
themselves as an input, both count the same parentheses, and an input that the reader
accepts is complete for the console.

* `depthAfter` — the open parentheses after some tokens: none after data;
* `bracketsAfter` — what the console has seen after some characters;
* `Scanner.comments` — the comments of a text;
* `Scanner.feed_brackets`, `Scanner.feedAll_brackets` — the scanner and the console go
  through a text in step;
* `accepted_inputs_complete` — hence no input is held back that the reader accepts.
-/

namespace MiniScheme

/-! ## Parentheses among tokens -/

/-- How many parentheses are open after a token, unless it closes what is not open. -/
def TokenKind.deepen (depth : Nat) : TokenKind → Option Nat
  | leftParen => some (depth + 1)
  | rightParen =>
    match depth with
    | 0 => none
    | outer + 1 => some outer
  | _ => some depth

/-- How many parentheses are open after some tokens. -/
def depthAfter (depth : Nat) (ts : List Token) : Option Nat :=
  ts.foldlM (fun depth t => t.kind.deepen depth) depth

theorem depthAfter_append (depth : Nat) (ts us : List Token) :
    depthAfter depth (ts ++ us) = depthAfter depth ts >>= fun inner => depthAfter inner us :=
  List.foldlM_append

theorem depthAfter_cons (depth : Nat) (t : Token) (ts : List Token) :
    depthAfter depth (t :: ts) = t.kind.deepen depth >>= fun inner => depthAfter inner ts :=
  rfl

theorem depthAfter_single (depth : Nat) (t : Token) :
    depthAfter depth [t] = t.kind.deepen depth := by
  rw [depthAfter_cons]
  cases t.kind.deepen depth <;> rfl

theorem TokenKind.deepen_atom {kind : TokenKind} {a : Atom} (h : kind.atom? = some a)
    (depth : Nat) : kind.deepen depth = some depth := by
  cases kind <;> first | rfl | cases h

mutual

/-- What is opened in a datum is closed in it. -/
theorem Derives.depthAfter_eq {ts : List Token} {d : Datum} (h : Derives ts d) (depth : Nat) :
    depthAfter depth ts = some depth := by
  -- The recursion follows the derivation; what stands in a list is one deeper.
  match ts, d, h with
  | _, _, .atom hAtom => rw [depthAfter_single, TokenKind.deepen_atom hAtom]
  | _, _, .marked hMark h =>
    rw [depthAfter_cons, hMark]
    exact h.depthAfter_eq depth
  | _, _, .list hOpen h hClose =>
    rw [depthAfter_cons, hOpen]
    show depthAfter (depth + 1) _ = _
    rw [depthAfter_append, h.depthAfter_eq, Option.bind_eq_bind, Option.bind_some,
      depthAfter_single, hClose]
    rfl
  | _, _, .dotted hOpen h hSome hDot hTail hClose =>
    rw [depthAfter_cons, hOpen]
    show depthAfter (depth + 1) _ = _
    rw [depthAfter_append, h.depthAfter_eq, Option.bind_eq_bind, Option.bind_some,
      depthAfter_cons, hDot]
    show depthAfter (depth + 1) _ = _
    rw [depthAfter_append, hTail.depthAfter_eq, Option.bind_eq_bind, Option.bind_some,
      depthAfter_single, hClose]
    rfl

/-- What is opened in some data is closed in them. -/
theorem DerivesAll.depthAfter_eq {ts : List Token} {ds : List Datum} (h : DerivesAll ts ds)
    (depth : Nat) : depthAfter depth ts = some depth := by
  match ts, ds, h with
  | _, _, .nil => rfl
  | _, _, .cons h hs =>
    rw [depthAfter_append, h.depthAfter_eq, Option.bind_eq_bind, Option.bind_some,
      hs.depthAfter_eq]

end

/-! ## Brackets among characters -/

namespace Console

/-- The brackets that stay open when the innermost one is closed by its partner. -/
def closeInnermost (closing : Char) : List Char → Option (List Char)
  | opening :: outer => if closes opening closing then some outer else none
  | [] => none

/-- The zone and the open brackets after a character, unless it is a bracket that closes
nothing. -/
def bracketStep : Zone × List Char → Char → Option (Zone × List Char)
  | (zone, opened), c =>
    if zone = .code ∧ isOpening c then some (.code, c :: opened)
    else if zone = .code ∧ isClosing c then
      (closeInnermost c opened).map fun outer => (.code, outer)
    else some (zone.next c, opened)

/-- The zone and the open brackets after some characters. -/
def bracketsAfter (state : Zone × List Char) (text : List Char) : Option (Zone × List Char) :=
  text.foldlM bracketStep state

variable {zone zone' : Zone} {opened inner inner' : List Char} {c : Char} {text : List Char}

theorem bracketsAfter_append (state : Zone × List Char) (text text' : List Char) :
    bracketsAfter state (text ++ text') =
      bracketsAfter state text >>= fun state' => bracketsAfter state' text' :=
  List.foldlM_append

theorem bracketsAfter_cons (state : Zone × List Char) (c : Char) (text : List Char) :
    bracketsAfter state (c :: text) =
      bracketStep state c >>= fun state' => bracketsAfter state' text :=
  rfl

/-- An input is complete if everything is closed after it. -/
theorem checkBracketsFrom_eq_complete_iff {place : Nat} :
    checkBracketsFrom zone opened place text = .complete ↔
      bracketsAfter (zone, opened) text = some (.code, []) := by
  -- Character by character, from any zone and any open brackets; the verdict and what is seen split
  -- on the same tests.
  induction text generalizing zone opened place with
  | nil =>
    rw [checkBracketsFrom]
    split
    · rename_i hClosed
      obtain ⟨rfl, rfl⟩ := hClosed
      exact iff_of_true rfl rfl
    · rename_i hOpen
      refine iff_of_false (by simp) ?_
      intro hEnd
      cases hEnd
      exact hOpen ⟨rfl, rfl⟩
  | cons c rest ih =>
    unfold checkBracketsFrom
    rw [bracketsAfter_cons, bracketStep]
    split
    · exact ih
    · split
      · cases opened with
        | nil => exact iff_of_false (by simp) (fun hEq => by cases hEq)
        | cons opening outer =>
          rw [closeInnermost]
          dsimp only
          split
          · exact ih
          · exact iff_of_false (by simp) (by simp)
      · exact ih

/-- What a character does to the open brackets it does also with others open around them. -/
theorem bracketStep_under (outer : List Char)
    (h : bracketStep (zone, inner) c = some (zone', inner')) :
    bracketStep (zone, inner ++ outer) c = some (zone', inner' ++ outer) := by
  -- A closing bracket looks at the innermost one only, and that is not one of `outer`.
  rw [bracketStep] at h ⊢
  split at h
  · rename_i hOpening
    cases h
    rw [if_pos hOpening, List.cons_append]
  · rename_i hOpening
    rw [if_neg hOpening]
    split at h
    · rename_i hClosing
      obtain ⟨left, hClose, hEq⟩ := Option.map_eq_some_iff.mp h
      cases hEq
      have hOuter : closeInnermost c (inner ++ outer) = some (inner' ++ outer) := by
        cases inner with
        | nil => cases hClose
        | cons opening inner =>
          rw [closeInnermost] at hClose
          rw [List.cons_append, closeInnermost]
          split at hClose
          · rename_i hPartner
            cases hClose
            rw [if_pos hPartner]
          · cases hClose
      rw [if_pos hClosing, hOuter]
      rfl
    · rename_i hClosing
      cases h
      rw [if_neg hClosing]

/-- Brackets that are open around a text make no difference to it. -/
theorem bracketsAfter_under (outer : List Char)
    (h : bracketsAfter (zone, inner) text = some (zone', inner')) :
    bracketsAfter (zone, inner ++ outer) text = some (zone', inner' ++ outer) := by
  induction text generalizing zone inner with
  | nil =>
    cases h
    rfl
  | cons c rest ih =>
    rw [bracketsAfter_cons] at h
    obtain ⟨⟨zone₁, inner₁⟩, hStep, hRest⟩ := Option.bind_eq_some_iff.mp h
    rw [bracketsAfter_cons, bracketStep_under outer hStep]
    exact ih hRest

/-- A text that is complete by itself leaves everything as it is. -/
theorem bracketsAfter_of_complete (h : checkBrackets text = .complete) (opened : List Char) :
    bracketsAfter (.code, opened) text = some (.code, opened) :=
  bracketsAfter_under opened (checkBracketsFrom_eq_complete_iff.mp h)

/-- In a string no bracket counts. -/
theorem bracketStep_string (zone : Zone) (h : zone ≠ .code) (opened : List Char) (c : Char) :
    bracketStep (zone, opened) c = some (zone.next c, opened) := by
  simp only [bracketStep, h, false_and, if_false]

/-- Neither a bracket nor a quote. -/
theorem bracketStep_plain (hOpening : isOpening c = false) (hClosing : isClosing c = false)
    (hQuote : c ≠ '"') (opened : List Char) :
    bracketStep (.code, opened) c = some (.code, opened) := by
  simp [bracketStep, hOpening, hClosing, Zone.next, hQuote]

/-- What is neither in a word nor between words may count. -/
theorem bracketStep_word (h : isWordChar c) (opened : List Char) :
    bracketStep (.code, opened) c = some (.code, opened) := by
  have hNot : ∀ d, isWordChar d = false → c ≠ d := by
    rintro d hd rfl
    rw [h] at hd
    cases hd
  refine bracketStep_plain ?_ ?_ (hNot _ (by decide)) opened
  · simp [isOpening, hNot '(' (by decide), hNot '[' (by decide), hNot '\x7b' (by decide)]
  · simp [isClosing, hNot ')' (by decide), hNot ']' (by decide), hNot '\x7d' (by decide)]

/-- Blanks between words open and close nothing. -/
theorem bracketStep_separator (h : isSeparator c) (opened : List Char) :
    bracketStep (.code, opened) c = some (.code, opened) := by
  simp only [isSeparator, Bool.or_eq_true, decide_eq_true_eq] at h
  rcases h with ((rfl | rfl) | rfl) | rfl <;> rfl

end Console

open Console

/-! ## Comments -/

/-- The characters that end a comment. -/
def endsComment (c : Char) : Bool := c = '\n' || c = '\r'

/-- A comment, from its semicolon on. -/
def commentOf (text : List Char) : List Char := text.takeWhile fun c => !endsComment c

/-- What follows a comment. -/
def afterComment (text : List Char) : List Char := text.dropWhile fun c => !endsComment c

namespace Scanner

/-- The comments that the scanner takes in a text, without their semicolons. -/
def comments (s : Scanner) : List Char → List (List Char)
  | [] => []
  | c :: rest =>
    match s.feed c with
    | .error _ => []
    | .ok s' =>
      if c = ';' ∧ s.pending.isOutside then commentOf rest :: s'.comments rest
      else s'.comments rest

/-- What is left of a text after the comment in hand. -/
def skip (s : Scanner) (text : List Char) : List Char :=
  if s.pending = .comment then afterComment text else text

end Scanner

/-! ## In step -/

/-- The zone that the console is in where the scanner is in the middle of this. -/
def Pending.zone : Pending → Zone
  | .string .. => .string
  | .escape .. => .escape
  | _ => .code

/-- Outside of literals and comments the console is in code. -/
theorem Pending.zone_of_isOutside {pending : Pending} (h : pending.isOutside) :
    pending.zone = .code := by
  cases pending <;> first | rfl | cases h

/-- A word is no parenthesis. -/
theorem TokenKind.deepen_ofWord (word : List Char) (depth : Nat) :
    (ofWord word).deepen depth = some depth := by
  unfold ofWord
  split
  · rfl
  · split
    · rfl
    · split
      · rfl
      · split <;> rfl

namespace Scanner

variable {s s' : Scanner} {c : Char} {text rest : List Char}

/-- What the console has seen where the scanner has these tokens. -/
def brackets (s : Scanner) : Option (Zone × List Char) :=
  (depthAfter 0 s.tokens.reverse).map fun depth => (s.pending.zone, List.replicate depth '(')

/-- The same tokens. -/
theorem brackets_eq (hTokens : s'.tokens = s.tokens) (hZone : s'.pending.zone = s.pending.zone) :
    s'.brackets = s.brackets := by
  rw [brackets, brackets, hTokens, hZone]

/-- A token that is no parenthesis. -/
theorem depthAfter_emit {kind : TokenKind} {start : Nat}
    (hFlat : ∀ depth, kind.deepen depth = some depth) :
    depthAfter 0 (s.emit start kind).tokens.reverse = depthAfter 0 s.tokens.reverse := by
  simp only [emit, List.reverse_cons, depthAfter_append, depthAfter_single, hFlat]
  exact Option.bind_fun_some _

theorem brackets_emit {kind : TokenKind} (hFlat : ∀ depth, kind.deepen depth = some depth)
    (hZone : s.pending.zone = .code) (start : Nat) : (s.emit start kind).brackets = s.brackets := by
  rw [brackets, brackets, depthAfter_emit hFlat, hZone]
  rfl

/-- A character that opens and closes nothing. -/
theorem step_flat {zone : Zone} (hZone : s.pending.zone = zone)
    (hStep : ∀ opened, bracketStep (zone, opened) c = some (s'.pending.zone, opened))
    (hTokens : depthAfter 0 s'.tokens.reverse = depthAfter 0 s.tokens.reverse) :
    (s.brackets >>= fun state => bracketStep state c) = s'.brackets := by
  rw [brackets, brackets, hTokens, hZone]
  cases depthAfter 0 s.tokens.reverse with
  | none => rfl
  | some depth => exact hStep _

/-- An opening parenthesis is open for both. -/
theorem step_left (hZone : s.pending.zone = .code) :
    (s.brackets >>= fun state => bracketStep state '(') = (s.emitChar '(' .leftParen).brackets := by
  simp only [brackets, emitChar, emit, advance, List.reverse_cons, depthAfter_append,
    depthAfter_single, hZone]
  cases depthAfter 0 s.tokens.reverse <;> rfl

/-- A closing parenthesis closes for both, or fails for both. -/
theorem step_right (hZone : s.pending.zone = .code) :
    (s.brackets >>= fun state => bracketStep state ')') =
      (s.emitChar ')' .rightParen).brackets := by
  simp only [brackets, emitChar, emit, advance, List.reverse_cons, depthAfter_append,
    depthAfter_single, hZone]
  rcases depthAfter 0 s.tokens.reverse with _ | _ | depth <;> rfl

/-- A mark is a token for the scanner and nothing for the console. -/
theorem step_mark (hZone : s.pending.zone = .code)
    (hStep : ∀ opened, bracketStep (.code, opened) c = some (.code, opened)) (mark : Mark) :
    (s.brackets >>= fun state => bracketStep state c) = (s.emitChar c (.mark mark)).brackets :=
  step_flat hZone hStep (depthAfter_emit (s := s.advance c .gap) fun _ => rfl)

/-- What a character begins outside of comments and literals, if it is no comment. -/
theorem enter_brackets (hZone : s.pending.zone = .code) (hComment : c ≠ ';')
    (h : s.enter c = .ok s') :
    s'.pending ≠ .comment ∧ (s.brackets >>= fun state => bracketStep state c) = s'.brackets := by
  unfold enter at h
  split at h
  · rename_i hSeparator
    cases h
    exact ⟨nofun, step_flat hZone (bracketStep_separator hSeparator) rfl⟩
  · split at h
    · rename_i hWord
      cases h
      exact ⟨nofun, step_flat hZone (bracketStep_word hWord) rfl⟩
    · split at h <;> cases h
      -- a comment, the parentheses, the marks of one character, a comma and a quote
      case h_1 => exact absurd rfl hComment
      case h_2 => exact ⟨nofun, step_left hZone⟩
      case h_3 => exact ⟨nofun, step_right hZone⟩
      case h_4 => exact ⟨nofun, step_mark hZone (fun _ => rfl) .quote⟩
      case h_5 => exact ⟨nofun, step_mark hZone (fun _ => rfl) .quasiquote⟩
      case h_6 => exact ⟨nofun, step_flat hZone (fun _ => rfl) rfl⟩
      case h_7 => exact ⟨nofun, step_flat hZone (fun _ => rfl) rfl⟩

/-- The end of a literal. -/
theorem closeString_brackets {start : Nat} {inside : List Char}
    (hZone : s.pending.zone = .string)
    (h : (s.advance '"' .gap).closeString start inside = .ok s') :
    s'.pending ≠ .comment ∧ (s.brackets >>= fun state => bracketStep state '"') = s'.brackets := by
  unfold closeString at h
  split at h <;> cases h
  refine ⟨nofun, step_flat hZone (fun _ => rfl) ?_⟩
  exact depthAfter_emit (fun _ => rfl)

/-- Outside of comments, the console follows each character that begins no comment. -/
theorem feed_brackets (hNot : s.pending ≠ .comment) (hBegins : ¬ (c = ';' ∧ s.pending.isOutside))
    (h : s.feed c = .ok s') :
    s'.pending ≠ .comment ∧ (s.brackets >>= fun state => bracketStep state c) = s'.brackets := by
  have hComment : s.pending.isOutside → c ≠ ';' := fun hOut hEq => hBegins ⟨hEq, hOut⟩
  obtain ⟨position, pending, tokens⟩ := s
  cases pending with
  | gap => exact enter_brackets rfl (hComment rfl) h
  | comment => exact absurd rfl hNot
  | word begun chars =>
    simp only [feed] at h
    split at h
    · rename_i hWord
      cases h
      exact ⟨(fun hEq => by cases hEq), step_flat rfl (bracketStep_word hWord) rfl⟩
    · split at h
      · cases h
      · -- the word is a token first, and the character begins something new
        rw [← brackets_emit (TokenKind.deepen_ofWord chars.reverse) rfl begun]
        exact enter_brackets rfl (hComment rfl) h
  | comma begun =>
    simp only [feed] at h
    split at h
    · rename_i hAt
      subst hAt
      cases h
      exact ⟨(fun hEq => by cases hEq), step_flat rfl (fun _ => rfl) (depthAfter_emit fun _ => rfl)⟩
    · have hEmit : (emit ⟨position, .comma begun, tokens⟩ begun (.mark .unquote)).brackets =
          brackets ⟨position, .comma begun, tokens⟩ := brackets_emit (fun _ => rfl) rfl begun
      rw [← hEmit]
      exact enter_brackets rfl (hComment rfl) h
  | string begun inside =>
    -- the scanner and the console look for the same two characters
    simp only [feed] at h
    split at h
    · rename_i hQuote
      subst hQuote
      exact closeString_brackets rfl h
    · split at h
      · rename_i hBackslash
        subst hBackslash
        cases h
        exact ⟨(fun hEq => by cases hEq), step_flat rfl (fun _ => rfl) rfl⟩
      · rename_i hQuote hBackslash
        cases h
        have hStep : ∀ opened, bracketStep (.string, opened) c = some (.string, opened) := by
          intro opened
          rw [bracketStep_string .string (by decide), Zone.next, if_neg hBackslash, if_neg hQuote]
        exact ⟨(fun hEq => by cases hEq), step_flat rfl hStep rfl⟩
  | escape begun inside =>
    simp only [feed] at h
    split at h
    · cases h
    · cases h
      have hStep : ∀ opened, bracketStep (.escape, opened) c = some (.string, opened) :=
        fun opened => bracketStep_string .escape (by decide) opened c
      exact ⟨(fun hEq => by cases hEq), step_flat rfl hStep rfl⟩

/-- A semicolon outside of comments and literals begins a comment. -/
theorem feed_semicolon (h : s.pending.isOutside) :
    ∃ s', s.feed ';' = .ok s' ∧ s'.pending = .comment ∧ s'.brackets = s.brackets := by
  have hWord : isWordChar ';' = false := by decide
  have hPictograph : beginsLikePictograph ';' = false := by decide
  have hEnter : ∀ s : Scanner, s.enter ';' = .ok (s.advance ';' .comment) := by
    intro s
    simp [enter, hWord, isSeparator]
  obtain ⟨position, pending, tokens⟩ := s
  cases pending with
  | gap => exact ⟨_, hEnter _, rfl, rfl⟩
  | word begun chars =>
    have hFeed : feed ⟨position, .word begun chars, tokens⟩ ';' =
        .ok ((emit ⟨position, .word begun chars, tokens⟩ begun (.ofWord chars.reverse)).advance
          ';' .comment) := by
      simp [feed, hWord, hPictograph, hEnter]
    exact ⟨_, hFeed, rfl, brackets_emit (TokenKind.deepen_ofWord chars.reverse) rfl begun⟩
  | comma begun => exact ⟨_, hEnter _, rfl, brackets_emit (fun _ => rfl) rfl begun⟩
  | _ => cases h

/-- A character within a comment. -/
theorem feed_comment (hPending : s.pending = .comment) (hEnd : endsComment c = false) :
    ∃ s', s.feed c = .ok s' ∧ s'.pending = .comment ∧ s'.brackets = s.brackets := by
  have hNot : ¬ (c = '\n' ∨ c = '\r') := by simpa [endsComment] using hEnd
  refine ⟨s.advance c .comment, ?_, rfl, brackets_eq rfl ?_⟩
  · rw [feed, hPending]
    exact if_neg hNot
  · rw [hPending]
    rfl

/-- The end of a line ends a comment. -/
theorem feed_endsComment (hPending : s.pending = .comment) (hEnd : endsComment c)
    (h : s.feed c = .ok s') :
    s'.pending ≠ .comment ∧ (s.brackets >>= fun state => bracketStep state c) = s'.brackets := by
  have hLine : c = '\n' ∨ c = '\r' := by simpa [endsComment] using hEnd
  have hComment : c ≠ ';' := by
    rintro rfl
    exact absurd hEnd (by decide)
  rw [feed, hPending] at h
  refine enter_brackets ?_ hComment ((if_pos hLine).symm.trans h)
  rw [hPending]
  rfl

/-- A comment that would do by itself leaves the brackets as they are. -/
theorem brackets_comment (hZone : s.pending.zone = .code)
    (h : checkBrackets (commentOf rest) = .complete) :
    (s.brackets >>= fun state => bracketsAfter state (';' :: rest)) =
      s.brackets >>= fun state => bracketsAfter state (afterComment rest) := by
  rw [brackets, hZone]
  cases depthAfter 0 s.tokens.reverse with
  | none => rfl
  | some depth =>
    have hSplit : commentOf rest ++ afterComment rest = rest := List.takeWhile_append_dropWhile
    have hComment := bracketsAfter_of_complete h (List.replicate depth '(')
    calc bracketsAfter (.code, List.replicate depth '(') rest
      _ = bracketsAfter (.code, List.replicate depth '(')
          (commentOf rest ++ afterComment rest) := by
        rw [hSplit]
      _ = bracketsAfter (.code, List.replicate depth '(') (afterComment rest) := by
        rw [bracketsAfter_append, hComment]
        rfl

theorem skip_nil : s.skip [] = [] := by
  unfold skip
  split <;> rfl

/-- Over a whole text, the console has seen what the scanner has, if every comment would
do by itself. -/
theorem feedAll_brackets (h : s.feedAll rest = .ok s')
    (hComments : ∀ comment ∈ s.comments rest, checkBrackets comment = .complete) :
    (s.brackets >>= fun state => bracketsAfter state (s.skip rest)) = s'.brackets := by
  -- What is left of a comment in hand has been dealt with where the comment began.
  induction rest generalizing s with
  | nil =>
    cases h
    rw [skip_nil]
    exact Option.bind_fun_some _
  | cons c rest ih =>
    rw [feedAll_cons] at h
    cases hFeed : s.feed c with
    | error e =>
      rw [hFeed] at h
      cases h
    | ok s₁ =>
      rw [hFeed] at h
      -- a character that both go past in step
      have hStep : s₁.pending ≠ .comment → s.skip (c :: rest) = c :: rest →
          (s.brackets >>= fun state => bracketStep state c) = s₁.brackets →
          (∀ comment ∈ s₁.comments rest, checkBrackets comment = .complete) →
          (s.brackets >>= fun state => bracketsAfter state (s.skip (c :: rest))) = s'.brackets := by
        intro hPending hSkip hStep hLater
        have hRest := ih h hLater
        rw [skip, if_neg hPending, ← hStep, bind_assoc] at hRest
        rw [hSkip]
        exact hRest
      by_cases hPending : s.pending = .comment
      · -- only the end of the line counts
        have hOutside : ¬ (c = ';' ∧ s.pending.isOutside) := by
          rw [hPending]
          exact fun hBegins => nomatch hBegins.2
        have hLater : ∀ comment ∈ s₁.comments rest, checkBrackets comment = .complete := by
          rw [comments, hFeed] at hComments
          simpa only [if_neg hOutside] using hComments
        by_cases hEnd : endsComment c
        · obtain ⟨hNot, hBrackets⟩ := feed_endsComment hPending hEnd hFeed
          refine hStep hNot ?_ hBrackets hLater
          rw [skip, if_pos hPending, afterComment, List.dropWhile_cons_of_neg (by simp [hEnd])]
        · have hEnd : endsComment c = false := Bool.eq_false_iff.mpr hEnd
          obtain ⟨s₂, hFeed', hComment, hBrackets⟩ := feed_comment hPending hEnd
          cases hFeed.symm.trans hFeed'
          have hRest := ih h hLater
          rw [skip, if_pos hComment, hBrackets] at hRest
          rw [skip, if_pos hPending, afterComment, List.dropWhile_cons_of_pos (by simp [hEnd])]
          exact hRest
      · have hSkip : s.skip (c :: rest) = c :: rest := if_neg hPending
        by_cases hBegins : c = ';' ∧ s.pending.isOutside
        · obtain ⟨rfl, hOutside⟩ := hBegins
          obtain ⟨s₂, hFeed', hComment, hBrackets⟩ := feed_semicolon hOutside
          cases hFeed.symm.trans hFeed'
          rw [comments, hFeed] at hComments
          simp only [hOutside, and_self, if_true, List.forall_mem_cons] at hComments
          have hRest := ih h hComments.2
          rw [skip, if_pos hComment, hBrackets] at hRest
          rw [hSkip, brackets_comment (Pending.zone_of_isOutside hOutside) hComments.1]
          exact hRest
        · obtain ⟨hNot, hBrackets⟩ := feed_brackets hPending hBegins hFeed
          refine hStep hNot hSkip hBrackets ?_
          rw [comments, hFeed] at hComments
          simpa only [if_neg hBegins] using hComments

/-- At the end of a text that is scanned, nothing but parentheses can be open. -/
theorem finish_brackets {tokens : List Token} (hText : (start 0).feedAll text = .ok s)
    (h : s.finish = .ok tokens) :
    s.brackets = (depthAfter 0 tokens).map fun depth => (.code, List.replicate depth '(') := by
  have hHeld : s.Held ([] ++ text) := Held.feedAll rfl trivial hText
  obtain ⟨position, pending, before⟩ := s
  cases pending with
  | gap | comment =>
    cases h
    rfl
  | word begun chars =>
    cases h
    exact (brackets_emit (TokenKind.deepen_ofWord chars.reverse) rfl begun).symm
  | comma begun =>
    cases h
    exact (brackets_emit (fun _ => rfl) rfl begun).symm
  | string begun inside =>
    -- the literal would have to be closed
    obtain ⟨opening, -, hInside⟩ := hHeld
    obtain ⟨fault, hFinish, -⟩ := finish_inside hInside position begun before
    rw [List.reverse_reverse] at hFinish
    cases h.symm.trans hFinish
  | escape begun inside => cases h

end Scanner

/-- The comments of a text, without their semicolons. -/
def comments (text : String) : List (List Char) := (Scanner.start 0).comments text.toList

/-- **Accepted inputs are complete.** What the reader accepts is not held back by the
console and not rejected, if the comments in it would do by themselves as inputs. -/
theorem accepted_inputs_complete {text : String} {ds : List Datum}
    (hParse : parseProgram text = .ok ds)
    (hComments : ∀ comment ∈ comments text, checkBrackets comment = .complete) :
    checkBrackets text.toList = .complete := by
  obtain ⟨tokens, hTokens, hData⟩ := parseProgram_eq_ok hParse
  have hDepth : depthAfter 0 tokens = some 0 := (parseAll_eq_ok_iff.mp hData).depthAfter_eq 0
  rw [tokenize, tokenizeAt] at hTokens
  cases hText : (Scanner.start 0).feedAll text.toList with
  | error e =>
    rw [hText] at hTokens
    cases hTokens
  | ok s =>
    rw [hText] at hTokens
    -- both go through the text in step, and data leave no parenthesis open
    have hBrackets := Scanner.feedAll_brackets hText hComments
    rw [Scanner.finish_brackets hText hTokens, hDepth] at hBrackets
    exact checkBracketsFrom_eq_complete_iff.mpr hBrackets

/-- In `(#t ; [b]` and a second line `")")` there is a comment, and a parenthesis in a string. -/
theorem accepted_inputs_complete_commented :
    (∃ ds, parseProgram "(#t ; [b]\n\")\")" = .ok ds) ∧
      (∀ comment ∈ comments "(#t ; [b]\n\")\")", checkBrackets comment = .complete) ∧
      checkBrackets "(#t ; [b]\n\")\")".toList = .complete := by
  obtain ⟨ds, hParse⟩ : ∃ ds, parseProgram "(#t ; [b]\n\")\")" = .ok ds := ⟨_, rfl⟩
  have hComments : ∀ comment ∈ comments "(#t ; [b]\n\")\")", checkBrackets comment = .complete := by
    decide
  exact ⟨⟨ds, hParse⟩, hComments, accepted_inputs_complete hParse hComments⟩

/-- The reader skips the comment of `#t ; (`, and the console counts its parenthesis. -/
theorem commented_input_held_back :
    (∃ ds, parseProgram "#t ; (" = .ok ds) ∧ checkBrackets "#t ; (".toList = .incomplete :=
  ⟨⟨_, rfl⟩, by decide⟩

end MiniScheme
