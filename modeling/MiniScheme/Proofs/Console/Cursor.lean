import MiniScheme.Proofs.Console.Accepted
import MiniScheme.Proofs.Console.Painting

/-!
# The pair at the cursor

When a bracket is closed by its partner, the cursor is looked for behind both of them. The
closing one is where the line has got to. The place that is remembered for the opening one
is counted in the painted line, which is wider than the line by the control sequences in it.
So the pair is blue with the cursor behind the closing bracket, and behind the opening one
too if no control sequence stands before that.

What decides that can be told from the text. Before a closing bracket the cursor has not
been passed, and so a pair that is blue already is no hindrance; literals and brackets that
do not fit each other are.

* `Partners` — a bracket and the one that closes it, whatever is open around them;
* `controlsWidth` — how much wider a painted line is than the line;
* `Highlighter.Fed`, `Upright.fed` — what a character can do to the cells;
* `Highlighter.opened_inside` — what was open around a nested text still is after it;
* `Highlighter.Settled` — the cells that no character to come can colour;
* `Unmarked` — a text in which nothing turns green or red;
* `cursor_pair_blue` — when a pair is blue.
-/

namespace MiniScheme.Console

/-! ## Pairs of brackets -/

/-- The zone after a text. -/
def zoneAfter (text : List Char) : Zone := text.foldl Zone.next .code

/-- The zone and the number of open brackets after a character, whatever the brackets are,
unless it is a bracket that closes none. -/
def nestingStep : Zone × Nat → Char → Option (Zone × Nat)
  | (zone, depth), c =>
    if zone = .code ∧ isOpening c then some (.code, depth + 1)
    else if zone = .code ∧ isClosing c then
      if depth = 0 then none else some (.code, depth - 1)
    else some (zone.next c, depth)

/-- The zone and the number of open brackets after a text. -/
def nestingAfter (state : Zone × Nat) (text : List Char) : Option (Zone × Nat) :=
  text.foldlM nestingStep state

/-- Outside of literals a bracket stands behind `before`, and is closed by its partner behind
`inside`: what is opened in between is closed there. -/
structure Partners (before : List Char) (opening : Char) (inside : List Char) (closing : Char) :
    Prop where
  code : zoneAfter before = .code
  isOpening : isOpening opening
  isClosing : isClosing closing
  closes : closes opening closing
  nested : nestingAfter (.code, 0) inside = some (.code, 0)

/-- Nothing in the text turns green or red: there is no quote in it, and every closing bracket
closes its partner. -/
def Unmarked (text : List Char) : Prop :=
  '"' ∉ text ∧ (bracketsAfter (.code, []) text).isSome

/-- The colour of the character at this place of a line. -/
def colourAt? (cursor : Nat) (line : List Char) (place : Nat) : Option Colour :=
  (highlightCells cursor line)[place]?.map Cell.colour

/-- The brackets at these places are shown as the pair at the cursor. -/
def BluePair (cursor : Nat) (line : List Char) (first last : Nat) : Prop :=
  colourAt? cursor line first = some .boldBlue ∧ colourAt? cursor line last = some .blue

/-- The brackets at these places are shown without colour. -/
def PlainPair (cursor : Nat) (line : List Char) (first last : Nat) : Prop :=
  colourAt? cursor line first = some .plain ∧ colourAt? cursor line last = some .plain

theorem zoneAfter_concat (text : List Char) (c : Char) :
    zoneAfter (text ++ [c]) = (zoneAfter text).next c := by
  rw [zoneAfter, List.foldl_append]
  rfl

/-- Only a quote leads out of code. -/
theorem zoneAfter_of_notMem {text : List Char} (h : '"' ∉ text) : zoneAfter text = .code := by
  induction text using List.reverseRecOn with
  | nil => rfl
  | append_singleton text c ih =>
    rw [List.mem_append, List.mem_singleton, not_or] at h
    rw [zoneAfter_concat, ih h.1, Zone.next, if_neg (Ne.symm h.2)]

theorem nestingAfter_concat (state : Zone × Nat) (text : List Char) (c : Char) :
    nestingAfter state (text ++ [c]) = (nestingAfter state text).bind fun s => nestingStep s c := by
  simp [nestingAfter, List.foldlM_append]

theorem bracketsAfter_concat (state : Zone × List Char) (text : List Char) (c : Char) :
    bracketsAfter state (text ++ [c]) =
      (bracketsAfter state text).bind fun s => bracketStep s c := by
  simp [bracketsAfter, List.foldlM_append]

theorem not_isOpening_of_isClosing {c : Char} (h : isClosing c) : ¬ isOpening c := by
  simp only [isClosing, Bool.or_eq_true, decide_eq_true_eq] at h
  obtain (rfl | rfl) | rfl := h <;> decide

/-- A bracket in code leaves one in code. -/
theorem Zone.next_bracket {c : Char} (h : Console.isOpening c ∨ Console.isClosing c) :
    Zone.code.next c = .code := by
  rw [Zone.next, if_neg]
  rintro rfl
  exact absurd h (by decide)

/-- What is no bracket in code changes at most the zone. -/
theorem bracketStep_flat {zone : Zone} {c : Char}
    (hFlat : ¬ (zone = .code ∧ (isOpening c ∨ isClosing c))) (opened : List Char) :
    bracketStep (zone, opened) c = some (zone.next c, opened) := by
  rw [bracketStep, if_neg fun hOpen => hFlat ⟨hOpen.1, .inl hOpen.2⟩,
    if_neg fun hClose => hFlat ⟨hClose.1, .inr hClose.2⟩]

/-- An opening bracket is the innermost one from then on. -/
theorem bracketStep_opening {c : Char} (hOpening : isOpening c) (opened : List Char) :
    bracketStep (.code, opened) c = some (.code, c :: opened) := by
  rw [bracketStep, if_pos ⟨rfl, hOpening⟩]

/-- A closing bracket asks for the innermost one. -/
theorem bracketStep_closing {c : Char} (hClosing : isClosing c) (opened : List Char) :
    bracketStep (.code, opened) c =
      (closeInnermost c opened).map fun outer => (.code, outer) := by
  rw [bracketStep, if_neg fun hOpen => not_isOpening_of_isClosing hClosing hOpen.2,
    if_pos ⟨rfl, hClosing⟩]

/-! ## Control sequences -/

/-- The bytes of the control sequences that switch a colour on and off. -/
def Colour.controls : Colour → Nat
  | plain => 0
  | green | blue | red => 9
  | boldBlue | boldRed => 11

/-- The bytes of the control sequences in a painted line. -/
def controlsWidth (cells : List Cell) : Nat :=
  cells.foldr (fun cell width => cell.colour.controls + width) 0

/-- A cell takes the bytes of its character and those of its control sequences. -/
theorem byteLength_cell (cell : Cell) :
    byteLength cell.text = cell.char.utf8Size + cell.colour.controls := by
  obtain ⟨c, colour⟩ := cell
  have hText (on off : List Char) :
      byteLength (on ++ c :: off) = c.utf8Size + (byteLength on + byteLength off) := by
    rw [byteLength_append, byteLength_cons]
    omega
  cases colour with
  | plain => rfl
  | green => exact hText "\x1b[32m".toList "\x1b[0m".toList
  | blue => exact hText "\x1b[34m".toList "\x1b[0m".toList
  | boldBlue => exact hText "\x1b[1;34m".toList "\x1b[0m".toList
  | red => exact hText "\x1b[31m".toList "\x1b[0m".toList
  | boldRed => exact hText "\x1b[1;31m".toList "\x1b[0m".toList

theorem controlsWidth_cons (cell : Cell) (cells : List Cell) :
    controlsWidth (cell :: cells) = cell.colour.controls + controlsWidth cells := rfl

/-- The widths of the control sequences add up. -/
theorem controlsWidth_append (cells more : List Cell) :
    controlsWidth (cells ++ more) = controlsWidth cells + controlsWidth more := by
  induction cells with
  | nil => exact (Nat.zero_add _).symm
  | cons cell cells ih =>
    rw [List.cons_append, controlsWidth_cons, controlsWidth_cons, ih, Nat.add_assoc]

theorem controlsWidth_paint (cells : List Cell) (c : Char) (colour : Colour) :
    controlsWidth (cells ++ [⟨c, colour⟩]) = controlsWidth cells + colour.controls :=
  controlsWidth_append cells [⟨c, colour⟩]

theorem controlsWidth_take_le (n : Nat) (cells : List Cell) :
    controlsWidth (cells.take n) ≤ controlsWidth cells := by
  conv => rhs; rw [← List.take_append_drop n cells]
  rw [controlsWidth_append]
  exact Nat.le_add_right _ _

/-- Where every character is one byte, a painted line is as wide as the line and the control
sequences. -/
theorem cellsWidth_eq {cells : List Cell} (hOne : ∀ cell ∈ cells, cell.char.utf8Size = 1) :
    cellsWidth cells = cells.length + controlsWidth cells := by
  induction cells with
  | nil => rfl
  | cons cell cells ih =>
    obtain ⟨hFirst, hRest⟩ := List.forall_mem_cons.mp hOne
    have hTail := ih hRest
    rw [cellsWidth, renderCells, List.flatMap_cons, byteLength_append, byteLength_cell, hFirst,
      ← renderCells, ← cellsWidth, hTail, controlsWidth_cons, List.length_cons]
    omega

/-- An open bracket is plain as it stands. -/
theorem OpenBracket.Stands.set_plain {o : OpenBracket} {cells : List Cell} (h : o.Stands cells) :
    cells.set o.cell ⟨o.bracket, .plain⟩ = cells := by
  obtain ⟨hLength, hShown⟩ := List.getElem?_eq_some_iff.mp h.shown
  rw [← hShown, List.set_getElem_self]

/-- A bracket without colour is given one. -/
theorem OpenBracket.Stands.controlsWidth_set {o : OpenBracket} {cells : List Cell}
    (h : o.Stands cells) (colour : Colour) :
    controlsWidth (cells.set o.cell ⟨o.bracket, colour⟩) =
      controlsWidth cells + colour.controls := by
  obtain ⟨hLength, hShown⟩ := List.getElem?_eq_some_iff.mp h.shown
  have hPlain : controlsWidth cells = controlsWidth (cells.take o.cell) +
      controlsWidth (cells.drop (o.cell + 1)) := by
    conv =>
      lhs
      rw [← List.take_append_drop o.cell cells, List.drop_eq_getElem_cons hLength, hShown]
    rw [controlsWidth_append, controlsWidth_cons, Colour.controls, Nat.zero_add]
  rw [hPlain, List.set_eq_take_append_cons_drop, if_pos h.lt_length, controlsWidth_append,
    controlsWidth_cons]
  dsimp only
  omega

namespace Highlighter

variable {h h' : Highlighter} {cursor : Nat} {c : Char} {opening : OpenBracket}
  {outer : List OpenBracket}

/-! ## One character -/

/-- The colours of an open bracket and of the bracket that closes it. -/
def pairColours (cursor : Nat) (h : Highlighter) (opening : OpenBracket) (c : Char) :
    Colour × Colour :=
  if closes opening.bracket c then
    if opening.width + 1 = cursor ∨ h.cells.length + 1 = cursor then (.boldBlue, .blue)
    else (.plain, .plain)
  else (.boldRed, .red)

/-- What a character does: it is painted, and if it closes an open bracket that gets its colour
as well. -/
inductive Fed (cursor : Nat) (h : Highlighter) (c : Char) : Highlighter → Prop
  | flat (hFlat : ¬ (h.zone = .code ∧ (isOpening c ∨ isClosing c))) :
      Fed cursor h c { h.paint c (if h.zone = .code ∧ c ≠ '"' then .plain else .green) with
        zone := h.zone.next c }
  | opening (hZone : h.zone = .code) (hOpening : isOpening c) : Fed cursor h c (h.enter c)
  | stray (hZone : h.zone = .code) (hClosing : isClosing c) (hNone : h.opened = []) :
      Fed cursor h c (h.paint c .red)
  | closing {opening : OpenBracket} {outer : List OpenBracket} (hZone : h.zone = .code)
      (hClosing : isClosing c) (hOpened : h.opened = opening :: outer) :
      Fed cursor h c
        (({ h with opened := outer }.paint c (pairColours cursor h opening c).2).repaint
          opening (pairColours cursor h opening c).1)

/-- Without a colour for the pair, the cell of the opening bracket stays as it is. -/
theorem fed_closing (hStands : opening.Stands h.cells) (hZone : h.zone = .code)
    (hClosing : isClosing c) (hOpened : h.opened = opening :: outer) (cursor : Nat) :
    Fed cursor h c (h.leave cursor c) := by
  have hFed : Fed cursor h c _ := .closing hZone hClosing hOpened
  have hPainted : opening.Stands ({ h with opened := outer }.paint c .plain).cells :=
    hStands.append _
  rw [Highlighter.leave, hOpened]
  unfold pairColours at hFed
  dsimp only
  -- the bracket closes the innermost one, and then the cursor may be at one of them
  split
  · rename_i hCloses
    rw [if_pos hCloses] at hFed
    split
    · rename_i hCursor
      rw [if_pos hCursor] at hFed
      exact hFed
    · rename_i hCursor
      rw [if_neg hCursor, repaint, hPainted.set_plain] at hFed
      exact hFed
  · rename_i hCloses
    rw [if_neg hCloses] at hFed
    exact hFed

/-- A character is written, opens a bracket, or closes the innermost one, which is then
painted. -/
theorem Upright.fed (hUp : h.Upright) (cursor : Nat) (c : Char) :
    Fed cursor h c (h.feed cursor c) := by
  rw [Highlighter.feed]
  -- Code and the two other zones; in code there are brackets, quotes and the rest.
  split
  · rename_i hZone
    split
    · rename_i hOpening
      exact .opening hZone hOpening
    · rename_i hOpening
      split
      · rename_i hClosing
        cases hOpened : h.opened with
        | nil =>
          rw [Highlighter.leave, hOpened]
          exact .stray hZone hClosing hOpened
        | cons opening outer =>
          exact fed_closing (hUp.stands opening (hOpened ▸ List.mem_cons_self)) hZone hClosing
            hOpened cursor
      · rename_i hClosing
        have hFed : Fed cursor h c _ := .flat fun hBracket => hBracket.2.elim hOpening hClosing
        split
        · rename_i hQuote
          rw [if_neg fun hCode => hCode.2 hQuote, hZone, Zone.next, if_pos hQuote] at hFed
          exact hFed
        · rename_i hQuote
          rw [if_pos ⟨hZone, hQuote⟩, hZone, Zone.next, if_neg hQuote, ← hZone] at hFed
          exact hFed
  · rename_i hZone
    have hFed : Fed cursor h c _ := .flat fun hBracket => hZone hBracket.1
    rw [if_neg fun hCode => hZone hCode.1] at hFed
    exact hFed

/-- The zone of the highlighter is that of the console. -/
theorem Upright.zone_feed (hUp : h.Upright) (cursor : Nat) (c : Char) :
    (h.feed cursor c).zone = h.zone.next c := by
  have hFed := hUp.fed cursor c
  generalize h.feed cursor c = next at hFed ⊢
  cases hFed with
  | flat hFlat => rfl
  | opening hZone hOpening =>
    have hNext : h.zone.next c = .code := by rw [hZone, Zone.next_bracket (.inl hOpening)]
    exact hZone.trans hNext.symm
  | stray hZone hClosing hNone | closing hZone hClosing hOpened =>
    have hNext : h.zone.next c = .code := by rw [hZone, Zone.next_bracket (.inr hClosing)]
    exact hZone.trans hNext.symm

/-- The highlighter keeps the zone as the console does. -/
theorem zone_after (cursor : Nat) (line : List Char) :
    (after cursor line).zone = zoneAfter line := by
  induction line using List.reverseRecOn with
  | nil => rfl
  | append_singleton line c ih =>
    rw [after_concat, (upright_after cursor line).zone_feed, ih, zoneAfter_concat]

theorem length_after (cursor : Nat) (line : List Char) :
    (after cursor line).cells.length = line.length := by
  rw [← List.length_map (f := Cell.char), map_char_after]

/-! ## Between two brackets -/

/-- The bracket that is entered behind a text. -/
def entered (cursor : Nat) (before : List Char) (bracket : Char) : OpenBracket :=
  ⟨bracket, before.length, cellsWidth (after cursor before).cells⟩

/-- What has been opened in a text stands before the bracket that was entered before it, and that
bracket before those around it. -/
theorem opened_inside {before inside : List Char} {bracket : Char} {zone : Zone} {depth : Nat}
    (cursor : Nat) (hCode : zoneAfter before = .code) (hOpening : isOpening bracket)
    (hNested : nestingAfter (.code, 0) inside = some (zone, depth)) :
    (after cursor (before ++ bracket :: inside)).zone = zone ∧
    ∃ inner, (after cursor (before ++ bracket :: inside)).opened =
      inner ++ entered cursor before bracket :: (after cursor before).opened ∧
      inner.length = depth := by
  -- Backwards, as the line is painted: what has been read of the inside has opened so many
  -- brackets.
  induction inside using List.reverseRecOn generalizing zone depth with
  | nil =>
    cases hNested
    have hZone : (after cursor before).zone = .code := (zone_after cursor before).trans hCode
    have hFeed : (after cursor before).feed cursor bracket =
        (after cursor before).enter bracket := by
      rw [Highlighter.feed, hZone]
      exact if_pos hOpening
    rw [after_concat, hFeed]
    refine ⟨hZone, [], ?_, rfl⟩
    rw [entered, ← length_after cursor before]
    rfl
  | append_singleton inside c ih =>
    rw [nestingAfter_concat] at hNested
    obtain ⟨⟨zone', depth'⟩, hBefore, hStep⟩ := Option.bind_eq_some_iff.mp hNested
    obtain ⟨hZone', inner, hOpened, rfl⟩ := ih hBefore
    have hUp := upright_after cursor (before ++ bracket :: inside)
    rw [← List.cons_append, ← List.append_assoc, after_concat]
    generalize after cursor (before ++ bracket :: inside) = h at hZone' hOpened hUp ⊢
    subst hZone'
    have hFed := hUp.fed cursor c
    generalize h.feed cursor c = next at hFed ⊢
    replace hStep : nestingStep (h.zone, inner.length) c = some (zone, depth) := hStep
    rw [nestingStep] at hStep
    -- The nesting counts each bracket as the painter takes it, and never gets below the outer one.
    cases hFed with
    | flat hFlat =>
      rw [if_neg fun hOpen => hFlat ⟨hOpen.1, .inl hOpen.2⟩,
        if_neg fun hClose => hFlat ⟨hClose.1, .inr hClose.2⟩] at hStep
      cases hStep
      exact ⟨rfl, inner, hOpened, rfl⟩
    | opening hCode hOpening =>
      rw [if_pos ⟨hCode, hOpening⟩] at hStep
      cases hStep
      exact ⟨hCode, _ :: inner, congrArg _ hOpened, rfl⟩
    | stray hCode hClosing hNone =>
      rw [hNone] at hOpened
      cases inner <;> cases hOpened
    | @closing opening outer hCode hClosing hInnermost =>
      rw [if_neg fun hOpen => not_isOpening_of_isClosing hClosing hOpen.2,
        if_pos ⟨hCode, hClosing⟩] at hStep
      cases inner with
      | nil => cases hStep
      | cons innermost inner =>
        cases hStep
        rw [hInnermost] at hOpened
        exact ⟨hCode, inner, (List.cons.inj hOpened).2, rfl⟩

/-! ## What no longer changes -/

/-- The cell has been painted, and it is not that of an open bracket. -/
structure Settled (h : Highlighter) (place : Nat) : Prop where
  painted : place < h.cells.length
  notOpened : ∀ o ∈ h.opened, o.cell ≠ place

variable {place : Nat}

/-- No character changes what is settled. -/
theorem Settled.feed (hSettled : h.Settled place) (hUp : h.Upright) (cursor : Nat) (c : Char) :
    (h.feed cursor c).Settled place ∧ (h.feed cursor c).cells[place]? = h.cells[place]? := by
  have hLonger : place < h.cells.length + 1 := Nat.lt_succ_of_lt hSettled.painted
  have hPaint (colour : Colour) : (h.cells ++ [⟨c, colour⟩])[place]? = h.cells[place]? :=
    List.getElem?_append_left hSettled.painted
  have hFed := hUp.fed cursor c
  generalize h.feed cursor c = next at hFed ⊢
  -- Only a closing bracket paints a cell over, and that is where the innermost open one stands.
  cases hFed with
  | flat hFlat =>
    refine ⟨⟨?_, hSettled.notOpened⟩, hPaint _⟩
    simpa [Highlighter.paint] using hLonger
  | opening hZone hOpening =>
    refine ⟨⟨?_, ?_⟩, hPaint _⟩
    · simpa [Highlighter.enter, Highlighter.paint] using hLonger
    · intro o ho
      obtain rfl | ho := List.mem_cons.mp ho
      · exact Nat.ne_of_gt hSettled.painted
      · exact hSettled.notOpened o ho
  | stray hZone hClosing hNone =>
    refine ⟨⟨?_, hSettled.notOpened⟩, hPaint _⟩
    simpa [Highlighter.paint] using hLonger
  | @closing opening outer hZone hClosing hOpened =>
    have hElsewhere : opening.cell ≠ place :=
      hSettled.notOpened opening (hOpened ▸ List.mem_cons_self)
    refine ⟨⟨?_, fun o ho => hSettled.notOpened o (hOpened ▸ List.mem_cons_of_mem opening ho)⟩, ?_⟩
    · simpa [Highlighter.paint, Highlighter.repaint] using hLonger
    · exact (List.getElem?_set_ne hElsewhere).trans (hPaint _)

/-- A cell that is settled keeps its colour, whatever is typed behind it. -/
theorem Settled.after {cursor : Nat} {typed : List Char}
    (hSettled : (after cursor typed).Settled place) (rest : List Char) :
    (Highlighter.after cursor (typed ++ rest)).Settled place ∧
      (Highlighter.after cursor (typed ++ rest)).cells[place]? =
        (Highlighter.after cursor typed).cells[place]? := by
  induction rest using List.reverseRecOn with
  | nil =>
    rw [List.append_nil]
    exact ⟨hSettled, rfl⟩
  | append_singleton rest c ih =>
    rw [← List.append_assoc, after_concat]
    obtain ⟨hStays, hSame⟩ := ih
    obtain ⟨hNext, hCell⟩ := hStays.feed (upright_after cursor (typed ++ rest)) cursor c
    exact ⟨hNext, hCell.trans hSame⟩

/-! ## The colours of a pair -/

/-- A closing bracket takes the innermost one off, and both get the colours of the pair. -/
theorem Upright.feed_closing (hUp : h.Upright) (hZone : h.zone = .code) (hClosing : isClosing c)
    (hOpened : h.opened = opening :: outer) (cursor : Nat) :
    h.feed cursor c =
      ({ h with opened := outer }.paint c (pairColours cursor h opening c).2).repaint
        opening (pairColours cursor h opening c).1 := by
  have hFed := hUp.fed cursor c
  generalize h.feed cursor c = next at hFed ⊢
  cases hFed with
  | flat hFlat => exact absurd ⟨hZone, .inr hClosing⟩ hFlat
  | opening _ hOpening => exact absurd hOpening (not_isOpening_of_isClosing hClosing)
  | stray _ _ hNone =>
    rw [hNone] at hOpened
    cases hOpened
  | closing _ _ hInnermost =>
    rw [hInnermost] at hOpened
    cases hOpened
    rfl

/-- The colours that a pair gets when it is closed are those it has in the whole line. -/
theorem colourAt?_partners {before inside : List Char} {bracket : Char}
    (hPair : Partners before bracket inside c) (cursor : Nat) (behind : List Char) :
    let colours := pairColours cursor (after cursor (before ++ bracket :: inside))
      (entered cursor before bracket) c
    let line := before ++ bracket :: (inside ++ c :: behind)
    colourAt? cursor line before.length = some colours.1 ∧
      colourAt? cursor line (before.length + 1 + inside.length) = some colours.2 := by
  intro colours line
  obtain ⟨hZone, inner, hOpened, hInner⟩ :=
    opened_inside cursor hPair.code hPair.isOpening hPair.nested
  rw [List.eq_nil_of_length_eq_zero hInner, List.nil_append] at hOpened
  have hUp := upright_after cursor (before ++ bracket :: inside)
  have hLength := length_after cursor (before ++ bracket :: inside)
  rw [List.length_append, List.length_cons] at hLength
  have hLine : line = before ++ bracket :: inside ++ [c] ++ behind := by simp [line]
  have hClosed := hUp.feed_closing hZone hPair.isClosing hOpened cursor
  rw [← after_concat] at hClosed
  -- neither of the two brackets is open any more
  have hSettled (place : Nat) (hFirst : before.length ≤ place)
      (hLast : place ≤ before.length + 1 + inside.length) :
      (after cursor (before ++ bracket :: inside ++ [c])).Settled place := by
    constructor
    · rw [length_after]
      simp only [List.length_append, List.length_cons, List.length_nil]
      omega
    · intro o ho
      rw [hClosed] at ho
      have hOuter := ((upright_after cursor before).stands o ho).lt_length
      rw [length_after] at hOuter
      omega
  have hCell (place : Nat) (hFirst : before.length ≤ place)
      (hLast : place ≤ before.length + 1 + inside.length) :
      colourAt? cursor line place = (List.set ((after cursor (before ++ bracket :: inside)).cells ++
        [⟨c, colours.2⟩]) before.length ⟨bracket, colours.1⟩)[place]?.map Cell.colour := by
    have hSame := ((hSettled place hFirst hLast).after behind).2
    rw [hClosed] at hSame
    rw [colourAt?, hLine]
    exact congrArg _ hSame
  constructor
  · rw [hCell _ (Nat.le_refl _) (by omega), List.getElem?_set_self]
    · rfl
    · rw [List.length_append, hLength]
      omega
  · have hPlace : before.length + 1 + inside.length =
        (after cursor (before ++ bracket :: inside)).cells.length := by omega
    rw [hCell _ (by omega) (Nat.le_refl _), List.getElem?_set_ne (by omega), hPlace,
      List.getElem?_concat_length]
    rfl

/-! ## What has been coloured before -/

/-- In a line of one-byte characters every cell holds such a character. -/
theorem char_size_after {line : List Char} (hOne : ∀ c ∈ line, c.utf8Size = 1) (cursor : Nat) :
    ∀ cell ∈ (after cursor line).cells, cell.char.utf8Size = 1 := by
  intro cell hCell
  have hChar : cell.char ∈ (after cursor line).cells.map Cell.char := List.mem_map_of_mem hCell
  rw [map_char_after] at hChar
  exact hOne cell.char hChar

/-- Without brackets that do not fit, those that are open are the ones that the console counts. -/
theorem opened_of_bracketsAfter (cursor : Nat) {text : List Char} {zone : Zone} {opened : List Char}
    (hBrackets : bracketsAfter (.code, []) text = some (zone, opened)) :
    zoneAfter text = zone ∧ (after cursor text).opened.map OpenBracket.bracket = opened := by
  -- Backwards, as the line is painted; each character is a bracket for both or for neither.
  induction text using List.reverseRecOn generalizing zone opened with
  | nil =>
    cases hBrackets
    exact ⟨rfl, rfl⟩
  | append_singleton text c ih =>
    rw [bracketsAfter_concat] at hBrackets
    obtain ⟨⟨zone', opened'⟩, hBefore, hStep⟩ := Option.bind_eq_some_iff.mp hBrackets
    replace hStep : bracketStep (zone', opened') c = some (zone, opened) := hStep
    obtain ⟨hZone, rfl⟩ := ih hBefore
    have hUp := upright_after cursor text
    rw [← zone_after cursor, after_concat]
    rw [← zone_after cursor] at hZone
    have hFed := hUp.fed cursor c
    generalize (after cursor text).feed cursor c = next at hFed ⊢
    generalize after cursor text = h at hZone hUp hFed hStep
    subst hZone
    cases hFed with
    | flat hFlat =>
      rw [bracketStep_flat hFlat] at hStep
      cases hStep
      exact ⟨rfl, rfl⟩
    | opening hCode hOpening =>
      rw [hCode, bracketStep_opening hOpening] at hStep
      cases hStep
      exact ⟨hCode, rfl⟩
    | stray hCode hClosing hNone =>
      rw [hCode, bracketStep_closing hClosing, hNone] at hStep
      cases hStep
    | @closing opening outer hCode hClosing hInnermost =>
      rw [hCode, bracketStep_closing hClosing, hInnermost, List.map_cons, closeInnermost] at hStep
      split at hStep
      · cases hStep
        exact ⟨hCode, rfl⟩
      · cases hStep

/-- Closing a pair adds the control sequences of both its brackets. -/
theorem controlsWidth_close (hStands : opening.Stands h.cells) (outer : List OpenBracket) (c : Char)
    (colour colour' : Colour) :
    controlsWidth (({ h with opened := outer }.paint c colour).repaint opening colour').cells =
      controlsWidth h.cells + colour.controls + colour'.controls := by
  have hWidth := (hStands.append [⟨c, colour⟩]).controlsWidth_set colour'
  rw [controlsWidth_paint] at hWidth
  exact hWidth

/-- Nothing that has been coloured is ever without colour again, and a quote or a bracket that
does not fit adds to it. -/
theorem Upright.controlsWidth_feed (hUp : h.Upright) (cursor : Nat) (c : Char) :
    controlsWidth h.cells ≤ controlsWidth (h.feed cursor c).cells ∧
    (c = '"' ∨ bracketStep (h.zone, h.opened.map OpenBracket.bracket) c = none →
      controlsWidth h.cells < controlsWidth (h.feed cursor c).cells) := by
  have hFed := hUp.fed cursor c
  generalize h.feed cursor c = next at hFed ⊢
  -- Whatever is not plain adds control sequences; a closing bracket may also paint the one that it
  -- closes.
  cases hFed with
  | flat hFlat =>
    show _ ≤ controlsWidth (h.cells ++ [⟨c, _⟩]) ∧ (_ → _ < controlsWidth (h.cells ++ [⟨c, _⟩]))
    rw [controlsWidth_paint]
    refine ⟨Nat.le_add_right _ _, ?_⟩
    rintro (hQuote | hNone)
    · rw [if_neg fun hCode => hCode.2 hQuote]
      exact Nat.lt_add_of_pos_right (by decide)
    · rw [bracketStep_flat hFlat] at hNone
      cases hNone
  | opening hZone hOpening =>
    show _ ≤ controlsWidth (h.cells ++ [⟨c, _⟩]) ∧ (_ → _ < controlsWidth (h.cells ++ [⟨c, _⟩]))
    rw [controlsWidth_paint]
    refine ⟨Nat.le_add_right _ _, ?_⟩
    rintro (rfl | hNone)
    · exact absurd hOpening (by decide)
    · rw [hZone, bracketStep_opening hOpening] at hNone
      cases hNone
  | stray hZone hClosing hNone =>
    show _ ≤ controlsWidth (h.cells ++ [⟨c, _⟩]) ∧ (_ → _ < controlsWidth (h.cells ++ [⟨c, _⟩]))
    rw [controlsWidth_paint]
    exact ⟨Nat.le_add_right _ _, fun _ => Nat.lt_add_of_pos_right (by decide)⟩
  | @closing opening outer hZone hClosing hOpened =>
    rw [controlsWidth_close (hUp.stands opening (hOpened ▸ List.mem_cons_self))]
    refine ⟨by omega, ?_⟩
    rintro (rfl | hNone)
    · exact absurd hClosing (by decide)
    · rw [hZone, bracketStep_closing hClosing, hOpened, List.map_cons, closeInnermost] at hNone
      by_cases hCloses : closes opening.bracket c
      · rw [if_pos hCloses] at hNone
        cases hNone
      · rw [pairColours, if_neg hCloses]
        simp only [Colour.controls]
        omega

/-- A quote or a bracket that does not fit leaves a control sequence in the painted line. -/
theorem controlsWidth_pos {text : List Char} (hMarked : ¬ Unmarked text) (cursor : Nat) :
    0 < controlsWidth (after cursor text).cells := by
  induction text using List.reverseRecOn with
  | nil => exact absurd ⟨List.not_mem_nil, rfl⟩ hMarked
  | append_singleton text c ih =>
    have hUp := upright_after cursor text
    obtain ⟨hGrows, hMore⟩ := hUp.controlsWidth_feed cursor c
    rw [after_concat]
    -- The line before the last character may already have been marked.
    by_cases hBefore : Unmarked text
    · -- then it is the last character that is marked
      obtain ⟨hQuotes, hBrackets⟩ := hBefore
      obtain ⟨⟨zone, opened⟩, hSome⟩ := Option.isSome_iff_exists.mp hBrackets
      obtain ⟨hZone, hOpened⟩ := opened_of_bracketsAfter cursor hSome
      rw [zone_after, hZone, hOpened] at hMore
      refine Nat.lt_of_le_of_lt (Nat.zero_le _) (hMore ?_)
      by_contra hNot
      obtain ⟨hQuote, hStep⟩ := not_or.mp hNot
      refine hMarked ⟨?_, ?_⟩
      · rw [List.mem_append, List.mem_singleton, not_or]
        exact ⟨hQuotes, Ne.symm hQuote⟩
      · rw [bracketsAfter_concat, hSome]
        exact Option.isSome_iff_ne_none.mpr hStep
    · exact Nat.lt_of_lt_of_le (ih hBefore) hGrows

/-- In a text in which nothing turns green or red there is no control sequence, or the cursor has
been passed. -/
theorem controlsWidth_unmarked {text : List Char} (hUnmarked : Unmarked text)
    (hOne : ∀ c ∈ text, c.utf8Size = 1) (cursor : Nat) :
    controlsWidth (after cursor text).cells = 0 ∨ cursor ≤ text.length := by
  -- As long as nothing is coloured, places in the line and in the coloured text are the same.
  induction text using List.reverseRecOn with
  | nil => exact .inl rfl
  | append_singleton text c ih =>
    obtain ⟨hQuotes, hBrackets⟩ := hUnmarked
    rw [List.mem_append, List.mem_singleton, not_or] at hQuotes
    rw [bracketsAfter_concat, Option.isSome_bind, Option.any_eq_true] at hBrackets
    obtain ⟨⟨zone, opened⟩, hSome, hStep⟩ := hBrackets
    have hText : ∀ c ∈ text, c.utf8Size = 1 := fun d hd => hOne d (List.mem_append_left _ hd)
    have hBefore := ih ⟨hQuotes.1, Option.isSome_iff_exists.mpr ⟨_, hSome⟩⟩ hText
    obtain ⟨hZone, hOpened⟩ := opened_of_bracketsAfter cursor hSome
    have hCode : (after cursor text).zone = .code :=
      (zone_after cursor text).trans (zoneAfter_of_notMem hQuotes.1)
    have hUp := upright_after cursor text
    have hChars := char_size_after hText cursor
    have hFed := hUp.fed cursor c
    have hLength := length_after cursor text
    rw [after_concat, List.length_append, List.length_singleton]
    generalize (after cursor text).feed cursor c = next at hFed ⊢
    generalize after cursor text = h at hUp hFed hOpened hCode hBefore hChars hLength
    cases hFed with
    | flat hFlat =>
      show controlsWidth (h.cells ++ [⟨c, _⟩]) = 0 ∨ _
      rw [controlsWidth_paint, if_pos ⟨hCode, Ne.symm hQuotes.2⟩]
      exact hBefore.imp_right Nat.le_succ_of_le
    | opening _ hOpening =>
      show controlsWidth (h.cells ++ [⟨c, _⟩]) = 0 ∨ _
      rw [controlsWidth_paint]
      exact hBefore.imp_right Nat.le_succ_of_le
    | stray _ hClosing hNone =>
      rw [← hOpened, hNone, ← hZone, zoneAfter_of_notMem hQuotes.1,
        bracketStep_closing hClosing] at hStep
      cases hStep
    | @closing opening outer _ hClosing hInnermost =>
      have hStands := hUp.stands opening (hInnermost ▸ List.mem_cons_self)
      have hCloses : closes opening.bracket c := by
        rw [← hOpened, hInnermost, ← hZone, zoneAfter_of_notMem hQuotes.1,
          bracketStep_closing hClosing, List.map_cons, closeInnermost] at hStep
        by_contra hNot
        rw [if_neg hNot] at hStep
        cases hStep
      rw [controlsWidth_close hStands, pairColours, if_pos hCloses]
      split
      · rename_i hCursor
        refine .inr ?_
        obtain hNothing | hPassed := hBefore
        · obtain hFirst | hLast := hCursor
          · -- with nothing coloured, the bracket has been painted at its place in the line
            have hWidth : cellsWidth (h.cells.take opening.cell) = _ :=
              cellsWidth_eq fun cell hCell => hChars cell (List.mem_of_mem_take hCell)
            have hNarrow := controlsWidth_take_le opening.cell h.cells
            have hPlace := hStands.lt_length
            rw [← hStands.width_eq, List.length_take] at hWidth
            omega
          · omega
        · exact Nat.le_succ_of_le hPassed
      · exact hBefore.imp_right Nat.le_succ_of_le

end Highlighter

/-! ## The pair at the cursor -/

open Highlighter in
/-- **A pair is blue with the cursor behind its closing bracket, and with the cursor as far behind
its opening bracket as the control sequences before that are wide.** At any other cursor it has no
colour. Without quotes and brackets that do not fit before the pair, the second place is the one
behind its opening bracket; with any of them, the pair is not blue there. -/
theorem cursor_pair_blue {before inside : List Char} {opening closing : Char}
    (hAscii : ∀ c ∈ before, c.utf8Size = 1) (hPair : Partners before opening inside closing)
    (behind : List Char) :
    let line := before ++ opening :: (inside ++ closing :: behind)
    let first := before.length
    let last := before.length + 1 + inside.length
    (∀ cursor,
      (BluePair cursor line first last ↔
        cursor = last + 1 ∨ cursor = first + 1 + controlsWidth (highlightCells cursor before)) ∧
      (¬ BluePair cursor line first last → PlainPair cursor line first last)) ∧
    (Unmarked before → ∀ cursor,
      (BluePair cursor line first last ↔ cursor = last + 1 ∨ cursor = first + 1)) ∧
    (¬ Unmarked before → ¬ BluePair (first + 1) line first last) := by
  intro line first last
  have hColours (cursor : Nat) :
      (BluePair cursor line first last ↔
        cursor = last + 1 ∨ cursor = first + 1 + controlsWidth (highlightCells cursor before)) ∧
      (¬ BluePair cursor line first last → PlainPair cursor line first last) := by
    obtain ⟨hFirst, hLast⟩ := colourAt?_partners hPair cursor behind
    have hInside : (after cursor (before ++ opening :: inside)).cells.length = last := by
      rw [length_after, List.length_append, List.length_cons]
      show before.length + (inside.length + 1) = before.length + 1 + inside.length
      omega
    have hWidth : (entered cursor before opening).width =
        first + controlsWidth (highlightCells cursor before) := by
      show cellsWidth (after cursor before).cells = _
      rw [cellsWidth_eq (char_size_after hAscii cursor), length_after]
      rfl
    have hCloses : closes (entered cursor before opening).bracket closing := hPair.closes
    rw [pairColours, if_pos hCloses, hInside, hWidth] at hFirst hLast
    rw [BluePair, PlainPair, hFirst, hLast]
    split
    · rename_i hCursor
      exact ⟨iff_of_true ⟨rfl, rfl⟩ (by omega), fun hNot => absurd ⟨rfl, rfl⟩ hNot⟩
    · rename_i hCursor
      exact ⟨iff_of_false (fun hBlue => nomatch hBlue.1) (by omega), fun _ => ⟨rfl, rfl⟩⟩
  refine ⟨hColours, fun hUnmarked cursor => (hColours cursor).1.trans ?_, fun hMarked => ?_⟩
  · obtain hNothing | hPassed := controlsWidth_unmarked hUnmarked hAscii cursor
    · rw [show controlsWidth (highlightCells cursor before) = 0 from hNothing, Nat.add_zero]
    · -- neither of the two is possible before the pair
      constructor <;> intro hCursor <;> omega
  · rw [(hColours (first + 1)).1]
    have hWider : 0 < controlsWidth (highlightCells (first + 1) before) :=
      controlsWidth_pos hMarked _
    omega

/-- In `(a) (b)` the second pair is blue in two places of the cursor. They are seen four bytes
later than they are, as the first pair has been coloured before. -/
theorem cursor_pair_blue_second_call :
    (∀ c ∈ "(a) ".toList, c.utf8Size = 1) ∧ Partners "(a) ".toList '(' "b".toList ')' ∧
      ∀ cursor, BluePair cursor "(a) (b)".toList 4 6 ↔ cursor = 7 ∨ cursor = 5 :=
  have hAscii : ∀ c ∈ "(a) ".toList, c.utf8Size = 1 :=
    byteLength_eq_length_iff.mp (by decide)
  have hPair : Partners "(a) ".toList '(' "b".toList ')' :=
    ⟨by decide, by decide, by decide, by decide, by decide⟩
  ⟨hAscii, hPair, (cursor_pair_blue hAscii hPair []).2.1 ⟨by decide, by decide⟩⟩

/-- Behind a literal a pair is not found from its opening bracket. -/
theorem pair_behind_literal_plain :
    Partners "\"a\"".toList '(' [] ')' ∧ ¬ BluePair 4 "\"a\"()".toList 3 4 ∧
      PlainPair 4 "\"a\"()".toList 3 4 := by
  refine ⟨⟨by decide, by decide, by decide, by decide, by decide⟩, ?_, ?_⟩
  · rw [BluePair]
    decide
  · rw [PlainPair]
    decide

end MiniScheme.Console
