import MiniScheme.Console.Highlight
import MiniScheme.Proofs.Token.Unclosed
import Mathlib.Data.List.Induction

/-!
# The painted line

The highlighter is a row of cells here. The console has only the painted line, a text
with control sequences in it, and it remembers an open bracket by the byte of that text
where it was written. When the bracket is closed, that byte may be exchanged for a
coloured bracket, which is longer, while the places of other open brackets are still
remembered.

They stay right because the brackets that are still open then stand further to the left.
So what is invariant is, for every open bracket, that its cell shows it without colour and
that the cells before it are as wide as they were; and that an open bracket stands to the
left of those that were opened in it.

* `uncoloured` — a text without its control sequences;
* `replaceByte?`, `Painter` — the painted line, as the console goes about it;
* `Highlighter.Upright` — the invariant, kept by every character (`Upright.feed`);
* `Highlighter.feed_painter` — with it, the cells and the painted line change in step;
* `Highlighter.exists_pushed` — where an open bracket comes from;
* `highlight_only_colours` — hence nothing is added but colours.
-/

namespace MiniScheme.Console

/-! ## Control sequences -/

/-- The text without its control sequences, from within a sequence or from outside of one. A
sequence begins with an escape character and a square bracket and ends with the next `m`. -/
def uncolouredFrom : Bool → List Char → List Char
  | _, [] => []
  | true, c :: rest => uncolouredFrom (c ≠ 'm') rest
  | false, '\x1b' :: '[' :: rest => uncolouredFrom true rest
  | false, c :: rest => c :: uncolouredFrom false rest

/-- The text without its control sequences. -/
def uncoloured (text : List Char) : List Char := uncolouredFrom false text

/-- A character that begins no control sequence stays. -/
theorem uncoloured_cons {c : Char} (hPlain : c ≠ '\x1b') (rest : List Char) :
    uncoloured (c :: rest) = c :: uncoloured rest := by
  rw [uncoloured, uncolouredFrom]
  · rfl
  · intro after hEscape
    exact absurd hEscape hPlain

/-- Of a cell without its colours there is the character left. -/
theorem uncoloured_cell {cell : Cell} (hPlain : cell.char ≠ '\x1b') (rest : List Char) :
    uncoloured (cell.text ++ rest) = cell.char :: uncoloured rest := by
  obtain ⟨c, colour⟩ := cell
  have hCell : uncoloured (c :: rest) = c :: uncoloured rest := uncoloured_cons hPlain rest
  have hColoured : uncoloured (c :: '\x1b' :: '[' :: '0' :: 'm' :: rest) = c :: uncoloured rest :=
    uncoloured_cons hPlain _
  cases colour with
  | plain => exact hCell
  | _ => exact hColoured

/-- Of a row of cells without their colours there are the characters left. -/
theorem uncoloured_renderCells {cells : List Cell} (hPlain : '\x1b' ∉ cells.map Cell.char) :
    uncoloured (renderCells cells) = cells.map Cell.char := by
  induction cells with
  | nil => rfl
  | cons cell cells ih =>
    rw [List.map_cons, List.mem_cons, not_or] at hPlain
    rw [renderCells, List.flatMap_cons, uncoloured_cell (Ne.symm hPlain.1), ← renderCells,
      ih hPlain.2, List.map_cons]

/-! ## The line as it is kept -/

/-- A text in place of the byte at this place, unless there is none or it is a part of a
longer character. -/
def replaceByte? (place : Nat) (text : List Char) : List Char → Option (List Char)
  | [] => none
  | c :: rest =>
    if place = 0 then if c.utf8Size = 1 then some (text ++ rest) else none
    else if c.utf8Size ≤ place then (replaceByte? (place - c.utf8Size) text rest).map (c :: ·)
    else none

/-- A character of one byte is replaced where the bytes before it end. -/
theorem replaceByte?_append (before : List Char) {c : Char} (hOne : c.utf8Size = 1)
    (text after : List Char) :
    replaceByte? (byteLength before) text (before ++ c :: after) =
      some (before ++ text ++ after) := by
  induction before with
  | nil =>
    show replaceByte? 0 text (c :: after) = _
    rw [replaceByte?, if_pos rfl, if_pos hOne]
    rfl
  | cons d before ih =>
    have hSize := d.utf8Size_pos
    rw [byteLength_cons, List.cons_append, replaceByte?, if_neg (by omega), if_pos (by omega),
      Nat.add_sub_cancel_left, ih]
    rfl

/-- A line that is being painted: the text so far, the open brackets with the bytes of that
text where they are, the zone, and how many characters have been painted. -/
structure Painter where
  painted : List Char
  opened : List (Char × Nat)
  zone : Zone
  taken : Nat

namespace Painter

/-- Nothing is painted yet. -/
def start : Painter := ⟨[], [], .code, 0⟩

/-- Writes the text of a character at the end. -/
def write (p : Painter) (text : List Char) : Painter :=
  { p with painted := p.painted ++ text, taken := p.taken + 1 }

/-- Writes a text in place of a byte that has been painted. -/
def replace? (p : Painter) (place : Nat) (text : List Char) : Option Painter :=
  (replaceByte? place text p.painted).map fun painted => { p with painted := painted }

/-- Takes an opening bracket. -/
def enter (p : Painter) (c : Char) : Painter :=
  { p with opened := (c, byteLength p.painted) :: p.opened }.write [c]

/-- Takes a closing bracket. -/
def leave? (cursor : Nat) (p : Painter) (c : Char) : Option Painter :=
  match p.opened with
  | [] => some (p.write (Cell.text ⟨c, .red⟩))
  | (opening, place) :: outer =>
    let inner := { p with opened := outer }
    if closes opening c then
      if place + 1 = cursor ∨ p.taken + 1 = cursor then
        (inner.write (Cell.text ⟨c, .blue⟩)).replace? place (Cell.text ⟨opening, .boldBlue⟩)
      else some (inner.write [c])
    else (inner.write (Cell.text ⟨c, .red⟩)).replace? place (Cell.text ⟨opening, .boldRed⟩)

/-- Takes one character. -/
def feed? (cursor : Nat) (p : Painter) (c : Char) : Option Painter :=
  match p.zone with
  | .code =>
    if isOpening c then some (p.enter c)
    else if isClosing c then p.leave? cursor c
    else if c = '"' then some { p.write (Cell.text ⟨c, .green⟩) with zone := .string }
    else some (p.write [c])
  | zone => some { p.write (Cell.text ⟨c, .green⟩) with zone := zone.next c }

/-- Paints a line, unless some place turns out not to be that of a one-byte character. -/
def paint? (cursor : Nat) (line : List Char) : Option Painter :=
  line.foldlM (feed? cursor) start

theorem paint?_concat (cursor : Nat) (line : List Char) (c : Char) :
    paint? cursor (line ++ [c]) = (paint? cursor line).bind fun p => p.feed? cursor c := by
  simp [paint?, List.foldlM_append]

end Painter

/-! ## Cells -/

theorem renderCells_append (cells more : List Cell) :
    renderCells (cells ++ more) = renderCells cells ++ renderCells more :=
  List.flatMap_append

theorem utf8Size_of_isOpening {c : Char} (h : isOpening c) : c.utf8Size = 1 := by
  simp only [isOpening, Bool.or_eq_true, decide_eq_true_eq] at h
  obtain (rfl | rfl) | rfl := h <;> rfl

/-- An open bracket is shown by its cell, and the cells before are as wide as they were. -/
structure OpenBracket.Stands (o : OpenBracket) (cells : List Cell) : Prop where
  isOpening : isOpening o.bracket
  shown : cells[o.cell]? = some ⟨o.bracket, .plain⟩
  width_eq : o.width = cellsWidth (cells.take o.cell)

namespace OpenBracket.Stands

variable {o : OpenBracket} {cells : List Cell}

/-- An open bracket stands in one of the cells. -/
theorem lt_length (h : o.Stands cells) : o.cell < cells.length :=
  (List.getElem?_eq_some_iff.mp h.shown).1

theorem append (h : o.Stands cells) (more : List Cell) : o.Stands (cells ++ more) where
  isOpening := h.isOpening
  shown := by rw [List.getElem?_append_left h.lt_length, h.shown]
  width_eq := by rw [List.take_append_of_le_length (Nat.le_of_lt h.lt_length), h.width_eq]

/-- Only what is further to the right changes. -/
theorem set (h : o.Stands cells) {i : Nat} (hLeft : o.cell < i) (cell : Cell) :
    o.Stands (cells.set i cell) where
  isOpening := h.isOpening
  shown := by rw [List.getElem?_set_ne (Nat.ne_of_gt hLeft), h.shown]
  width_eq := by rw [List.take_set_of_le (Nat.le_of_lt hLeft), h.width_eq]

/-- A new colour leaves the characters as they are. -/
theorem map_char_set (h : o.Stands cells) (colour : Colour) :
    (cells.set o.cell ⟨o.bracket, colour⟩).map Cell.char = cells.map Cell.char := by
  obtain ⟨hLength, hShown⟩ := List.getElem?_eq_some_iff.mp h.shown
  have hInside : o.cell < (cells.map Cell.char).length := by rwa [List.length_map]
  have hChar : (cells.map Cell.char)[o.cell] = o.bracket := by rw [List.getElem_map, hShown]
  rw [List.map_set, ← hChar, List.set_getElem_self]

/-- The bracket in the text of the cells. -/
theorem renderCells_eq (h : o.Stands cells) :
    renderCells cells = renderCells (cells.take o.cell) ++
      o.bracket :: renderCells (cells.drop (o.cell + 1)) := by
  obtain ⟨hLength, hShown⟩ := List.getElem?_eq_some_iff.mp h.shown
  conv => lhs; rw [← List.take_append_drop o.cell cells, List.drop_eq_getElem_cons hLength, hShown]
  rw [renderCells_append]
  rfl

/-- In the text, the byte at the place of the bracket is the bracket, and it is all that
changes with the colour of its cell. -/
theorem replaceByte? (h : o.Stands cells) (colour : Colour) :
    Console.replaceByte? o.width (Cell.text ⟨o.bracket, colour⟩) (renderCells cells) =
      some (renderCells (cells.set o.cell ⟨o.bracket, colour⟩)) := by
  rw [h.renderCells_eq, h.width_eq, cellsWidth,
    replaceByte?_append _ (utf8Size_of_isOpening h.isOpening), List.set_eq_take_append_cons_drop,
    if_pos h.lt_length, renderCells_append, List.append_assoc]
  rfl

end OpenBracket.Stands

namespace Highlighter

variable {h : Highlighter} {opening : OpenBracket} {outer : List OpenBracket} {c : Char}

/-! ## What is invariant -/

/-- Every open bracket stands in its cell, to the left of those that were opened in it. -/
structure Upright (h : Highlighter) : Prop where
  stands : ∀ o ∈ h.opened, o.Stands h.cells
  nested : h.opened.Pairwise fun inner outer => outer.cell < inner.cell

theorem upright_start : start.Upright := ⟨nofun, .nil⟩

namespace Upright

/-- A cell that is written leaves the open brackets where they are. -/
theorem paint (hUp : h.Upright) (c : Char) (colour : Colour) : (h.paint c colour).Upright where
  stands := fun o ho => (hUp.stands o ho).append [⟨c, colour⟩]
  nested := hUp.nested

/-- An opening bracket stands in the cell that is written for it, and is the rightmost one. -/
theorem enter (hUp : h.Upright) (hOpening : isOpening c) : (h.enter c).Upright where
  stands := by
    intro o ho
    obtain rfl | ho := List.mem_cons.mp ho
    · refine ⟨hOpening, List.getElem?_concat_length, ?_⟩
      show cellsWidth h.cells = cellsWidth ((h.cells ++ [(⟨c, .plain⟩ : Cell)]).take h.cells.length)
      rw [List.take_left]
    · exact (hUp.stands o ho).append [⟨c, .plain⟩]
  nested := .cons (fun o ho => (hUp.stands o ho).lt_length) hUp.nested

/-- The innermost bracket is no longer open. -/
theorem pop (hUp : h.Upright) (hOpened : h.opened = opening :: outer) :
    Upright { h with opened := outer } where
  stands := fun o ho => hUp.stands o (hOpened ▸ List.mem_cons_of_mem opening ho)
  nested := by
    have hNested := hUp.nested
    rw [hOpened] at hNested
    exact hNested.of_cons

/-- A new colour is given to what no longer is open, and stands to the right of what is. -/
theorem repaint (hUp : h.Upright) (hRight : ∀ o ∈ h.opened, o.cell < opening.cell)
    (colour : Colour) : (h.repaint opening colour).Upright where
  stands := fun o ho => (hUp.stands o ho).set (hRight o ho) ⟨opening.bracket, colour⟩
  nested := hUp.nested

/-- A closing bracket repaints a cell that is to the right of all other open brackets. -/
theorem leave (hUp : h.Upright) (cursor : Nat) (c : Char) : (h.leave cursor c).Upright := by
  rw [Highlighter.leave]
  split
  · exact hUp.paint c .red
  · rename_i opening outer hOpened
    have hInner := hUp.pop hOpened
    have hRight : ∀ o ∈ outer, o.cell < opening.cell := by
      have hNested := hUp.nested
      rw [hOpened] at hNested
      exact (List.pairwise_cons.mp hNested).1
    split
    · split
      · exact (hInner.paint c .blue).repaint hRight .boldBlue
      · exact hInner.paint c .plain
    · exact (hInner.paint c .red).repaint hRight .boldRed

/-- Whatever the character, the open brackets stand where they are said to. -/
theorem feed (hUp : h.Upright) (cursor : Nat) (c : Char) : (h.feed cursor c).Upright := by
  rw [Highlighter.feed]
  split
  · split
    · rename_i hOpening
      exact hUp.enter hOpening
    · split
      · exact hUp.leave cursor c
      · split
        · exact ⟨(hUp.paint c .green).stands, hUp.nested⟩
        · exact hUp.paint c .plain
  · exact ⟨(hUp.paint c .green).stands, hUp.nested⟩

end Upright

/-! ## The cells and the painted line -/

/-- The painted line that the cells stand for. -/
def painter (h : Highlighter) : Painter :=
  ⟨renderCells h.cells, h.opened.map fun o => (o.bracket, o.width), h.zone, h.cells.length⟩

/-- The painter writes the text of the cell. -/
theorem painter_paint (h : Highlighter) (c : Char) (colour : Colour) :
    (h.paint c colour).painter = h.painter.write (Cell.text ⟨c, colour⟩) := by
  have hText : renderCells (h.cells ++ [⟨c, colour⟩]) =
      renderCells h.cells ++ Cell.text ⟨c, colour⟩ := by
    rw [renderCells_append]
    congr 1
    exact List.append_nil _
  rw [painter, paint, hText, List.length_append]
  rfl

/-- The painter replaces the one byte of an open bracket by its cell in another colour. -/
theorem replace?_painter (hStands : opening.Stands h.cells) (colour : Colour) :
    h.painter.replace? opening.width (Cell.text ⟨opening.bracket, colour⟩) =
      some (h.repaint opening colour).painter := by
  have hText := hStands.replaceByte? colour
  rw [Painter.replace?, painter, hText, painter, repaint, List.length_set]
  rfl

/-- The closing bracket is written behind the opening one, which so stays where it is. -/
theorem replace?_write (hStands : opening.Stands h.cells) (c : Char) (colour colour' : Colour) :
    (h.painter.write (Cell.text ⟨c, colour⟩)).replace? opening.width
        (Cell.text ⟨opening.bracket, colour'⟩) =
      some ((h.paint c colour).repaint opening colour').painter := by
  have hBehind : opening.Stands (h.paint c colour).cells := hStands.append [⟨c, colour⟩]
  rw [← painter_paint, replace?_painter hBehind]

/-- At a closing bracket the painter does what is done to the cells. Its replacement never fails:
the offset that it kept is that of the innermost open bracket. -/
theorem leave_painter (hUp : h.Upright) (cursor : Nat) (c : Char) :
    h.painter.leave? cursor c = some (h.leave cursor c).painter := by
  rw [Painter.leave?, leave]
  cases hOpened : h.opened with
  | nil =>
    have hNone : h.painter.opened = [] := by
      rw [painter, hOpened]
      rfl
    rw [hNone, painter_paint]
  | cons opening outer =>
    have hSome : h.painter.opened =
        (opening.bracket, opening.width) :: outer.map fun o => (o.bracket, o.width) := by
      rw [painter, hOpened]
      rfl
    let inner : Highlighter := { h with opened := outer }
    have hStands : opening.Stands inner.cells := hUp.stands opening (hOpened ▸ List.mem_cons_self)
    have hBlue := replace?_write hStands c .blue .boldBlue
    have hPlain := painter_paint inner c .plain
    have hRed := replace?_write hStands c .red .boldRed
    have hTaken : h.painter.taken = h.cells.length := rfl
    rw [hSome, hTaken]
    -- both sides make the same distinctions
    by_cases hCloses : closes opening.bracket c
    · by_cases hCursor : opening.width + 1 = cursor ∨ h.cells.length + 1 = cursor
      · simp only [if_pos hCloses, if_pos hCursor]
        exact hBlue
      · simp only [if_pos hCloses, if_neg hCursor]
        exact congrArg some hPlain.symm
    · simp only [if_neg hCloses]
      exact hRed

/-- The painter keeps the place of an opening bracket as the cells do. -/
theorem painter_enter (h : Highlighter) (c : Char) :
    (h.enter c).painter = h.painter.enter c :=
  painter_paint { h with opened := ⟨c, h.cells.length, cellsWidth h.cells⟩ :: h.opened } c .plain

/-- A character changes the cells and the painted line in step, and every place is right. -/
theorem feed_painter (hUp : h.Upright) (cursor : Nat) (c : Char) :
    h.painter.feed? cursor c = some (h.feed cursor c).painter := by
  have hGreen (zone : Zone) :
      ({ h.painter.write (Cell.text ⟨c, .green⟩) with zone := zone } : Painter) =
        ({ h.paint c .green with zone := zone } : Highlighter).painter := by
    rw [← painter_paint]
    rfl
  have hZone : h.painter.zone = h.zone := rfl
  rw [Painter.feed?, feed, hZone]
  -- In a literal and after its backslash everything is green; in code there are brackets too.
  cases h.zone with
  | code =>
    dsimp only
    split
    · rw [painter_enter]
    · split
      · exact leave_painter hUp cursor c
      · split
        · exact congrArg some (hGreen .string)
        · rw [painter_paint]
          rfl
  | string => exact congrArg some (hGreen _)
  | escape => exact congrArg some (hGreen _)

/-! ## What stands in the cells -/

theorem map_char_paint (h : Highlighter) (c : Char) (colour : Colour) :
    (h.paint c colour).cells.map Cell.char = h.cells.map Cell.char ++ [c] :=
  List.map_append

/-- A closing bracket changes colours only, and adds its own character. -/
theorem Upright.map_char_leave (hUp : h.Upright) (cursor : Nat) (c : Char) :
    (h.leave cursor c).cells.map Cell.char = h.cells.map Cell.char ++ [c] := by
  rw [Highlighter.leave]
  split
  · exact map_char_paint h c .red
  · rename_i opening outer hOpened
    have hBehind (colour : Colour) : opening.Stands (h.paint c colour).cells :=
      (hUp.stands opening (hOpened ▸ List.mem_cons_self)).append [⟨c, colour⟩]
    split
    · split
      · exact ((hBehind .blue).map_char_set .boldBlue).trans (map_char_paint h c .blue)
      · exact map_char_paint h c .plain
    · exact ((hBehind .red).map_char_set .boldRed).trans (map_char_paint h c .red)

/-- Each character gets a cell of its own. -/
theorem Upright.map_char_feed (hUp : h.Upright) (cursor : Nat) (c : Char) :
    (h.feed cursor c).cells.map Cell.char = h.cells.map Cell.char ++ [c] := by
  rw [Highlighter.feed]
  split
  · split
    · exact map_char_paint h c .plain
    · split
      · exact hUp.map_char_leave cursor c
      · split
        · exact map_char_paint h c .green
        · exact map_char_paint h c .plain
  · exact map_char_paint h c .green

/-- A character is pushed if it is an opening bracket, and else nothing is. -/
theorem opened_feed (cursor : Nat) (h : Highlighter) (c : Char) :
    (h.zone = .code ∧ isOpening c ∧
      (h.feed cursor c).opened = ⟨c, h.cells.length, cellsWidth h.cells⟩ :: h.opened) ∨
    (h.feed cursor c).opened <:+ h.opened := by
  rw [feed]
  -- A character is an opening bracket, which is new, or it takes away the innermost one at most.
  split
  · rename_i hZone
    split
    · rename_i hOpening
      exact .inl ⟨hZone, hOpening, rfl⟩
    · right
      split
      · rw [leave]
        split
        · exact List.suffix_rfl
        · rename_i opening outer hOpened
          have hOuter : outer <:+ h.opened := hOpened ▸ List.suffix_cons opening outer
          split
          · split
            · exact hOuter
            · exact hOuter
          · exact hOuter
      · split
        · exact List.suffix_rfl
        · exact List.suffix_rfl
  · exact .inr List.suffix_rfl

/-! ## A line -/

/-- The highlighter after a line. -/
def after (cursor : Nat) (line : List Char) : Highlighter := line.foldl (feed cursor) start

theorem after_concat (cursor : Nat) (line : List Char) (c : Char) :
    after cursor (line ++ [c]) = (after cursor line).feed cursor c := by
  rw [after, List.foldl_append]
  rfl

/-- In every line the open brackets stand where they are said to. -/
theorem upright_after (cursor : Nat) (line : List Char) : (after cursor line).Upright := by
  induction line using List.reverseRecOn with
  | nil => exact upright_start
  | append_singleton line c ih =>
    rw [after_concat]
    exact ih.feed cursor c

/-- The characters of the cells are the line. -/
theorem map_char_after (cursor : Nat) (line : List Char) :
    (after cursor line).cells.map Cell.char = line := by
  induction line using List.reverseRecOn with
  | nil => rfl
  | append_singleton line c ih =>
    rw [after_concat, (upright_after cursor line).map_char_feed, ih]

/-- Painting a line never fails, and its result is the rendering of the cells. -/
theorem paint?_eq (cursor : Nat) (line : List Char) :
    Painter.paint? cursor line = some (after cursor line).painter := by
  induction line using List.reverseRecOn with
  | nil => rfl
  | append_singleton line c ih =>
    rw [Painter.paint?_concat, ih, after_concat, Option.bind_some,
      feed_painter (upright_after cursor line)]

/-- An open bracket was pushed when the line had come to it, and the outer ones were open. -/
theorem exists_pushed (cursor : Nat) {line : List Char} {inner : List OpenBracket}
    (hOpened : (after cursor line).opened = inner ++ opening :: outer) :
    ∃ start inside, line = start ++ opening.bracket :: inside ∧
      (after cursor start).zone = .code ∧ (after cursor start).opened = outer ∧
      opening.cell = start.length ∧ opening.width = cellsWidth (after cursor start).cells := by
  induction line using List.reverseRecOn generalizing inner with
  | nil => simp [after, start] at hOpened
  | append_singleton line c ih =>
    -- it has been open before, unless it is the one that is pushed now
    have hEarlier : opening :: outer <:+ (after cursor line).opened →
        ∃ start inside, line ++ [c] = start ++ opening.bracket :: inside ∧
          (after cursor start).zone = .code ∧ (after cursor start).opened = outer ∧
          opening.cell = start.length ∧
          opening.width = cellsWidth (after cursor start).cells := by
      rintro ⟨inner, hSuffix⟩
      obtain ⟨start, inside, rfl, hPushed⟩ := ih hSuffix.symm
      exact ⟨start, inside ++ [c], by simp, hPushed⟩
    rw [after_concat] at hOpened
    obtain ⟨hZone, hOpening, hPush⟩ | hPop := opened_feed cursor (after cursor line) c
    · rw [hPush] at hOpened
      cases inner with
      | nil =>
        obtain ⟨rfl, rfl⟩ := List.cons.inj hOpened
        have hLength := congrArg List.length (map_char_after cursor line)
        rw [List.length_map] at hLength
        exact ⟨line, [], rfl, hZone, rfl, hLength, rfl⟩
      | cons innermost inner =>
        exact hEarlier ⟨inner, (List.cons.inj hOpened).2.symm⟩
    · rw [hOpened] at hPop
      exact hEarlier ((List.suffix_append inner _).trans hPop)

end Highlighter

open Highlighter

/-! ## Colours only -/

/-- Once so much of a line has been painted, the byte that is remembered for an open bracket is
that bracket. It is the one that follows `start`, and was written there when `start` had been
painted and the outer brackets were open. -/
structure Painter.Marks (p : Painter) (cursor : Nat) (typed : List Char) (bracket : Char)
    (place : Nat) (outer : List (Char × Nat)) (start inside before behind : List Char) : Prop where
  typed_eq : typed = start ++ bracket :: inside
  pushed : ∃ q, paint? cursor start = some q ∧ q.zone = .code ∧ q.opened = outer ∧
    byteLength q.painted = place
  painted_eq : p.painted = before ++ bracket :: behind
  place_eq : byteLength before = place
  oneByte : bracket.utf8Size = 1
  before_eq : uncoloured before = start
  behind_eq : uncoloured behind = inside

/-- Nothing but the bracket is lost when something is written there. -/
theorem Painter.Marks.replaceByte? {p : Painter} {cursor place : Nat} {bracket : Char}
    {outer : List (Char × Nat)} {typed start inside before behind : List Char}
    (h : p.Marks cursor typed bracket place outer start inside before behind)
    (text more : List Char) :
    Console.replaceByte? place text (p.painted ++ more) =
      some (before ++ text ++ behind ++ more) := by
  rw [h.painted_eq, ← h.place_eq, List.append_assoc, List.cons_append,
    replaceByte?_append before h.oneByte, List.append_assoc _ behind]

/-- What is on the stack of the painter is an open bracket of the line, at the place where the
painter would replace it. -/
theorem marks_of_opened {cursor : Nat} {typed : List Char} (hPlain : '\x1b' ∉ typed)
    {inner outer : List OpenBracket} {opening : OpenBracket}
    (hOpened : (after cursor typed).opened = inner ++ opening :: outer) :
    ∃ start inside before behind,
      (after cursor typed).painter.Marks cursor typed opening.bracket opening.width
        (outer.map fun o => (o.bracket, o.width)) start inside before behind := by
  obtain ⟨start, inside, hTyped, hZone, hOuter, hCell, hWidth⟩ := exists_pushed cursor hOpened
  have hMem : opening ∈ (after cursor typed).opened := by simp [hOpened]
  have hStands := (upright_after cursor typed).stands opening hMem
  have hChars := map_char_after cursor typed
  -- cells and characters are one to one
  generalize after cursor typed = h at hStands hChars ⊢
  have hBefore : (h.cells.take opening.cell).map Cell.char = start := by
    rw [List.map_take, hChars, hTyped, hCell, List.take_left]
  have hBehind : (h.cells.drop (opening.cell + 1)).map Cell.char = inside := by
    rw [List.map_drop, hChars, hTyped, hCell, ← List.drop_drop, List.drop_left, List.drop_one,
      List.tail_cons]
  rw [hTyped, List.mem_append, List.mem_cons, not_or, not_or] at hPlain
  exact ⟨start, inside, renderCells (h.cells.take opening.cell),
    renderCells (h.cells.drop (opening.cell + 1)),
    { typed_eq := hTyped
      pushed := ⟨_, paint?_eq cursor start, hZone, congrArg _ hOuter, hWidth.symm⟩
      painted_eq := hStands.renderCells_eq
      place_eq := hStands.width_eq.symm
      oneByte := utf8Size_of_isOpening hStands.isOpening
      before_eq := by rw [uncoloured_renderCells (hBefore ▸ hPlain.1), hBefore]
      behind_eq := by rw [uncoloured_renderCells (hBehind ▸ hPlain.2.2), hBehind] }⟩

/-- **The highlighter adds colours and nothing else.** Without its control sequences a highlighted
line is the line. The console, which paints in a text of bytes, gets to the end of every line,
and with the same text. However far it has come, each place that it remembers for an open
bracket is the byte where that bracket was written and still stands, so that to write there
replaces that character and no other. -/
theorem highlight_only_colours {line : String} (hPlain : '\x1b' ∉ line.toList) (cursor : Nat) :
    uncoloured (highlight line cursor).toList = line.toList ∧
    (∃ p, Painter.paint? cursor line.toList = some p ∧
      p.painted = (highlight line cursor).toList) ∧
    ∀ typed rest, line.toList = typed ++ rest → ∃ p, Painter.paint? cursor typed = some p ∧
      ∀ inner bracket place outer, p.opened = inner ++ (bracket, place) :: outer →
        ∃ start inside before behind,
          p.Marks cursor typed bracket place outer start inside before behind ∧
          ∀ text more, replaceByte? place text (p.painted ++ more) =
            some (before ++ text ++ behind ++ more) := by
  have hHighlight : (highlight line cursor).toList = renderCells (after cursor line.toList).cells :=
    String.toList_ofList
  refine ⟨?_, ⟨_, paint?_eq cursor line.toList, hHighlight.symm⟩, ?_⟩
  · have hChars := map_char_after cursor line.toList
    rw [hHighlight, uncoloured_renderCells (hChars.symm ▸ hPlain), hChars]
  -- An open bracket of the painter is the counterpart of one that stands in a cell.
  · intro typed rest hLine
    refine ⟨_, paint?_eq cursor typed, ?_⟩
    intro inner bracket place outer hOpened
    obtain ⟨innerCells, others, hSplit, -, hOthers⟩ := List.map_eq_append_iff.mp hOpened
    obtain ⟨opening, outerCells, rfl, hOpening, rfl⟩ := List.map_eq_cons_iff.mp hOthers
    cases hOpening
    have hTyped : '\x1b' ∉ typed := fun hMem => hPlain (hLine ▸ List.mem_append_left rest hMem)
    obtain ⟨start, inside, before, behind, hMarks⟩ := marks_of_opened hTyped hSplit
    exact ⟨start, inside, before, behind, hMarks, hMarks.replaceByte?⟩

/-- In `é([))`, with the cursor behind the parenthesis, the square bracket has turned red when the
parenthesis around it is closed. Its place is the third byte still. -/
theorem highlight_only_colours_nested :
    '\x1b' ∉ "é([))".toList ∧ uncoloured (highlight "é([))" 3).toList = "é([))".toList ∧
    ∃ p start inside before behind, Painter.paint? 3 "é([)".toList = some p ∧
      p.opened = [('(', 2)] ∧ p.Marks 3 "é([)".toList '(' 2 [] start inside before behind := by
  have hPlain : '\x1b' ∉ "é([))".toList := by decide
  obtain ⟨hText, -, hPlaces⟩ := highlight_only_colours hPlain 3
  obtain ⟨p, hPaint, hMarks⟩ := hPlaces "é([)".toList [')'] rfl
  have hOpened : p.opened = [('(', 2)] := by
    have hRun : (Painter.paint? 3 "é([)".toList).map Painter.opened = some [('(', 2)] := rfl
    rw [hPaint] at hRun
    exact Option.some.inj hRun
  obtain ⟨start, inside, before, behind, hAt, -⟩ := hMarks [] '(' 2 [] hOpened
  exact ⟨hPlain, hText, p, start, inside, before, behind, hPaint, hOpened, hAt⟩

/-- The same line, as it is shown in the end. -/
example : highlight "é([))" 3 =
    "é\x1b[1;34m(\x1b[0m\x1b[1;31m[\x1b[0m\x1b[31m)\x1b[0m\x1b[34m)\x1b[0m" := by
  decide

end MiniScheme.Console
