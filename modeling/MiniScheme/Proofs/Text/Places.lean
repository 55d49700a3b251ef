import MiniScheme.Text.Lines
import Mathlib.Data.List.Basic

/-!
# Places in lines

The lines of a text are all of it, one after the other. So every place in a text belongs to one
line and stands at one column there, and no other place stands at the same column of the same
line. The place behind the last character belongs to the last line.

* `flatten_splitLines` — nothing of a text is left out of its lines;
* `Line.Of`, `StandsAt` — a line with its places, and the line and the column of a place;
* `StandsAt.place_unique`, `StandsAt.column_unique` — the one tells the other;
* `lineAt_spec` — the line that is found for a place is the one that it belongs to.
-/

namespace MiniScheme

variable {text : List Char} {place : Nat}

/-! ## Lines -/

theorem flatten_splitLinesOnto (line text : List Char) :
    (splitLinesOnto line text).flatten = line.reverse ++ text := by
  fun_induction splitLinesOnto line text with
  | case1 => rfl
  | case2 line hSome => simp
  | case3 line rest ih => simp [ih]
  | case4 line c rest hOther hEnd ih => simp [ih]
  | case5 line c rest hOther hEnd ih => simp [ih]

theorem flatten_splitLines (text : List Char) : (splitLines text).flatten = text := by
  unfold splitLines
  split
  · rename_i hNone
    rw [hNone]
    rfl
  · exact flatten_splitLinesOnto [] text

theorem splitLines_ne_nil (text : List Char) : splitLines text ≠ [] := by
  intro hNone
  have hText := flatten_splitLines text
  rw [hNone] at hText
  cases hText
  cases hNone

theorem ne_nil_of_mem_splitLinesOnto {line text : List Char} :
    ∀ l ∈ splitLinesOnto line text, l ≠ [] := by
  fun_induction splitLinesOnto line text with
  | case1 => exact nofun
  | case2 line hSome => exact List.forall_mem_singleton.mpr (mt List.reverse_eq_nil_iff.mp hSome)
  | case3 line rest ih => exact List.forall_mem_cons.mpr ⟨by simp, ih⟩
  | case4 line c rest hOther hEnd ih => exact List.forall_mem_cons.mpr ⟨by simp, ih⟩
  | case5 line c rest hOther hEnd ih => exact ih

/-- Only the one line of the empty text has no characters. -/
theorem ne_nil_of_mem_splitLines (hText : text ≠ []) : ∀ l ∈ splitLines text, l ≠ [] := by
  rw [splitLines, if_neg hText]
  exact ne_nil_of_mem_splitLinesOnto

/-- The line is one of the text, with the places that it takes there. -/
def Line.Of (text : List Char) (l : Line) : Prop :=
  ∃ earlier current later, splitLines text = earlier ++ current :: later ∧
    l = ⟨earlier.length, earlier.flatten.length, earlier.flatten.length + current.length⟩

theorem Line.Of.eq_of_number {l l' : Line} (h : l.Of text) (h' : l'.Of text)
    (hNumber : l.number = l'.number) : l = l' := by
  obtain ⟨earlier, current, later, hLines, rfl⟩ := h
  obtain ⟨earlier', current', later', hLines', rfl⟩ := h'
  obtain ⟨rfl, hRest⟩ := List.append_inj (hLines.symm.trans hLines') hNumber
  rw [(List.cons.inj hRest).1]

theorem Line.Of.stop_le {l : Line} (h : l.Of text) : l.stop ≤ text.length := by
  obtain ⟨earlier, current, later, hLines, rfl⟩ := h
  have hText := congrArg List.length (flatten_splitLines text)
  rw [hLines, List.flatten_append, List.flatten_cons, List.length_append, List.length_append]
    at hText
  dsimp only
  omega

/-- A line starts where all those before it have stopped, and stops further on. -/
theorem Line.Of.stop_le_start {l l' : Line} (h : l.Of text) (h' : l'.Of text)
    (hNumber : l.number < l'.number) : l.stop ≤ l'.start ∧ l'.start < l'.stop := by
  obtain ⟨earlier, current, later, hLines, rfl⟩ := h
  obtain ⟨earlier', current', later', hLines', rfl⟩ := h'
  have hThrough : earlier ++ [current] <+: splitLines text :=
    ⟨later, by rw [hLines, List.append_assoc, List.singleton_append]⟩
  have hLonger : (earlier ++ [current]).length ≤ earlier'.length := by
    rw [List.length_append, List.length_singleton]
    exact hNumber
  -- The later line comes after the earlier one and all lines between them.
  obtain ⟨between, rfl⟩ := List.prefix_of_prefix_length_le hThrough ⟨_, hLines'.symm⟩ hLonger
  have hText : text ≠ [] := by
    rintro rfl
    have hOne : [[]] = earlier ++ [current] ++ between ++ current' :: later' := hLines'
    have hLength := congrArg List.length hOne
    simp at hLength
    omega
  have hSome : current' ≠ [] :=
    ne_nil_of_mem_splitLines hText current' (by rw [hLines']; simp)
  have hCharacters := List.length_pos_iff.mpr hSome
  simp only [List.flatten_append, List.flatten_singleton, List.length_append]
  omega

/-! ## Places -/

/-- The place is at this column of this line, both counted from 0. -/
def StandsAt (text : List Char) (place line column : Nat) : Prop :=
  ∃ l : Line, l.Of text ∧ l.number = line ∧ l.start + column = place ∧
    (place < l.stop ∨ place = l.stop ∧ l.stop = text.length)

/-- At a column of a line there is no other place. -/
theorem StandsAt.place_unique {place' line column : Nat} (h : StandsAt text place line column)
    (h' : StandsAt text place' line column) : place = place' := by
  obtain ⟨l, hLine, rfl, rfl, -⟩ := h
  obtain ⟨l', hLine', hNumber, rfl, -⟩ := h'
  rw [hLine.eq_of_number hLine' hNumber.symm]

/-- A place stands in no other line, and at no other column. -/
theorem StandsAt.column_unique {line line' column column' : Nat}
    (h : StandsAt text place line column) (h' : StandsAt text place line' column') :
    line = line' ∧ column = column' := by
  obtain ⟨l, hLine, rfl, hPlace, hStop⟩ := h
  obtain ⟨l', hLine', rfl, hPlace', hStop'⟩ := h'
  -- of two lines, the one further on would start too late or be empty
  have hNotBefore {l l' : Line} (hLine : l.Of text) (hLine' : l'.Of text)
      (hStart : l'.start ≤ place)
      (hStop : place < l.stop ∨ place = l.stop ∧ l.stop = text.length) :
      ¬ l.number < l'.number := by
    intro hNumber
    obtain ⟨hLater, hSome⟩ := hLine.stop_le_start hLine' hNumber
    have hEnd := hLine'.stop_le
    omega
  have hFirst := hNotBefore hLine hLine' (by omega) hStop
  have hSecond := hNotBefore hLine' hLine (by omega) hStop'
  have hSame := hLine.eq_of_number hLine' (by omega)
  subst hSame
  exact ⟨rfl, by omega⟩

theorem le_start_of_mem_placeLines {lines : List (List Char)} {number start : Nat} :
    ∀ l ∈ placeLines number start lines, start ≤ l.start := by
  induction lines generalizing number start with
  | nil => exact nofun
  | cons line lines ih =>
    refine List.forall_mem_cons.mpr ⟨Nat.le_refl _, fun l hMem => ?_⟩
    exact Nat.le_trans (Nat.le_add_right _ _) (ih l hMem)

/-- Among lines in a row, the last one that starts at or before a place is the one that the place
belongs to. -/
theorem find?_placeLines {lines : List (List Char)} (hSome : lines ≠ []) (number : Nat)
    {start : Nat} (hStart : start ≤ place) (hStop : place ≤ start + lines.flatten.length) :
    ∃ earlier current later l, lines = earlier ++ current :: later ∧
      (placeLines number start lines).reverse.find? (fun line => line.start ≤ place) = some l ∧
      l.number = number + earlier.length ∧ l.start = start + earlier.flatten.length ∧
      l.stop = l.start + current.length ∧ l.start ≤ place ∧
      (place < l.stop ∨ place = l.stop ∧ later = []) := by
  -- Line by line; the place belongs to the last line that does not start behind it.
  induction lines generalizing number start with
  | nil => exact absurd rfl hSome
  | cons line lines ih =>
    rw [placeLines, List.reverse_cons, List.find?_append]
    rw [List.flatten_cons, List.length_append] at hStop
    by_cases hLater : lines ≠ [] ∧ start + line.length ≤ place
    · -- it belongs to one of the lines that come after this one
      obtain ⟨earlier, current, later, l, hLines, hFound, hNumber, hFirst, hRest⟩ :=
        ih hLater.1 (number + 1) hLater.2 (by omega)
      refine ⟨line :: earlier, current, later, l, ?_, ?_, ?_, ?_, hRest⟩
      · rw [hLines, List.cons_append]
      · rw [hFound]
        rfl
      · rw [hNumber, List.length_cons]
        omega
      · rw [hFirst, List.flatten_cons, List.length_append]
        omega
    · -- all of those start behind it
      have hNone : (placeLines (number + 1) (start + line.length) lines).reverse.find?
          (fun line => line.start ≤ place) = none := by
        refine List.find?_eq_none.mpr fun l hMem => ?_
        rw [List.mem_reverse] at hMem
        have hFirst := le_start_of_mem_placeLines l hMem
        have hLines : lines ≠ [] := by
          rintro rfl
          cases hMem
        have hBefore : ¬ start + line.length ≤ place := fun hLe => hLater ⟨hLines, hLe⟩
        simp only [decide_eq_true_eq]
        omega
      refine ⟨[], line, lines, ⟨number, start, start + line.length⟩, rfl, ?_, rfl, rfl, rfl,
        hStart, ?_⟩
      · rw [hNone, Option.none_or, List.find?_singleton, if_pos (by simpa using hStart)]
      · by_cases hLines : lines = []
        · subst hLines
          exact (Nat.lt_or_eq_of_le hStop).imp_right fun hEq => ⟨hEq, rfl⟩
        · have hBefore : ¬ start + line.length ≤ place := fun hLe => hLater ⟨hLines, hLe⟩
          exact .inl (Nat.lt_of_not_le hBefore)

/-- The line that is found for a place is the one that it belongs to. -/
theorem lineAt_spec (h : place ≤ text.length) :
    (lineAt text place).Of text ∧ (lineAt text place).start ≤ place ∧
      (place < (lineAt text place).stop ∨
        place = (lineAt text place).stop ∧ (lineAt text place).stop = text.length) := by
  have hAll := flatten_splitLines text
  have hStop : place ≤ 0 + (splitLines text).flatten.length := by rwa [hAll, Nat.zero_add]
  obtain ⟨earlier, current, later, l, hLines, hFound, hNumber, hStart, hEnd, hFirst, hLast⟩ :=
    find?_placeLines (splitLines_ne_nil text) 0 (Nat.zero_le place) hStop
  have hLine : lineAt text place = l := by
    rw [lineAt, hFound]
    rfl
  rw [hLine]
  refine ⟨⟨earlier, current, later, hLines, ?_⟩, hFirst, hLast.imp_right fun hLast => ?_⟩
  · obtain ⟨number, start, stop⟩ := l
    dsimp only at hNumber hStart hEnd
    rw [hEnd, hNumber, hStart, Nat.zero_add, Nat.zero_add]
  · obtain ⟨hPlace, rfl⟩ := hLast
    refine ⟨hPlace, ?_⟩
    rw [hLines] at hAll
    have hText := congrArg List.length hAll
    rw [List.flatten_append, List.flatten_singleton, List.length_append] at hText
    omega

theorem standsAt_lineAt (h : place ≤ text.length) :
    StandsAt text place (lineAt text place).number (place - (lineAt text place).start) := by
  obtain ⟨hLine, hStart, hStop⟩ := lineAt_spec h
  exact ⟨_, hLine, rfl, Nat.add_sub_cancel' hStart, hStop⟩

end MiniScheme
