import MiniScheme.Proofs.Datum.Grammar
import MiniScheme.Proofs.Number.ReadBack
import MiniScheme.Proofs.Token.Scan
import MiniScheme.Value.Text

/-!
# Data read back

The text of a datum, whatever blanks stand around it, is read as that datum: it
is scanned as the tokens that were written, and these spell the datum.

* `Datum.spelling`, `Datum.kinds` — what is written for a datum, and the tokens
  meant by it;
* `Datum.takes_spelling` — the scanner finds these tokens;
* `Datum.derives_of_kinds` — the grammar derives the datum from them;
* `values_read_back` — any number of values, each written as its text.
-/

namespace MiniScheme

/-! ## What is written -/

/-- The tokens meant by what is written for an atom. -/
def Atom.kinds : Atom → List TokenKind
  | .nil => [.leftParen, .rightParen]
  | .boolean b => [.boolean b]
  | .number x => [.number x]
  | .symbol name => [.symbol name]
  | .string s => [.string s]

/-- An atom that the reader knows: a number is finite, and the name of a symbol
is a word that is read as a symbol. -/
def Atom.Readable : Atom → Prop
  | .number x => Binary64.magnitudeBits x < Binary64.infinityBits
  | .symbol name => name.toList ≠ [] ∧ (∀ c ∈ name.toList, isWordChar c) ∧
      TokenKind.ofWord name.toList = .symbol name
  | _ => True

namespace Datum

/-- All atoms of the datum are known to the reader. -/
def Readable : Datum → Prop
  | .atom a => a.Readable
  | .pair first rest => first.Readable ∧ rest.Readable

mutual

/-- The characters of the written form. -/
def spelling : Datum → List Char
  | .atom a => a.text.toList
  | .pair first rest => ['('] ++ (first.spelling ++ rest.tailSpelling)

/-- The characters written after an element of a list. -/
def tailSpelling : Datum → List Char
  | .nil => [')']
  | .pair first rest => [' '] ++ (first.spelling ++ rest.tailSpelling)
  | .atom a => [' '] ++ (['.'] ++ ([' '] ++ (a.text.toList ++ [')'])))

end

mutual

/-- The tokens meant by the written form. -/
def kinds : Datum → List TokenKind
  | .atom a => a.kinds
  | .pair first rest => [.leftParen] ++ (first.kinds ++ rest.tailKinds)

/-- The tokens meant by what is written after an element of a list. -/
def tailKinds : Datum → List TokenKind
  | .nil => [.rightParen]
  | .pair first rest => first.kinds ++ rest.tailKinds
  | .atom a => [.dot] ++ (a.kinds ++ [.rightParen])

end

mutual

/-- Writing a datum after some text adds its spelling. -/
theorem toList_writeWith (written : String) (d : Datum) :
    (writeWith Atom.text written d).toList = written.toList ++ d.spelling := by
  -- Writing adds to a text and spelling does not, hence the text written before.
  match d with
  | .atom a => simp [writeWith, spelling]
  | .pair first rest =>
    simp [writeWith, spelling, toList_writeTailWith _ rest, toList_writeWith _ first]

/-- Writing the rest of a list after some text adds the spelling of that rest. -/
theorem toList_writeTailWith (written : String) (d : Datum) :
    (writeTailWith Atom.text written d).toList = written.toList ++ d.tailSpelling := by
  match d with
  | .nil => simp [writeTailWith, tailSpelling]
  | .pair first rest =>
    simp [writeTailWith, tailSpelling, toList_writeTailWith _ rest, toList_writeWith _ first]
  | .atom (.boolean _) | .atom (.number _) | .atom (.symbol _) | .atom (.string _) =>
    simp [writeTailWith, tailSpelling]

end

theorem toList_text (d : Datum) : d.text.toList = d.spelling := by
  rw [text, textWith, toList_writeWith]
  rfl

end Datum

/-! ## The tokens found -/

open Scanner

/-- The text of an atom that the reader knows is scanned as the atom. -/
theorem Atom.takes_text {a : Atom} (h : a.Readable) :
    Takes Ready Settled a.text.toList a.kinds := by
  cases a with
  | nil => exact (takes_open.append takes_close.ready).settled
  | boolean b =>
    cases b with
    | true => exact takes_word (List.cons_ne_nil _ _) (List.all_eq_true.mp (by decide))
    | false => exact takes_word (List.cons_ne_nil _ _) (List.all_eq_true.mp (by decide))
  | number x =>
    -- No word at all would be no number.
    have hSome : Number.chars x ≠ [] := by
      intro hNil
      have hRead := Number.ofWord?_chars h
      rw [hNil] at hRead
      cases hRead
    have hWord := takes_word hSome fun c hc => Number.isWordChar_of_mem_chars h hc
    rw [Number.ofWord_chars h] at hWord
    rw [text, Number.text, String.toList_ofList]
    exact hWord
  | symbol name =>
    obtain ⟨hSome, hChars, hSymbol⟩ := h
    have hWord := takes_word hSome hChars
    rwa [hSymbol] at hWord
  | string s =>
    have hLiteral := takes_literal s.toList
    rw [String.ofList_toList] at hLiteral
    rw [text, String.toList_ofList]
    exact hLiteral.settled

namespace Datum

mutual

/-- The written form is scanned as the tokens that were meant. -/
theorem takes_spelling (d : Datum) (h : d.Readable) : Takes Ready Settled d.spelling d.kinds := by
  match d with
  | .atom a => exact a.takes_text h
  | .pair first rest =>
    have hFirst := first.takes_spelling h.1
    have hRest := rest.takes_tailSpelling h.2
    exact (takes_open.append (hFirst.append hRest)).settled

/-- The scanner finds the rest of a list as it is written. -/
theorem takes_tailSpelling (d : Datum) (h : d.Readable) :
    Takes Settled Ready d.tailSpelling d.tailKinds := by
  -- The element before may have been a word; a blank or the closing parenthesis ends it.
  have hBlank : Takes Settled Ready [' '] [] := takes_separator (by decide)
  match d with
  | .nil => exact takes_close
  | .pair first rest =>
    have hFirst := first.takes_spelling h.1
    have hRest := rest.takes_tailSpelling h.2
    exact hBlank.append (hFirst.append hRest)
  | .atom (.boolean _) | .atom (.number _) | .atom (.symbol _) | .atom (.string _) =>
    have hDot : Takes Ready Settled ['.'] [.dot] :=
      takes_word (List.cons_ne_nil _ _) (List.all_eq_true.mp (by decide))
    have hAtom := Atom.takes_text h
    exact hBlank.append (hDot.append (hBlank.append (hAtom.append takes_close)))

end

/-! ## The datum that they spell -/

/-- The tokens of an atom spell it. -/
theorem derives_atom {ts : List Token} {a : Atom} (h : ts.map Token.kind = a.kinds) :
    Derives ts (.atom a) := by
  cases a with
  | nil =>
    obtain ⟨opening, us, rfl, hOpen, hRow⟩ := List.map_eq_cons_iff.mp h
    obtain ⟨closing, rfl, hClose⟩ := List.map_eq_singleton_iff.mp hRow
    exact .list hOpen .nil hClose
  | _ =>
    -- All other atoms are one token each.
    obtain ⟨t, rfl, hKind⟩ := List.map_eq_singleton_iff.mp h
    exact .atom (by rw [hKind]; rfl)

mutual

/-- The tokens meant by the written form spell the datum. -/
theorem derives_of_kinds (d : Datum) {ts : List Token} (h : ts.map Token.kind = d.kinds) :
    Derives ts d := by
  match d with
  | .atom a => exact derives_atom h
  | .pair first rest =>
    rw [kinds, List.singleton_append] at h
    obtain ⟨opening, ts, rfl, hOpen, hItems⟩ := List.map_eq_cons_iff.mp h
    obtain ⟨us, vs, rfl, hFirst, hRest⟩ := List.map_eq_append_iff.mp hItems
    have hFirst := first.derives_of_kinds hFirst
    exact rest.derives_of_tailKinds hOpen hFirst.single (List.cons_ne_nil _ _) hRest

/-- The tokens meant by what follows the elements so far finish the list. -/
theorem derives_of_tailKinds (d : Datum) {opening : Token} {ts us : List Token}
    {items : List Datum} (hOpen : opening.kind = .leftParen) (hItems : DerivesAll us items)
    (hSome : items ≠ []) (h : ts.map Token.kind = d.tailKinds) :
    Derives (opening :: (us ++ ts)) (ofList items d) := by
  match d with
  | .nil =>
    obtain ⟨closing, rfl, hClose⟩ := List.map_eq_singleton_iff.mp h
    exact .list hOpen hItems hClose
  | .pair first rest =>
    -- One more element is read, and the rest finishes the longer list.
    obtain ⟨vs, ws, rfl, hFirst, hRest⟩ := List.map_eq_append_iff.mp h
    have hFirst := first.derives_of_kinds hFirst
    have hMore : items ++ [first] ≠ [] := by simp
    have hList := rest.derives_of_tailKinds hOpen (hItems.append hFirst.single) hMore hRest
    rwa [List.append_assoc, ofList, List.foldr_append] at hList
  | .atom (.boolean _) | .atom (.number _) | .atom (.symbol _) | .atom (.string _) =>
    change ts.map Token.kind = .dot :: (Atom.kinds _ ++ [.rightParen]) at h
    obtain ⟨dot, ts, rfl, hDot, hRow⟩ := List.map_eq_cons_iff.mp h
    obtain ⟨vs, ws, rfl, hTail, hRow⟩ := List.map_eq_append_iff.mp hRow
    obtain ⟨closing, rfl, hClose⟩ := List.map_eq_singleton_iff.mp hRow
    exact .dotted hOpen hItems hSome hDot (derives_atom hTail) hClose

end

end Datum

/-! ## Texts read back -/

/-- The tokens of several data spell them in turn. -/
theorem derivesAll_of_kinds {ts : List Token} {ds : List Datum}
    (h : ts.map Token.kind = ds.flatMap Datum.kinds) : DerivesAll ts ds := by
  induction ds generalizing ts with
  | nil =>
    rw [List.map_eq_nil_iff.mp h]
    exact .nil
  | cons d ds ih =>
    obtain ⟨us, vs, rfl, hFirst, hRest⟩ := List.map_eq_append_iff.mp h
    exact .cons (d.derives_of_kinds hFirst) (ih hRest)

/-- The data that a text is scanned as are read. -/
theorem parseProgram_of_takes {text : String} {ds : List Datum}
    (h : Takes Ready Settled text.toList (ds.flatMap Datum.kinds)) :
    parseProgram text = .ok ds := by
  obtain ⟨tokens, hTokens, hKinds⟩ := tokenize_of_takes h
  rw [parseProgram, scanText, hTokens]
  exact parseAll_of_derivesAll (derivesAll_of_kinds hKinds)

/-- The written form of a datum is read as that datum. -/
theorem parseText_text {d : Datum} (h : d.Readable) : parseText d.text = .ok d := by
  have hTakes := d.takes_spelling h
  rw [← d.toList_text] at hTakes
  obtain ⟨tokens, hTokens, hKinds⟩ := tokenize_of_takes hTakes
  rw [parseText, scanText, hTokens]
  exact parseOne_eq_ok_iff.mpr (d.derives_of_kinds hKinds)

/-- Blanks add no tokens. -/
theorem takes_blanks {gap : List Char} (hSome : gap ≠ []) (hBlank : ∀ c ∈ gap, isSeparator c) :
    Takes Settled Ready gap [] := by
  induction gap with
  | nil => exact absurd rfl hSome
  | cons c gap ih =>
    have hFirst := takes_separator (hBlank c List.mem_cons_self)
    cases gap with
    | nil => exact hFirst
    | cons c' gap =>
      have hRest := ih (List.cons_ne_nil _ _) fun c hc => hBlank c (List.mem_cons_of_mem _ hc)
      exact hFirst.append hRest.ready

/-! ## Values read back -/

namespace Value

/-- The datum that a value is, if it is one: what is left of its pairs without
their identity. -/
def datum? : Value → Option Datum
  | atom a => some (.atom a)
  | pair _ first rest => do return .pair (← first.datum?) (← rest.datum?)
  | _ => none

/-- A pair is a datum when both its parts are. -/
theorem datum?_pair {stamp : Stamp} {first rest : Value} {d : Datum}
    (h : (pair stamp first rest).datum? = some d) :
    ∃ d₁ d₂, first.datum? = some d₁ ∧ rest.datum? = some d₂ ∧ d = .pair d₁ d₂ := by
  simp only [datum?, Option.bind_eq_bind, Option.bind_eq_some_iff, Option.pure_def,
    Option.some.injEq] at h
  obtain ⟨d₁, h₁, d₂, h₂, rfl⟩ := h
  exact ⟨d₁, d₂, h₁, h₂, rfl⟩

mutual

/-- A value that is a datum is written as the datum is. -/
theorem write_eq {written : String} {v : Value} {d : Datum} (h : v.datum? = some d) :
    v.write written = d.writeWith Atom.text written := by
  match v with
  | atom a =>
    cases h
    rfl
  | pair stamp first rest =>
    obtain ⟨d₁, d₂, h₁, h₂, rfl⟩ := datum?_pair h
    rw [write, Datum.writeWith, write_eq h₁, writeTail_eq h₂]

/-- The rest of a list that is a datum is written as the rest of that datum. -/
theorem writeTail_eq {written : String} {v : Value} {d : Datum} (h : v.datum? = some d) :
    v.writeTail written = d.writeTailWith Atom.text written := by
  match v with
  | nil | boolean _ | number _ | symbol _ | string _ =>
    cases h
    rfl
  | pair stamp first rest =>
    obtain ⟨d₁, d₂, h₁, h₂, rfl⟩ := datum?_pair h
    rw [writeTail, Datum.writeTailWith, write_eq h₁, writeTail_eq h₂]

end

/-- A value that is a datum is written as that datum. -/
theorem text_eq {v : Value} {d : Datum} (h : v.datum? = some d) : v.text = d.text :=
  write_eq h

end Value

/-- The text is that of the values, one after the other, with blanks between
each two. -/
inductive Joined : List Value → String → Prop
  | none : Joined [] ""
  | last (v : Value) : Joined [v] v.text
  | more {v w : Value} {vs : List Value} {gap rest : String} (hSome : gap ≠ "")
      (hBlank : ∀ c ∈ gap.toList, isSeparator c) (h : Joined (w :: vs) rest) :
      Joined (v :: w :: vs) (v.text ++ gap ++ rest)

/-- The text of a value that is a datum is scanned as the tokens meant by it. -/
theorem Value.takes_text {v : Value} {d : Datum} (h : v.datum? = some d) (hReadable : d.Readable) :
    Takes Ready Settled v.text.toList d.kinds := by
  rw [text_eq h, Datum.toList_text]
  exact d.takes_spelling hReadable

/-- The text of some values is scanned as the tokens meant by their data. -/
theorem Joined.takes {vs : List Value} {text : String} (h : Joined vs text) {ds : List Datum}
    (hData : vs.map Value.datum? = ds.map some) (hReadable : ∀ d ∈ ds, d.Readable) :
    Takes Ready Settled text.toList (ds.flatMap Datum.kinds) := by
  induction h generalizing ds with
  | none =>
    obtain rfl : ds = [] := by simpa using hData
    -- nothing is fed: the scanner stays where it is
    exact fun s before hs => ⟨s, rfl, (List.append_nil before).symm ▸ hs.settled⟩
  | last v =>
    obtain ⟨d, ds, rfl⟩ := List.exists_cons_of_ne_nil (l := ds) (by rintro rfl; cases hData)
    obtain ⟨hd, hNone⟩ := List.cons.inj hData
    obtain rfl : ds = [] := by simpa using hNone
    rw [List.flatMap_singleton]
    exact Value.takes_text hd (hReadable d List.mem_cons_self)
  | @more v w vs gap rest hSome hBlank h ih =>
    obtain ⟨d, ds, rfl⟩ := List.exists_cons_of_ne_nil (l := ds) (by rintro rfl; cases hData)
    obtain ⟨hd, hRest⟩ := List.cons.inj hData
    have hFirst := Value.takes_text hd (hReadable d List.mem_cons_self)
    -- The gap ends the last word of the first value, so the rest begins with nothing in hand.
    have hGap := takes_blanks (by simpa using hSome) hBlank
    have hRest := ih hRest fun d hd => hReadable d (List.mem_cons_of_mem _ hd)
    rw [String.toList_append, String.toList_append, List.flatMap_cons, List.append_assoc]
    exact hFirst.append (hGap.append hRest)

/-- Reading undoes writing. The text of some values that are data, with any
blanks between each two, is read as these data, and the text of one value as its
datum. -/
theorem values_read_back :
    (∀ (vs : List Value) ds text, vs.map Value.datum? = ds.map some → (∀ d ∈ ds, d.Readable) →
      Joined vs text → parseProgram text = .ok ds) ∧
    (∀ (v : Value) d, v.datum? = some d → d.Readable → parseText v.text = .ok d) := by
  constructor
  · intro vs ds text hData hReadable hJoined
    exact parseProgram_of_takes (hJoined.takes hData hReadable)
  · intro v d hData hReadable
    rw [Value.text_eq hData]
    exact parseText_text hReadable

/-- An improper list and the empty list, a line apart. -/
theorem values_read_back_improper :
    let x : Float := .ofBits 0x3FF8000000000000
    let v : Value := .pair 1 (.symbol "a") (.pair 0 (.number x) (.string "\""))
    let d : Datum := .pair (.symbol "a") (.pair (.atom (.number x)) (.atom (.string "\"")))
    parseProgram "(a 1.5 . \"\\\"\") \n()" = .ok [d, .nil] ∧ parseText v.text = .ok d := by
  intro x v d
  have hNumber : Binary64.magnitudeBits x < Binary64.infinityBits := by decide
  have hName : ∀ c ∈ "a".toList, isWordChar c := List.all_eq_true.mp (by decide)
  have hReadable : d.Readable := ⟨⟨by decide, hName, by decide⟩, hNumber, trivial⟩
  have hAll : ∀ e ∈ [d, .nil], e.Readable :=
    List.forall_mem_cons.mpr ⟨hReadable, by simp [Datum.Readable, Atom.Readable]⟩
  have hText : v.text ++ " \n" ++ Value.nil.text = "(a 1.5 . \"\\\"\") \n()" := by decide +kernel
  have hJoined : Joined [v, .nil] (v.text ++ " \n" ++ Value.nil.text) :=
    .more (by decide) (List.all_eq_true.mp (by decide)) (.last _)
  rw [hText] at hJoined
  exact ⟨values_read_back.1 _ _ _ rfl hAll hJoined, values_read_back.2 v d rfl hReadable⟩

end MiniScheme
