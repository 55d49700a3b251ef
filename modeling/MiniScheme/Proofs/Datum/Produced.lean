import MiniScheme.Proofs.Datum.RoundTrip
import MiniScheme.Proofs.Token.Segmentation

/-!
# What the reader yields

A datum that has been read has only symbols whose names are words: they come from words of the
text, or from a mark. So its text can be read again, unless one of its numbers is too large for a
double and was read as an infinity.

* `Datum.Every` — all atoms of a datum;
* `Atom.Worded`, `Atom.Finite` — what the reader must find in an atom to know it;
* `Datum.Produced` — the data that some text is read as;
* `Datum.Produced.worded` — their symbols are words, and `Datum.readable_of_every`: such data
  can be read again where their numbers are finite.
-/

namespace MiniScheme

/-! ## Atoms -/

/-- The name of a symbol is a word that is read as that symbol. -/
def Atom.Worded : Atom → Prop
  | .symbol name => (Atom.symbol name).Readable
  | _ => True

/-- A number is neither an infinity nor a NaN. -/
def Atom.Finite : Atom → Prop
  | .number x => Binary64.magnitudeBits x < Binary64.infinityBits
  | _ => True

/-- A word or a finite number reads back. -/
theorem Atom.readable {a : Atom} (hWorded : a.Worded) (hFinite : a.Finite) : a.Readable := by
  cases a with
  | symbol name => exact hWorded
  | number x => exact hFinite
  | _ => trivial

/-- What is read as a symbol is its name. -/
theorem Lexeme.eq_toList {slice : List Char} {name : String} (h : Lexeme slice (.symbol name)) :
    slice = name.toList := by
  generalize hKind : TokenKind.symbol name = kind at h
  cases h with
  | word hSome hWord =>
    -- it is neither a dot nor a truth value nor a number
    have hName : .ofList slice = name := by
      unfold TokenKind.ofWord at hKind
      split at hKind
      · cases hKind
      · split at hKind
        · cases hKind
        · split at hKind
          · cases hKind
          · split at hKind
            · cases hKind
            · exact (TokenKind.symbol.inj hKind).symm
    rw [← hName, String.toList_ofList]
  | _ => cases hKind

/-- A symbol that a word of the text is read as. -/
theorem Lexeme.worded {slice : List Char} {name : String} (h : Lexeme slice (.symbol name)) :
    (Atom.symbol name).Worded := by
  cases h.eq_toList
  generalize hKind : TokenKind.symbol name = kind at h
  generalize hSlice : name.toList = slice at h
  cases h with
  | word hSome hWord =>
    show name.toList ≠ [] ∧ (∀ c ∈ name.toList, isWordChar c) ∧ _
    rw [hSlice]
    exact ⟨hSome, hWord, hKind.symm⟩
  | _ => cases hKind

/-- The symbol that a mark stands for. -/
theorem Mark.worded (m : Mark) : (Atom.symbol m.symbolName).Worded := by
  cases m <;> exact ⟨by decide, List.all_eq_true.mp (by decide), by decide⟩

/-! ## Data -/

namespace Datum

/-- All atoms of a datum. -/
def Every (p : Atom → Prop) : Datum → Prop
  | .atom a => p a
  | .pair first rest => first.Every p ∧ rest.Every p

/-- A datum of words and finite numbers reads back. -/
theorem readable_of_every {d : Datum} (hWorded : d.Every Atom.Worded)
    (hFinite : d.Every Atom.Finite) : d.Readable := by
  induction d with
  | atom a => exact a.readable hWorded hFinite
  | pair first rest ihFirst ihRest =>
    exact ⟨ihFirst hWorded.1 hFinite.1, ihRest hWorded.2 hFinite.2⟩

/-- What holds of the items and of the tail holds of every atom of the list. -/
theorem every_ofList {p : Atom → Prop} {ds : List Datum} {tail : Datum}
    (hs : ∀ d ∈ ds, d.Every p) (h : tail.Every p) : (ofList ds tail).Every p := by
  induction ds with
  | nil => exact h
  | cons d ds ih =>
    obtain ⟨hFirst, hRest⟩ := List.forall_mem_cons.mp hs
    exact ⟨hFirst, ih hRest⟩

/-- The datum is what some text is read as, or one of the data of a text. -/
def Produced (d : Datum) : Prop :=
  ∃ text, parseText text = .ok d ∨ ∃ ds, parseProgram text = .ok ds ∧ d ∈ ds

end Datum

/-- The token was cut out of a text. -/
def Token.Cut (t : Token) : Prop := ∃ slice, Lexeme slice t.kind

theorem Segmented.cut {position : Nat} {text : List Char} {tokens : List Token}
    (h : Segmented position text tokens) : ∀ t ∈ tokens, t.Cut := by
  induction h with
  | last h => exact nofun
  | token hGap hLexeme hWhole hRest ih => exact List.forall_mem_cons.mpr ⟨⟨_, hLexeme⟩, ih⟩

/-- The atom of a piece is spelt by a word. -/
theorem Token.Cut.worded {t : Token} {a : Atom} (h : t.Cut) (hAtom : t.kind.atom? = some a) :
    a.Worded := by
  obtain ⟨slice, hLexeme⟩ := h
  cases hKind : t.kind with
  | symbol name =>
    rw [hKind] at hAtom hLexeme
    cases hAtom
    exact hLexeme.worded
  | number x | boolean b | string s =>
    rw [hKind] at hAtom
    cases hAtom
    trivial
  | _ =>
    rw [hKind] at hAtom
    cases hAtom

mutual

/-- Tokens cut out of a text spell data with words for their symbols. -/
theorem Derives.worded {ts : List Token} {d : Datum} (h : Derives ts d) (hCut : ∀ t ∈ ts, t.Cut) :
    d.Every Atom.Worded := by
  match ts, d, h with
  | _, _, .atom hAtom => exact (hCut _ List.mem_cons_self).worded hAtom
  | _, _, .marked hMark h =>
    have hDatum := h.worded (List.forall_mem_cons.mp hCut).2
    exact ⟨Mark.worded _, hDatum, trivial⟩
  | _, _, .list hOpen h hClose =>
    have hInside := (List.forall_mem_append.mp (List.forall_mem_cons.mp hCut).2).1
    exact Datum.every_ofList (h.worded hInside) trivial
  | _, _, .dotted hOpen h hSome hDot hTail hClose =>
    obtain ⟨hInside, hEnd⟩ := List.forall_mem_append.mp (List.forall_mem_cons.mp hCut).2
    have hLast := (List.forall_mem_append.mp (List.forall_mem_cons.mp hEnd).2).1
    exact Datum.every_ofList (h.worded hInside) (hTail.worded hLast)

/-- Data spelt by pieces of a text hold words only. -/
theorem DerivesAll.worded {ts : List Token} {ds : List Datum} (h : DerivesAll ts ds)
    (hCut : ∀ t ∈ ts, t.Cut) : ∀ d ∈ ds, d.Every Atom.Worded := by
  match ts, ds, h with
  | _, _, .nil => exact nofun
  | _, _, .cons h hs =>
    obtain ⟨hFirst, hRest⟩ := List.forall_mem_append.mp hCut
    exact List.forall_mem_cons.mpr ⟨h.worded hFirst, hs.worded hRest⟩

end

/-! ## Texts -/

/-- The tokens of a text are cut out of it. -/
theorem scanText_cut {text : String} {tokens : List Token} (h : scanText text = .ok tokens) :
    ∀ t ∈ tokens, t.Cut := by
  unfold scanText at h
  cases hTokens : tokenize text with
  | ok found =>
    rw [hTokens] at h
    cases h
    exact (tokenizeAt_eq_ok_iff.mp hTokens).cut
  | error e =>
    rw [hTokens] at h
    cases h

namespace Datum.Produced

variable {d : Datum}

/-- The symbols of what is read have words for their names. -/
theorem worded (h : d.Produced) : d.Every Atom.Worded := by
  obtain ⟨text, hOne | ⟨ds, hAll, hMem⟩⟩ := h
  · unfold parseText at hOne
    cases hScan : scanText text with
    | ok tokens =>
      rw [hScan] at hOne
      exact (parseOne_eq_ok_iff.mp hOne).worded (scanText_cut hScan)
    | error e =>
      rw [hScan] at hOne
      cases hOne
  · unfold parseProgram at hAll
    cases hScan : scanText text with
    | ok tokens =>
      rw [hScan] at hAll
      exact (parseAll_eq_ok_iff.mp hAll).worded (scanText_cut hScan) d hMem
    | error e =>
      rw [hScan] at hAll
      cases hAll

end Datum.Produced
end MiniScheme
