import MiniScheme.Proofs.Procedure.LetNames
import MiniScheme.Proofs.Procedure.WellFormed

/-!
# How parameter lists are spelt

A parameter list is a row of words that ends in the empty list or in the name for all
further arguments. The words are the required names and, after the marker, the optional
ones. No name stands in it twice, and the marker is none of the positional names.

* `Value.Symbols` — a row of words and how it ends;
* `Formals.Spelt` — the parameter lists and their spelling;
* `Formals.Read` — what has been declared after some words, and `Read.declare` for one more;
* `Formals.parse_eq_ok_iff` — exactly what is spelt so is read;
* `Formals.ofNames_isOk_iff` — names by themselves are a parameter list if they differ.
-/

namespace MiniScheme

/-! ## Spelling -/

/-- A chain of symbols that ends in the empty list, or in one more symbol. -/
inductive Value.Symbols : Value → List String → Option String → Prop
  | nil : Symbols .nil [] none
  | last (name : String) : Symbols (.symbol name) [] (some name)
  | cons {stamp : Stamp} {name : String} {rest : Value} {names : List String}
      {last : Option String} (h : Symbols rest names last) :
      Symbols (.pair stamp (.symbol name) rest) (name :: names) last

namespace Formals

/-- The words of a parameter list before the name for all further arguments. The marker may
stand there with no name after it. -/
inductive Words (f : Formals) : List String → Prop
  | plain (h : f.optional = []) : Words f f.required
  | marked : Words f (f.required ++ optionalMarker :: f.optional)

/-- The value spells this parameter list. -/
structure Spelt (f : Formals) (v : Value) : Prop where
  symbols : ∃ words, v.Symbols words f.rest ∧ f.Words words
  names_nodup : f.names.Nodup
  marker_not_mem : optionalMarker ∉ f.positional

/-- What has been declared after some words. -/
structure Read (f : Formals) (seenMarker : Bool) (words : List String) : Prop where
  rest_eq : f.rest = none
  names_nodup : f.names.Nodup
  marker_not_mem : optionalMarker ∉ f.positional
  words_eq : if seenMarker then words = f.required ++ optionalMarker :: f.optional
    else f.optional = [] ∧ words = f.required

variable {f g : Formals} {seenMarker seenMarker' : Bool} {name : String}
  {names words : List String} {last : Option String} {v : Value}

theorem read_empty : empty.Read false [] :=
  ⟨rfl, List.nodup_nil, List.not_mem_nil, rfl, rfl⟩

namespace Read

/-- Parameters read so far are the words read so far. -/
theorem spells (h : f.Read seenMarker words) : f.Words words := by
  have hEq := h.words_eq
  cases seenMarker with
  | true =>
    rw [if_pos rfl] at hEq
    rw [hEq]
    exact .marked
  | false =>
    obtain ⟨hOptional, rfl⟩ := (if_neg Bool.false_ne_true).mp hEq
    exact .plain hOptional

/-- The words read so far are different. -/
theorem words_nodup (h : f.Read seenMarker words) : words.Nodup := by
  have hPositional : f.positional.Nodup := (List.nodup_append.mp h.names_nodup).1
  cases h.spells with
  | plain hOptional => exact (List.nodup_append.mp hPositional).1
  | marked => exact List.nodup_middle.mpr (List.nodup_cons.mpr ⟨h.marker_not_mem, hPositional⟩)

/-- One more word. -/
theorem declare (h : f.Read seenMarker words)
    (hDeclare : f.declare seenMarker name = .ok (g, seenMarker')) :
    g.Read seenMarker' (words ++ [name]) := by
  have hNodup := declare_nodup hDeclare h.names_nodup
  have hEq := h.words_eq
  have hMarker := h.marker_not_mem
  unfold Formals.declare at hDeclare
  split at hDeclare
  · -- the marker
    rename_i hName
    split at hDeclare
    · cases hDeclare
    · rename_i hNotSeen
      cases hDeclare
      obtain ⟨hOptional, rfl⟩ := (if_neg hNotSeen).mp hEq
      refine ⟨h.rest_eq, hNodup, hMarker, ?_⟩
      rw [if_pos rfl, hName, hOptional]
  · rename_i hName
    split at hDeclare
    · cases hDeclare
    · have hNot : optionalMarker ∉ f.required ∧ optionalMarker ∉ f.optional :=
        not_or.mp (mt List.mem_append.mpr hMarker)
      split at hDeclare
      · -- an optional name
        rename_i hSeen
        cases hDeclare
        rw [if_pos hSeen] at hEq
        refine ⟨h.rest_eq, hNodup, ?_, ?_⟩
        · simpa [positional, Ne.symm hName] using hNot
        · rw [if_pos rfl, hEq, List.append_assoc]
          rfl
      · -- a required name
        rename_i hNotSeen
        cases hDeclare
        obtain ⟨hOptional, rfl⟩ := (if_neg hNotSeen).mp hEq
        refine ⟨h.rest_eq, hNodup, ?_, hOptional, rfl⟩
        simpa [positional, Ne.symm hName] using hNot

/-- Declaring further names reads on with them as words. -/
theorem declareAll (h : f.Read seenMarker words)
    (hDeclare : f.declareAll seenMarker names = .ok g) :
    ∃ seenMarker', g.Read seenMarker' (words ++ names) := by
  induction names generalizing f seenMarker words with
  | nil =>
    cases hDeclare
    exact ⟨seenMarker, by rwa [List.append_nil]⟩
  | cons name names ih =>
    rw [Formals.declareAll] at hDeclare
    split at hDeclare
    · rename_i f' seenMarker' hName
      rw [List.append_cons]
      exact ih (h.declare hName) hDeclare
    · cases hDeclare

end Read

/-! ## Reading -/

/-- Reading a row of words is declaring them, and then the name at its end. -/
theorem parseOnto_of_symbols (h : v.Symbols words last) :
    f.parseOnto seenMarker v = (f.declareAll seenMarker words).bind fun g =>
      match last with
      | none => .ok g
      | some name => g.declareRest name := by
  induction h generalizing f seenMarker with
  | nil => rfl
  | last name => rfl
  | @cons stamp name rest names last h ih =>
    rw [parseOnto, declareAll]
    cases f.declare seenMarker name with
    | ok declared => exact ih
    | error e => rfl

/-- Only rows of words are read. -/
theorem symbols_of_parseOnto (h : f.parseOnto seenMarker v = .ok g) :
    ∃ words last, v.Symbols words last := by
  fun_induction parseOnto f seenMarker v with
  | case1 => exact ⟨[], none, .nil⟩
  | case2 f seenMarker name => exact ⟨[], some name, .last name⟩
  | case3 f seenMarker stamp name rest next seenMarker' hDeclare ih =>
    obtain ⟨words, last, hRest⟩ := ih h
    exact ⟨name :: words, last, .cons hRest⟩
  | case4 => cases h
  | case5 => cases h
  | case6 => cases h

/-- Declaring the words of a parameter list gives its positional names. -/
theorem declareAll_of_words (hWords : f.Words words) (hNodup : f.positional.Nodup)
    (hMarker : optionalMarker ∉ f.positional) :
    empty.declareAll false words = .ok ⟨f.required, f.optional, none⟩ := by
  have hNot : optionalMarker ∉ f.required := fun hMem => hMarker (List.mem_append_left _ hMem)
  have hRequired : ∀ rest, empty.declareAll false (f.required ++ rest) =
      (⟨[] ++ f.required, [], none⟩ : Formals).declareAll false rest :=
    fun rest => declareAll_required rest (List.nodup_append.mp hNodup).1 hNot
  cases hWords with
  | plain hOptional =>
    have hAll := hRequired []
    rw [List.append_nil] at hAll
    rw [hAll, hOptional]
    rfl
  | marked =>
    rw [hRequired, Formals.declareAll, Formals.declare, if_pos rfl]
    refine declareAll_optional ?_ fun hMem => hMarker (List.mem_append_right _ hMem)
    simpa [positional] using hNodup

/-- **Parameter lists.** What is read as a parameter list is exactly what spells it. -/
theorem parse_eq_ok_iff : parse v = .ok f ↔ f.Spelt v := by
  constructor
  · intro h
    obtain ⟨words, last, hSymbols⟩ := symbols_of_parseOnto h
    have hNodup := parse_nodup h
    rw [parse, parseOnto_of_symbols hSymbols] at h
    cases hDeclare : empty.declareAll false words with
    | error e =>
      rw [hDeclare] at h
      cases h
    | ok g =>
      rw [hDeclare] at h
      obtain ⟨seenMarker, hRead⟩ := read_empty.declareAll hDeclare
      have hWords := hRead.spells
      rw [List.nil_append] at hWords
      cases last with
      | none =>
        cases h
        exact ⟨⟨words, hRead.rest_eq ▸ hSymbols, hWords⟩, hNodup, hRead.marker_not_mem⟩
      | some name =>
        replace h : g.declareRest name = .ok f := h
        unfold declareRest at h
        split at h
        · cases h
        · cases h
          refine ⟨⟨words, hSymbols, ?_⟩, hNodup, hRead.marker_not_mem⟩
          cases hWords with
          | plain hOptional => exact .plain hOptional
          | marked => exact .marked
  · rintro ⟨⟨words, hSymbols, hWords⟩, hNodup, hMarker⟩
    obtain ⟨hPositional, -, hApart⟩ := List.nodup_append.mp hNodup
    rw [parse, parseOnto_of_symbols hSymbols, declareAll_of_words hWords hPositional hMarker]
    obtain ⟨required, optional, rest⟩ := f
    cases rest with
    | none => rfl
    | some name =>
      have hNew : name ∉ (⟨required, optional, none⟩ : Formals).names := by
        intro hMem
        have hOld : name ∈ required ++ optional := by simpa [Formals.names, positional] using hMem
        exact hApart name hOld name (List.mem_singleton_self name) rfl
      show declareRest ⟨required, optional, none⟩ name = _
      rw [declareRest, if_neg hNew]

/-- Names by themselves are a parameter list if they are different. -/
theorem ofNames_isOk_iff : (∃ f, ofNames names = .ok f) ↔ names.Nodup := by
  constructor
  · rintro ⟨f, h⟩
    obtain ⟨seenMarker, hRead⟩ := read_empty.declareAll h
    exact hRead.words_nodup
  · intro hNodup
    obtain ⟨f, h, -⟩ := ofNames_of_nodup hNodup
    exact ⟨f, h⟩

end Formals
end MiniScheme
