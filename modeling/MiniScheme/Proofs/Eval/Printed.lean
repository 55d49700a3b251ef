import MiniScheme.Proofs.Datum.Produced
import MiniScheme.Proofs.Eval.Direct
import MiniScheme.Proofs.Eval.Plan
import MiniScheme.Proofs.Machine.World
import MiniScheme.Proofs.Value.Sharing

/-!
# Procedures read back

The text of a procedure looks like the form that makes it. If the form was read from a text, and
all its numbers are finite, the text of the procedure can be read, and what is read makes such a
procedure again: of the same kind, with the same parameters and a body of the same structure.
Only the stamps and the frame are those of the place where it is evaluated.

* `Value.rebuilt_of_datum?` — values that are the same datum are copies of each other;
* `Formals.datum` — a parameter list as it is written, and `Formals.text_datum`;
* `Formals.Spelt.of_datum` — what is written is read as the same parameter list;
* `Value.compound_text_eq` — a procedure is written as the form that makes it;
* `Form.Makes` — the forms that make procedures, and `Form.Makes.evaluate`;
* `printed_procedures_read_back` — both together.
-/

namespace MiniScheme

/-! ## Values made of data -/

namespace Value

variable {v w : Value} {d : Datum} {a : Atom}

/-- Only an atom is an atom of the data. -/
theorem eq_atom_of_datum? (h : v.datum? = some (.atom a)) : v = .atom a := by
  cases v with
  | atom b =>
    cases h
    rfl
  | pair s first rest =>
    obtain ⟨d₁, d₂, -, -, hPair⟩ := datum?_pair h
    cases hPair
  | _ => cases h

/-- Only a pair of data is a pair of the data. -/
theorem eq_pair_of_datum? {d₁ d₂ : Datum} (h : v.datum? = some (.pair d₁ d₂)) :
    ∃ s first rest, v = .pair s first rest ∧ first.datum? = some d₁ ∧ rest.datum? = some d₂ := by
  cases v with
  | pair s first rest =>
    obtain ⟨e₁, e₂, h₁, h₂, hPair⟩ := datum?_pair h
    cases hPair
    exact ⟨s, first, rest, rfl, h₁, h₂⟩
  | _ => cases h

/-- A datum that is made into a value is still that datum. -/
theorem datum?_ofDatum (next : Stamp) (d : Datum) : (ofDatum next d).1.datum? = some d := by
  induction d generalizing next with
  | atom a => rfl
  | pair first rest ihFirst ihRest =>
    simp only [ofDatum, datum?, ihFirst, ihRest]
    rfl

theorem datum?_load (m : Machine) (d : Datum) : (m.load d).1.datum? = some d :=
  datum?_ofDatum m.nextStamp d

/-- Values that are the same datum are copies of each other. -/
theorem rebuilt_of_datum? (hv : v.datum? = some d) (hw : w.datum? = some d) : v.Rebuilt w := by
  induction d generalizing v w with
  | atom a =>
    rw [eq_atom_of_datum? hv, eq_atom_of_datum? hw]
    exact .refl _
  | pair d₁ d₂ ih₁ ih₂ =>
    obtain ⟨s, first, rest, rfl, hFirst, hRest⟩ := eq_pair_of_datum? hv
    obtain ⟨t, first', rest', rfl, hFirst', hRest'⟩ := eq_pair_of_datum? hw
    exact .pair (ih₁ hFirst hFirst') (ih₂ hRest hRest')

theorem Rebuilt.isList_eq (h : v.Rebuilt w) : v.isList = w.isList := by
  induction h with
  | pair hFirst hRest ihFirst ihRest => exact ihRest
  | other h => rfl

theorem Rebuilt.isBody_eq (h : v.Rebuilt w) : v.isBody = w.isBody := by
  cases h with
  | pair hFirst hRest => exact hRest.isList_eq
  | other h => rfl

end Value

/-! ## Finite numbers -/

open Float.Model in
/-- The exponent of a NaN is all ones. -/
theorem exponent_of_isNaN {b : BitVec (Format.numBits .binary64)}
    (h : (UnpackedFloat.unpack .binary64 b).isNaN) :
    UnpackedFloat.unpackExponent b = -1#(Format.exponentBits .binary64) := by
  rw [UnpackedFloat.unpack] at h
  by_contra hOther
  simp only [if_neg hOther] at h
  split at h
  · split at h <;> cases h
  · cases h

/-- No finite number is a NaN. -/
theorem isNaN_of_finite {x : Float} (h : Binary64.magnitudeBits x < Binary64.infinityBits) :
    x.isNaN = false := by
  obtain ⟨⟨bits, hValid⟩⟩ := x
  rw [Bool.eq_false_iff]
  intro hNaN
  have hExponent : bits.toBitVec.extractLsb' 52 11 = -1#11 := exponent_of_isNaN hNaN
  have hOnes : bits.toNat / 2 ^ 52 % 2 ^ 11 = 2047 := by
    have hNat := congrArg BitVec.toNat hExponent
    rw [BitVec.extractLsb'_toNat, Nat.shiftRight_eq_div_pow] at hNat
    exact hNat
  have hLess : bits.toNat % 2 ^ 63 < 2047 * 2 ^ 52 := h
  omega

/-- In a value of finite numbers there is no NaN. -/
theorem Value.holdsNaN_of_finite {v : Value} {d : Datum} (h : v.datum? = some d)
    (hFinite : d.Every Atom.Finite) : v.holdsNaN = false := by
  induction d generalizing v with
  | atom a =>
    rw [eq_atom_of_datum? h]
    cases a with
    | number x => exact isNaN_of_finite hFinite
    | _ => rfl
  | pair d₁ d₂ ih₁ ih₂ =>
    obtain ⟨s, first, rest, rfl, hFirst, hRest⟩ := eq_pair_of_datum? h
    rw [holdsNaN, ih₁ hFirst hFinite.1, ih₂ hRest hFinite.2]
    rfl

/-- Values that are the same datum have the same structure, if its numbers are finite. -/
theorem Value.structural_of_datum? {v w : Value} {d : Datum} (hv : v.datum? = some d)
    (hw : w.datum? = some d) (hFinite : d.Every Atom.Finite) : v.structural w := by
  rw [structural_rebuilt (.refl v) (rebuilt_of_datum? hv hw), structural_self,
    holdsNaN_of_finite hv hFinite]
  rfl

/-! ## Texts -/

namespace Datum

/-- Writing a datum adds its text to what is written. -/
theorem writeWith_eq (written : String) (d : Datum) :
    writeWith Atom.text written d = written ++ d.text := by
  apply String.toList_injective
  rw [toList_writeWith, String.toList_append, toList_text]

/-- The symbols of a list are written with blanks between them. -/
theorem writeTailWith_symbols (written first : String) (names : List String) (tail : Datum) :
    writeTailWith Atom.text (written ++ first) (ofList (names.map .symbol) tail) =
      writeTailWith Atom.text (written ++ " ".intercalate (first :: names)) tail := by
  induction names generalizing first with
  | nil =>
    rw [String.intercalate_singleton]
    rfl
  | cons name names ih =>
    show writeTailWith Atom.text (written ++ first ++ " " ++ name)
      (ofList (names.map .symbol) tail) = _
    rw [String.append_assoc, String.append_assoc, ih, ← String.append_assoc,
      String.intercalate_cons_append, String.intercalate_cons_cons]

/-- The text of symbols before a tail is that of the words with blanks between them. -/
theorem text_symbols (first : String) (names : List String) (tail : Datum) :
    (ofList ((first :: names).map .symbol) tail).text =
      writeTailWith Atom.text ("(" ++ " ".intercalate (first :: names)) tail := by
  have hEmpty : "" ++ "(" = "(" := rfl
  show writeTailWith Atom.text ("" ++ "(" ++ first) (ofList (names.map .symbol) tail) = _
  rw [hEmpty, writeTailWith_symbols]

end Datum

/-! ## Parameter lists -/

namespace Formals

variable {f : Formals} {words : List String} {last : Option String} {v v' : Value} {d : Datum}

/-- What a list with these elements ends in. -/
def endDatum : Option String → Datum
  | none => .nil
  | some name => .symbol name

/-- The parameter list as it is written: a lone name for all arguments stands without a list. -/
def datum (f : Formals) : Datum :=
  match f.positional, f.rest with
  | [], some rest => .symbol rest
  | _, rest => .ofList (f.elements.map .symbol) (endDatum rest)

/-- Parameters with a positional one begin with it. -/
theorem elements_cons (h : f.positional ≠ []) : ∃ first names, f.elements = first :: names := by
  obtain ⟨required, optional, rest⟩ := f
  refine List.exists_cons_of_ne_nil ?_
  cases optional with
  | nil => simpa [positional, elements] using h
  | cons name names => simp [elements]

theorem elements_nil (h : f.positional = []) : f.elements = [] := by
  obtain ⟨hRequired, hOptional⟩ := List.append_eq_nil_iff.mp h
  rw [elements, if_pos hOptional, hRequired]

/-- The text of the parameter list is the text of the datum. -/
theorem text_datum (f : Formals) : f.datum.text = f.text := by
  unfold datum text
  cases hPositional : f.positional with
  | nil =>
    rw [elements_nil hPositional]
    cases f.rest with
    | none => rfl
    | some rest => rfl
  | cons name names =>
    obtain ⟨first, more, hElements⟩ := elements_cons (f := f) (by rw [hPositional]; simp)
    rw [hElements]
    cases f.rest with
    | none => exact Datum.text_symbols first more .nil
    | some rest => exact Datum.text_symbols first more (.symbol rest)

/-- A value that is a list of symbols with its end is a row of words. -/
theorem symbols_of_datum (h : v.datum? = some (.ofList (words.map .symbol) (endDatum last))) :
    v.Symbols words last := by
  induction words generalizing v with
  | nil =>
    cases last with
    | none =>
      rw [Value.eq_atom_of_datum? h]
      exact .nil
    | some name =>
      rw [Value.eq_atom_of_datum? h]
      exact .last name
  | cons word words ih =>
    obtain ⟨s, first, rest, rfl, hFirst, hRest⟩ := Value.eq_pair_of_datum? h
    rw [Value.eq_atom_of_datum? hFirst]
    exact .cons (ih hRest)

/-- The elements that are written are words of the parameter list. -/
theorem words_elements (f : Formals) : f.Words f.elements := by
  unfold elements
  split
  · rename_i hOptional
    exact .plain hOptional
  · exact .marked

/-- What is written is read as the same parameter list. -/
theorem Spelt.of_datum (h : f.Spelt v) (hDatum : v'.datum? = some f.datum) : f.Spelt v' := by
  refine ⟨⟨f.elements, ?_, words_elements f⟩, h.names_nodup, h.marker_not_mem⟩
  unfold datum at hDatum
  split at hDatum
  · rename_i hPositional hRest
    rw [elements_nil hPositional, hRest]
    exact symbols_of_datum hDatum
  · exact symbols_of_datum hDatum

/-- The symbols of a datum of words are words. -/
theorem worded_of_symbols (h : v.Symbols words last) (hDatum : v.datum? = some d)
    (hWorded : d.Every Atom.Worded) :
    ∀ name ∈ words ++ last.toList, (Atom.symbol name).Worded := by
  induction h generalizing d with
  | nil => exact nofun
  | last name =>
    cases hDatum
    exact List.forall_mem_singleton.mpr hWorded
  | @cons s name rest words last h ih =>
    obtain ⟨d₁, d₂, hFirst, hRest, rfl⟩ := Value.datum?_pair hDatum
    cases hFirst
    exact List.forall_mem_cons.mpr ⟨hWorded.1, ih hRest hWorded.2⟩

/-- The names of a parameter list that was read are words. -/
theorem Spelt.worded (h : f.Spelt v) (hDatum : v.datum? = some d) (hWorded : d.Every Atom.Worded) :
    ∀ name ∈ f.names, (Atom.symbol name).Worded := by
  obtain ⟨⟨words, hSymbols, hWords⟩, -, -⟩ := h
  have hAll := worded_of_symbols hSymbols hDatum hWorded
  intro name hMem
  refine hAll name ?_
  obtain hPositional | hRest := List.mem_append.mp hMem
  · exact List.mem_append_left _ (hWords.mem_of_mem hPositional)
  · exact List.mem_append_right _ hRest

theorem marker_worded : (Atom.symbol optionalMarker).Worded :=
  ⟨by decide, List.all_eq_true.mp (by decide), by decide⟩

/-- The elements of a parameter list are its names and the marker. -/
theorem mem_names_of_mem_elements {name : String} (h : name ∈ f.elements) :
    name ∈ f.names ∨ name = optionalMarker := by
  unfold elements at h
  split at h
  · exact .inl (List.mem_append_left _ (List.mem_append_left _ h))
  · obtain hRequired | hMarked := List.mem_append.mp h
    · exact .inl (List.mem_append_left _ (List.mem_append_left _ hRequired))
    · obtain rfl | hOptional := List.mem_cons.mp hMarked
      · exact .inr rfl
      · exact .inl (List.mem_append_left _ (List.mem_append_right _ hOptional))

/-- What is true of the names and the marker is true of all symbols that are written. -/
theorem every_datum {p : Atom → Prop} (hNames : ∀ name ∈ f.names, p (.symbol name))
    (hMarker : p (.symbol optionalMarker)) (hNil : p .nil) : f.datum.Every p := by
  have hElements : ∀ e ∈ f.elements.map Datum.symbol, e.Every p := by
    intro e hMem
    obtain ⟨name, hName, rfl⟩ := List.mem_map.mp hMem
    obtain hOld | rfl := mem_names_of_mem_elements hName
    · exact hNames name hOld
    · exact hMarker
  have hRest : ∀ rest ∈ f.rest, p (.symbol rest) := fun rest hRest =>
    hNames rest (List.mem_append_right _ (Option.mem_toList.mpr hRest))
  unfold datum
  split
  · rename_i rest hPositional hSome
    exact hRest rest hSome
  · refine Datum.every_ofList hElements ?_
    cases hSome : f.rest with
    | none => exact hNil
    | some rest => exact hRest rest hSome

/-- A parameter list that was read can be read from its text. -/
theorem Spelt.datum_readable (h : f.Spelt v) (hDatum : v.datum? = some d)
    (hWorded : d.Every Atom.Worded) : f.datum.Readable :=
  Datum.readable_of_every (every_datum (h.worded hDatum hWorded) marker_worded trivial)
    (every_datum (fun _ _ => trivial) trivial trivial)

end Formals

/-! ## Procedures -/

variable {s t : Stamp} {name : String} {form : Form} {forms : FormTable} {formals : Formals}
  {kind : FrameId → CompoundKind} {params body operands p : Value} {env : FrameId} {m n : Machine}

/-- A procedure is written as the form that makes it. -/
theorem Value.compound_text_eq {b : Datum} (k : CompoundKind) (h : body.datum? = some b) :
    (compound s k formals body).text =
      (Datum.pair (.symbol k.keyword) (.pair formals.datum b)).text := by
  show writeTail ("" ++ "(" ++ k.keyword ++ " " ++ formals.text) body =
    Datum.writeTailWith Atom.text
      (Datum.writeWith Atom.text ("" ++ "(" ++ k.keyword ++ " ") formals.datum) b
  rw [Datum.writeWith_eq, formals.text_datum, writeTail_eq h]

/-- The forms that make procedures, each with the kind that it makes in a frame. -/
inductive Form.Makes : Form → (FrameId → CompoundKind) → Prop
  | lambda : Makes .lambda .lambda
  | mu : Makes .mu fun _ => .mu

namespace Form.Makes

theorem keyword_eq (h : form.Makes kind) (env : FrameId) : (kind env).keyword = form.keyword := by
  cases h <;> rfl

theorem keyword_worded (h : form.Makes kind) : (Atom.symbol form.keyword).Worded := by
  cases h <;> exact ⟨by decide, List.all_eq_true.mp (by decide), by decide⟩

/-- A form that makes procedures makes one of its operands. -/
theorem eval_eq (h : form.Makes kind) (run : Runner) (operands : Value) (env : FrameId) :
    form.eval run operands env = finished (evalProcedure form (kind env) operands) := by
  cases h <;> rfl

/-- Parameters and a body make a procedure. -/
theorem evaluate (h : form.Makes kind) (hName : forms.lookup name = some form)
    (hParams : Formals.parse params = .ok formals) (hBody : body.isBody) (fuel : Nat) :
    MiniScheme.evaluate forms (fuel + 1) (.pair s (.symbol name) (.pair t params body)) env =
      Eval.makeProcedure (kind env) formals body := by
  have hOperands : (Value.pair t params body).isList := (Value.items_of_isBody hBody).1
  rw [MiniScheme.evaluate, runTask_succ, Task.step, step_form hName hOperands, h.eval_eq,
    Direct.finished_complete]
  simp only [evalProcedure, checkOperands_of_isBody hBody, parseFormals, hParams]
  rfl

/-- Nothing else makes one. -/
theorem of_evaluate (h : form.Makes kind) (hName : forms.lookup name = some form) {fuel : Nat}
    (hValue : MiniScheme.evaluate forms fuel (.pair s (.symbol name) operands) env m =
      .value p n) :
    ∃ t params body formals, operands = .pair t params body ∧ Formals.Spelt formals params ∧
      body.isBody ∧ p = .compound m.nextStamp (kind env) formals body := by
  cases fuel with
  | zero => cases hValue
  | succ fuel =>
    by_cases hList : operands.isList
    -- A well-written use makes the procedure; any other is refused and has no value.
    · obtain ⟨t, formals, params, body, hSpelt, hBody, rfl⟩ | ⟨fault, hRefused⟩ :=
        evalProcedure_cases form kind operands
      · rw [h.evaluate hName (Formals.parse_eq_ok_iff.mpr hSpelt) hBody] at hValue
        cases hValue
        exact ⟨t, params, body, formals, rfl, hSpelt, hBody, rfl⟩
      · have hFails : evalProcedure form (kind env) operands = Eval.fail _ :=
          hRefused (runTask forms fuel) env
        rw [MiniScheme.evaluate, runTask_succ, Task.step, step_form hName hList, h.eval_eq,
          Direct.finished_complete, hFails] at hValue
        cases hValue
    · -- an improper list of operands is no combination
      have hNone : operands.toList? = none := if_neg hList
      rw [MiniScheme.evaluate, runTask_succ, Task.step, step] at hValue
      simp only [hNone] at hValue
      cases hValue

end Form.Makes

/-- What the text of a procedure is read as makes such a procedure again. -/
theorem Form.Makes.read_back (h : form.Makes kind) (hSpelt : formals.Spelt params)
    (hBody : body.isBody) {dParams b : Datum} (hParams : params.datum? = some dParams)
    (hDatum : body.datum? = some b) (hWorded : dParams.Every Atom.Worded)
    (hReadable : b.Readable) (s : Stamp) (env : FrameId) :
    ∃ d, parseText (Value.compound s (kind env) formals body).text = .ok d ∧
      ∀ env' m' fuel, ∃ s' body' n',
        MiniScheme.evaluate .standard (fuel + 1) (Machine.load m' d).1 env' (m'.load d).2 =
          .value (.compound s' (kind env') formals body') n' ∧ body'.datum? = some b := by
  refine ⟨.pair (.symbol form.keyword) (.pair formals.datum b), ?_, fun env' m' fuel => ?_⟩
  · rw [Value.compound_text_eq _ hDatum, h.keyword_eq]
    exact parseText_text ⟨h.keyword_worded, hSpelt.datum_readable hParams hWorded, hReadable⟩
  · have hLoad := Value.datum?_load m' (.pair (.symbol form.keyword) (.pair formals.datum b))
    generalize m'.load (.pair (.symbol form.keyword) (.pair formals.datum b)) = loaded at hLoad ⊢
    obtain ⟨v, m''⟩ := loaded
    -- What is read back is a copy: the same data under other stamps.
    obtain ⟨s', first, rest, rfl, hFirst, hRest⟩ := Value.eq_pair_of_datum? hLoad
    obtain ⟨t', params', body', rfl, hParams', hBody'⟩ := Value.eq_pair_of_datum? hRest
    rw [Value.eq_atom_of_datum? hFirst]
    have hCopy : body'.isBody :=
      (Value.rebuilt_of_datum? hDatum hBody').isBody_eq.symm.trans hBody
    rw [h.evaluate (FormTable.standard_isComplete form)
      (Formals.parse_eq_ok_iff.mpr (hSpelt.of_datum hParams')) hCopy]
    exact ⟨_, body', _, rfl, hBody'⟩

/-- **Procedures.** A parameter list that was read from a text is written so that it is read as the
same parameter list.

If a form that makes procedures was read from a text, with finite numbers only, and evaluates to a
procedure, the text of the procedure can be read. What is read evaluates under the standard names
of the forms, in every frame, to a procedure of the same kind with the same parameters and a body
of the same structure, and so with the same text. -/
theorem printed_procedures_read_back :
    (∀ d v (formals : Formals), d.Produced → v.datum? = some d → Formals.parse v = .ok formals →
      ∃ d', parseText formals.text = .ok d' ∧
        ∀ m : Machine, Formals.parse (m.load d').1 = .ok formals) ∧
    ∀ forms name form kind rest v fuel env m p n,
      forms.lookup name = some form → form.Makes kind →
      (Datum.pair (.symbol name) rest).Produced →
      (Datum.pair (.symbol name) rest).Every Atom.Finite →
      v.datum? = some (.pair (.symbol name) rest) → evaluate forms fuel v env m = .value p n →
      ∃ s formals body d, p = .compound s (kind env) formals body ∧ parseText p.text = .ok d ∧
        ∀ env' m' fuel', ∃ s' body' n',
          evaluate .standard (fuel' + 1) (Machine.load m' d).1 env' (m'.load d).2 =
            .value (.compound s' (kind env') formals body') n' ∧
          body'.datum? = body.datum? ∧ body.structural body' = true ∧
          (Value.compound s' (kind env') formals body').text = p.text := by
  constructor
  · intro d v formals hProduced hDatum hParse
    have hSpelt := Formals.parse_eq_ok_iff.mp hParse
    refine ⟨formals.datum, ?_, fun m => ?_⟩
    · rw [← formals.text_datum]
      exact parseText_text (hSpelt.datum_readable hDatum hProduced.worded)
    · exact Formals.parse_eq_ok_iff.mpr (hSpelt.of_datum (Value.datum?_load m _))
  · intro forms name form kind rest v fuel env m p n hName hMakes hProduced hFinite hDatum hValue
    obtain ⟨s, first, operands, rfl, hFirst, hOperands⟩ := Value.eq_pair_of_datum? hDatum
    rw [Value.eq_atom_of_datum? hFirst] at hValue
    obtain ⟨t, params, body, formals, rfl, hSpelt, hBody, rfl⟩ := hMakes.of_evaluate hName hValue
    obtain ⟨dParams, b, hParams, hBodyDatum, rfl⟩ := Value.datum?_pair hOperands
    have hWorded : dParams.Every Atom.Worded := hProduced.worded.2.1
    have hReadable : b.Readable := Datum.readable_of_every hProduced.worded.2.2 hFinite.2.2
    -- The parts of the procedure are parts of the expression, which has been read before.
    obtain ⟨d, hRead, hAgain⟩ :=
      hMakes.read_back hSpelt hBody hParams hBodyDatum hWorded hReadable m.nextStamp env
    refine ⟨m.nextStamp, formals, body, d, rfl, hRead, fun env' m' fuel' => ?_⟩
    obtain ⟨s', body', n', hEvaluate, hBody'⟩ := hAgain env' m' fuel'
    refine ⟨s', body', n', hEvaluate, hBody'.trans hBodyDatum.symm,
      Value.structural_of_datum? hBodyDatum hBody' hFinite.2.2, ?_⟩
    rw [Value.compound_text_eq _ hBody', Value.compound_text_eq _ hBodyDatum, hMakes.keyword_eq,
      hMakes.keyword_eq]

/-- The text `(mu (a #!optional b . more) 1.5 b)`. -/
theorem printed_procedures_read_back_mu :
    let params : Datum := .pair (.symbol "a") (.pair (.symbol "#!optional")
      (.pair (.symbol "b") (.symbol "more")))
    let rest : Datum := .pair params (.pair (.atom (.number (.ofBits 0x3FF8000000000000)))
      (.pair (.symbol "b") .nil))
    let loaded := Machine.empty.load (.pair (.symbol "mu") rest)
    let formals : Formals := ⟨["a"], ["b"], some "more"⟩
    let body := (Value.ofDatum 3 (.pair (.atom (.number (.ofBits 0x3FF8000000000000)))
      (.pair (.symbol "b") .nil))).1
    let p : Value := .compound 7 .mu formals body
    (∃ d, parseText formals.text = .ok d ∧
      ∀ m : Machine, Formals.parse (m.load d).1 = .ok formals) ∧
    evaluate .standard 1 loaded.1 0 loaded.2 = .value p { loaded.2 with nextStamp := 8 } ∧
    ∃ d, parseText p.text = .ok d ∧ ∀ env' m' fuel', ∃ s' body' n',
      evaluate .standard (fuel' + 1) (Machine.load m' d).1 env' (m'.load d).2 =
        .value (.compound s' .mu formals body') n' ∧
      body'.datum? = body.datum? ∧ body.structural body' = true ∧
      (Value.compound s' .mu formals body').text = p.text := by
  intro params rest loaded formals body p
  have hParams : params.Produced :=
    ⟨"(a #!optional b . more)", .inl (by decide +kernel)⟩
  have hExpr : (Datum.pair (.symbol "mu") rest).Produced :=
    ⟨"(mu (a #!optional b . more) 1.5 b)", .inl (by decide +kernel)⟩
  have hFinite : (Datum.pair (.symbol "mu") rest).Every Atom.Finite := by
    refine ⟨trivial, ⟨trivial, trivial, trivial, trivial⟩, ?_, trivial, trivial⟩
    show Binary64.magnitudeBits _ < _
    decide
  have hValue : evaluate .standard 1 loaded.1 0 loaded.2 =
      .value p { loaded.2 with nextStamp := 8 } := rfl
  obtain ⟨hLists, hProcedures⟩ := printed_procedures_read_back
  refine ⟨hLists params (Machine.empty.load params).1 formals hParams rfl rfl, hValue, ?_⟩
  obtain ⟨s, formals', body', d, hSame, hRead, hAgain⟩ :=
    hProcedures .standard "mu" .mu _ rest loaded.1 1 0 loaded.2 p _ rfl .mu hExpr hFinite rfl hValue
  obtain ⟨rfl, -, rfl, rfl⟩ := Value.compound.inj hSame
  exact ⟨d, hRead, hAgain⟩

end MiniScheme
