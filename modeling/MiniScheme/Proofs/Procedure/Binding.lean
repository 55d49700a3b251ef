import MiniScheme.Eval.Computation
import MiniScheme.Proofs.Procedure.Spelling
import Mathlib.Data.List.TakeWhile

/-!
# How arguments are bound

A row of words with at most one marker in it spells a parameter list, as long as no name stands
in it twice. A call that has as many arguments as the parameter list allows for makes a frame in
which every parameter is bound once: the positional ones to the arguments in their order, and the
last one to the list of what is left. So no argument is lost, and none is bound twice.

* `Value.items_chain` — what is put into a new list is what comes out of it;
* `Formals.ofWords` — what a row of words spells, and `parse_eq_ok_iff_ofWords`;
* `Formals.accepts_iff` — which counts of arguments fit;
* `Formals.Binds` — the frame of a call, and `makeChildFrame_fits`, `makeChildFrame_misfits`;
* `Formals.every_argument_bound_once` — both together.
-/

namespace MiniScheme

/-! ## New lists -/

namespace Value

/-- The value that comes last in reverse is the first of the chain. -/
theorem chainOfReverse_append (next : Stamp) (tail v : Value) (vs : List Value) :
    chainOfReverse next tail (vs ++ [v]) =
      pair (next + vs.length) v (chainOfReverse next tail vs) := by
  induction vs generalizing next tail with
  | nil => rfl
  | cons u vs ih =>
    rw [List.cons_append, chainOfReverse, ih, chainOfReverse, List.length_cons, Nat.add_assoc,
      Nat.add_comm 1]

theorem chain_cons (next : Stamp) (v : Value) (vs : List Value) (tail : Value) :
    chain next (v :: vs) tail = pair (next + vs.length) v (chain next vs tail) := by
  rw [chain, List.reverse_cons, chainOfReverse_append, List.length_reverse]
  rfl

/-- A chain onto the empty list is a list. -/
theorem isList_chain (next : Stamp) (vs : List Value) : (chain next vs .nil).isList := by
  induction vs with
  | nil => rfl
  | cons v vs ih =>
    rw [chain_cons]
    exact ih

theorem items_chain (next : Stamp) (vs : List Value) : (chain next vs .nil).items = vs := by
  induction vs with
  | nil => rfl
  | cons v vs ih => rw [chain_cons, items_pair, ih]

end Value

/-! ## Names with their values -/

namespace Bindings

variable {names : List String} {vs : List Value}

/-- Names that are different each have the value at their own place. -/
theorem lookup_zip (hNodup : names.Nodup) {i : Nat} {name : String} {v : Value}
    (hName : names[i]? = some name) (hValue : vs[i]? = some v) :
    (names.zip vs).lookup name = some v := by
  -- The names are different, so a later one is not the first.
  induction names generalizing vs i with
  | nil => cases hName
  | cons first names ih =>
    obtain ⟨hFirst, hNodup⟩ := List.nodup_cons.mp hNodup
    cases vs with
    | nil => cases hValue
    | cons u vs =>
      rw [List.zip_cons_cons, List.lookup_cons]
      cases i with
      | zero =>
        cases hName
        cases hValue
        rw [beq_self_eq_true]
      | succ i =>
        rw [List.getElem?_cons_succ] at hName hValue
        have hMem : name ∈ names := List.mem_of_getElem? hName
        have hOther : name ≠ first := fun hEq => hFirst (hEq ▸ hMem)
        rw [beq_eq_false_iff_ne.mpr hOther]
        exact ih hNodup hName hValue

/-- Values that the names have at their own places are all there is. -/
theorem filterMap_eq {get? : String → Option Value}
    (h : ∀ (i : Nat) (name : String), names[i]? = some name → get? name = vs[i]?)
    (hLength : names.length ≤ vs.length) :
    names.filterMap get? = vs.take names.length := by
  induction names generalizing vs with
  | nil => rfl
  | cons name names ih =>
    cases vs with
    | nil => cases hLength
    | cons v vs =>
      have hFirst : get? name = some v := h 0 name rfl
      have hRest : ∀ (i : Nat) (name : String), names[i]? = some name → get? name = vs[i]? :=
        fun i name hName => h (i + 1) name hName
      rw [List.filterMap_cons_some hFirst, ih hRest (Nat.le_of_succ_le_succ hLength)]
      rfl

end Bindings

namespace Formals

variable {f : Formals} {words : List String} {last : Option String} {v : Value}
  {parent : FrameId} {args : List Value}

/-! ## Rows of words -/

/-- What a row of words spells: the names before the marker are required, those after it
optional, and the name at the end is for all further arguments. -/
def ofWords (words : List String) (last : Option String) : Formals :=
  ⟨words.takeWhile (· ≠ optionalMarker), (words.dropWhile (· ≠ optionalMarker)).drop 1, last⟩

theorem ne_marker_of_mem (h : optionalMarker ∉ words) :
    ∀ word ∈ words, decide (word ≠ optionalMarker) = true :=
  fun _ hWord => decide_eq_true fun hEq => h (hEq ▸ hWord)

/-- A row without the marker. -/
theorem ofWords_plain (h : optionalMarker ∉ words) : ofWords words last = ⟨words, [], last⟩ := by
  have hAll := ne_marker_of_mem h
  rw [ofWords, List.takeWhile_eq_self_iff.mpr hAll, List.dropWhile_eq_nil_iff.mpr hAll]
  rfl

/-- A row with the marker. -/
theorem ofWords_marked {before after : List String} (h : optionalMarker ∉ before) :
    ofWords (before ++ optionalMarker :: after) last = ⟨before, after, last⟩ := by
  have hAll := ne_marker_of_mem h
  rw [ofWords, List.takeWhile_append_of_pos hAll, List.dropWhile_append_of_pos hAll,
    List.takeWhile_cons_of_neg (by simp), List.dropWhile_cons_of_neg (by simp), List.append_nil]
  rfl

/-- A row with at most one marker has none in it, or is split by the one. -/
theorem words_cases (h : words.count optionalMarker ≤ 1) :
    optionalMarker ∉ words ∨ ∃ before after, words = before ++ optionalMarker :: after ∧
      optionalMarker ∉ before ∧ optionalMarker ∉ after := by
  by_cases hMem : optionalMarker ∈ words
  · obtain ⟨before, after, rfl⟩ := List.append_of_mem hMem
    rw [List.count_append, List.count_cons_self] at h
    exact .inr ⟨before, after, rfl, List.count_eq_zero.mp (by omega),
      List.count_eq_zero.mp (by omega)⟩
  · exact .inl hMem

/-- The positional names are all words but the marker. -/
theorem positional_ofWords (last : Option String) (h : words.count optionalMarker ≤ 1) :
    (ofWords words last).positional = words.filter (· ≠ optionalMarker) := by
  have hKept : ∀ names : List String, optionalMarker ∉ names →
      names.filter (· ≠ optionalMarker) = names :=
    fun names hNot => List.filter_eq_self.mpr (ne_marker_of_mem hNot)
  rcases words_cases h with hNot | ⟨before, after, rfl, hBefore, hAfter⟩
  · rw [ofWords_plain hNot, hKept words hNot, positional, List.append_nil]
  · rw [ofWords_marked hBefore, List.filter_append, hKept before hBefore,
      List.filter_cons_of_neg (by simp), hKept after hAfter]
    rfl

/-- The words of a parameter list are the rows with at most one marker. -/
theorem words_iff : (f.Words words ∧ optionalMarker ∉ f.positional) ↔
    words.count optionalMarker ≤ 1 ∧ f = ofWords words f.rest := by
  constructor
  · rintro ⟨hWords, hMarker⟩
    obtain ⟨hRequired, hOptional⟩ := not_or.mp (mt List.mem_append.mpr hMarker)
    obtain ⟨required, optional, rest⟩ := f
    cases hWords with
    | plain hNone =>
      replace hNone : optional = [] := hNone
      rw [hNone]
      refine ⟨?_, (ofWords_plain hRequired).symm⟩
      rw [List.count_eq_zero.mpr hRequired]
      exact Nat.zero_le 1
    | marked =>
      refine ⟨?_, (ofWords_marked hRequired).symm⟩
      rw [List.count_append, List.count_cons_self, List.count_eq_zero.mpr hRequired,
        List.count_eq_zero.mpr hOptional]
  · rintro ⟨hCount, hEq⟩
    rcases words_cases hCount with hNot | ⟨before, after, rfl, hBefore, hAfter⟩
    · rw [hEq, ofWords_plain hNot]
      exact ⟨.plain rfl, by rwa [positional, List.append_nil]⟩
    · rw [hEq, ofWords_marked hBefore]
      exact ⟨.marked, fun hMem => (List.mem_append.mp hMem).elim hBefore hAfter⟩

/-- What is read is a row of words with at most one marker, in which no name stands twice. -/
theorem parse_eq_ok_iff_ofWords : parse v = .ok f ↔ ∃ words last, v.Symbols words last ∧
    words.count optionalMarker ≤ 1 ∧
    (words.filter (· ≠ optionalMarker) ++ last.toList).Nodup ∧ f = ofWords words last := by
  rw [parse_eq_ok_iff]
  constructor
  · rintro ⟨⟨words, hSymbols, hWords⟩, hNodup, hMarker⟩
    obtain ⟨hCount, hEq⟩ := words_iff.mp ⟨hWords, hMarker⟩
    refine ⟨words, f.rest, hSymbols, hCount, ?_, hEq⟩
    rw [← positional_ofWords f.rest hCount, ← hEq]
    exact hNodup
  · rintro ⟨words, last, hSymbols, hCount, hNodup, rfl⟩
    obtain ⟨hWords, hMarker⟩ := (words_iff (f := ofWords words last)).mpr ⟨hCount, rfl⟩
    refine ⟨⟨words, hSymbols, hWords⟩, ?_, hMarker⟩
    rw [← positional_ofWords last hCount] at hNodup
    exact hNodup

/-! ## Counts -/

/-- There must be an argument for every required name, and without a name for all further
arguments there must be a name for every argument. -/
theorem accepts_iff {count : Nat} : f.arity.accepts count = true ↔
    f.required.length ≤ count ∧ (f.rest = none → count ≤ f.positional.length) := by
  obtain ⟨required, optional, rest⟩ := f
  cases rest with
  | some name => simp [arity, Arity.accepts]
  | none =>
    cases optional with
    | nil => simp [arity, Arity.accepts, positional]; omega
    | cons name names => simp [arity, Arity.accepts]

/-! ## Frames -/

/-- The frame is that of a call with these arguments. -/
structure Binds (f : Formals) (parent : FrameId) (args : List Value) (frame : Frame) : Prop where
  parent_eq : frame.parent = some parent
  /-- The names, and nothing else, are bound once each. -/
  names_perm : frame.bindings.names.Perm f.names
  /-- A positional name has the argument at its place, if there is one. -/
  positional : ∀ (i : Nat) (name : String), f.positional[i]? = some name →
    frame.get? name = some (args[i]?.getD .undefined)
  rest : ∀ name, f.rest = some name → ∃ list, frame.get? name = some list ∧ list.isList ∧
    list.items = args.drop f.positional.length
  /-- The values of the names that an argument is left for, in order, are the arguments. -/
  args_eq : (f.positional.take args.length).filterMap frame.get? ++
    ((f.rest.bind frame.get?).elim [] Value.items) = args

theorem bindings_names (h : f.required.length ≤ args.length) :
    Bindings.names (f.bindings args) = f.positional := by
  rw [bindings, Bindings.names, List.map_fst_zip]
  rw [Formals.positional, List.length_append, List.length_append, List.length_replicate]
  exact Nat.add_le_add_right h _

/-- The arguments, and after them what is bound to the names without one. -/
theorem padded_getElem? {i : Nat} {name : String} (h : f.required.length ≤ args.length)
    (hName : f.positional[i]? = some name) :
    (args ++ List.replicate f.optional.length Value.undefined)[i]? =
      some (args[i]?.getD .undefined) := by
  obtain ⟨hLess, -⟩ := List.getElem?_eq_some_iff.mp hName
  rw [Formals.positional, List.length_append] at hLess
  by_cases hArg : i < args.length
  · rw [List.getElem?_append_left hArg, List.getElem?_eq_getElem hArg]
    rfl
  · rw [List.getElem?_append_right (Nat.le_of_not_lt hArg),
      List.getElem?_eq_none (Nat.le_of_not_lt hArg), List.getElem?_replicate, if_pos (by omega)]
    rfl

/-- What a positional name is bound to. -/
theorem lookup_bindings (hNodup : f.positional.Nodup) (h : f.required.length ≤ args.length)
    {i : Nat} {name : String} (hName : f.positional[i]? = some name) :
    (f.bindings args).lookup name = some (args[i]?.getD .undefined) :=
  Bindings.lookup_zip hNodup hName (padded_getElem? h hName)

/-- The positional names that an argument is left for. -/
theorem filterMap_positional {get? : String → Option Value}
    (h : ∀ (i : Nat) (name : String), f.positional[i]? = some name →
      get? name = some (args[i]?.getD .undefined)) :
    (f.positional.take args.length).filterMap get? = args.take f.positional.length := by
  have hEach : ∀ (i : Nat) (name : String),
      (f.positional.take args.length)[i]? = some name → get? name = args[i]? := by
    intro i name hName
    obtain ⟨hLess, -⟩ := List.getElem?_eq_some_iff.mp hName
    rw [List.length_take] at hLess
    rw [List.getElem?_take_of_lt (by omega)] at hName
    rw [h i name hName, List.getElem?_eq_getElem (by omega)]
    rfl
  rw [Bindings.filterMap_eq hEach (List.length_take_le _ _), List.length_take,
    List.take_eq_take_iff]
  omega

/-- Without a rest parameter, the bindings hold one argument for each positional one. -/
theorem binds_of_rest_none (hNodup : f.names.Nodup) (hRest : f.rest = none)
    (h : f.arity.accepts args.length) :
    f.Binds parent args ⟨some parent, f.bindings args⟩ := by
  obtain ⟨hLeast, hMost⟩ := accepts_iff.mp h
  have hPositional : ∀ (i : Nat) (name : String), f.positional[i]? = some name →
      (f.bindings args).lookup name = some (args[i]?.getD .undefined) := fun i name hName =>
    lookup_bindings (List.nodup_append.mp hNodup).1 hLeast hName
  -- the names bound, the positional parameters, no rest parameter, and the arguments put together
  -- again
  refine ⟨rfl, ?_, hPositional, fun name hName => ?_, ?_⟩
  · rw [bindings_names hLeast, names, hRest]
    exact .of_eq (List.append_nil _).symm
  · rw [hRest] at hName
    cases hName
  · rw [hRest]
    refine (List.append_nil _).trans ((filterMap_positional hPositional).trans ?_)
    exact List.take_of_length_le (hMost hRest)

/-- With a rest parameter, it is bound to the list of the arguments that are left over, in front
of the others. -/
theorem binds_of_rest_some {rest : String} {list : Value} (hNodup : f.names.Nodup)
    (hRest : f.rest = some rest) (h : f.arity.accepts args.length) (hList : list.isList)
    (hItems : list.items = f.surplus args) :
    f.Binds parent args ⟨some parent, (rest, list) :: f.bindings args⟩ := by
  obtain ⟨hLeast, -⟩ := accepts_iff.mp h
  rw [names, hRest] at hNodup
  obtain ⟨hDistinct, -, hApart⟩ := List.nodup_append.mp hNodup
  have hPositional : ∀ (i : Nat) (name : String), f.positional[i]? = some name →
      ((rest, list) :: f.bindings args).lookup name = some (args[i]?.getD .undefined) := by
    intro i name hName
    have hOther : name ≠ rest :=
      hApart name (List.mem_of_getElem? hName) rest (List.mem_singleton_self rest)
    rw [List.lookup_cons, beq_eq_false_iff_ne.mpr hOther]
    exact lookup_bindings hDistinct hLeast hName
  have hLast : ((rest, list) :: f.bindings args).lookup rest = some list := by
    rw [List.lookup_cons, beq_self_eq_true]
  -- the names bound, the positional parameters, the rest parameter, and the arguments put together
  -- again
  refine ⟨rfl, ?_, hPositional, fun name hName => ?_, ?_⟩
  · show (rest :: Bindings.names (f.bindings args)).Perm f.names
    rw [bindings_names hLeast, names, hRest]
    exact (List.perm_append_singleton rest f.positional).symm
  · rw [hRest] at hName
    cases hName
    exact ⟨list, hLast, hList, hItems⟩
  · rw [hRest, Option.bind_some, Frame.get?, hLast]
    show _ ++ list.items = args
    rw [hItems]
    refine (congrArg (· ++ f.surplus args) (filterMap_positional hPositional)).trans ?_
    exact List.take_append_drop _ _

/-- Arguments that fit make a frame, and nothing else. -/
theorem makeChildFrame_fits (hNodup : f.names.Nodup) (h : f.arity.accepts args.length)
    (m : Machine) : ∃ frame m', Eval.makeChildFrame parent f args m = .value m.frames.size m' ∧
      m'.frames = m.frames.push frame ∧ m'.output = m.output ∧ f.Binds parent args frame := by
  unfold Eval.makeChildFrame
  rw [if_pos h]
  cases hRest : f.rest with
  | none => exact ⟨_, _, rfl, rfl, rfl, binds_of_rest_none hNodup hRest h⟩
  | some rest =>
    exact ⟨_, _, rfl, rfl, rfl, binds_of_rest_some hNodup hRest h
      (Value.isList_chain m.nextStamp _) (Value.items_chain m.nextStamp _)⟩

/-- Arguments that do not fit are refused with their count, and the machine is as before. -/
theorem makeChildFrame_misfits (h : ¬ f.arity.accepts args.length) (m : Machine) :
    Eval.makeChildFrame parent f args m = .failure (.wrongCount f args.length) m := by
  rw [Eval.makeChildFrame, if_neg h]
  rfl

/-- **Parameter lists.** A value is read as a parameter list if and only if it is a chain of
symbols, with at most one marker among them, that ends in the empty list or in one more symbol,
and no name stands in it twice. The names before the marker are required, those after it
optional, and the one at the end is for all further arguments.

If the list of arguments of a call has a count that the parameters accept, a frame is made that
binds each argument once, and nothing else is done. Otherwise the machine stays as it is, and
the error has the counts in it. -/
theorem every_argument_bound_once :
    (∀ v f, parse v = .ok f ↔ ∃ words last, v.Symbols words last ∧
      words.count optionalMarker ≤ 1 ∧
      (words.filter (· ≠ optionalMarker) ++ last.toList).Nodup ∧
      f = ⟨words.takeWhile (· ≠ optionalMarker), (words.dropWhile (· ≠ optionalMarker)).drop 1,
        last⟩) ∧
    ∀ v f parent args m, parse v = .ok f → args.isList →
      (f.arity.accepts args.items.length = true ↔ f.required.length ≤ args.items.length ∧
        (f.rest = none → args.items.length ≤ f.positional.length)) ∧
      (f.arity.accepts args.items.length = true →
        ∃ frame m', Eval.makeChildFrameOn parent f args m = .value m.frames.size m' ∧
          m'.frames = m.frames.push frame ∧ m'.output = m.output ∧
          f.Binds parent args.items frame) ∧
      (f.arity.accepts args.items.length = false →
        Eval.makeChildFrameOn parent f args m = .failure (.wrongCount f args.items.length) m ∧
        (EvalError.wrongCount f args.items.length).message =
          "expected " ++ f.arity.text ++ " argument(s) for formals " ++ f.text ++ ", got " ++
            toString args.items.length) := by
  refine ⟨fun v f => parse_eq_ok_iff_ofWords, fun v f parent args m hParse hList => ?_⟩
  have hOn : Eval.makeChildFrameOn parent f args = Eval.makeChildFrame parent f args.items := by
    rw [Eval.makeChildFrameOn, Value.toList?, if_pos hList]
  rw [hOn]
  refine ⟨accepts_iff, fun hFits => makeChildFrame_fits (parse_nodup hParse) hFits m,
    fun hMisfits => ⟨makeChildFrame_misfits (Bool.eq_false_iff.mp hMisfits) m, rfl⟩⟩

/-- The row `(a #!optional b . more)`. Three arguments fit it, and none do not. -/
theorem every_argument_bound_once_three :
    let v : Value := .pair 3 (.symbol "a") (.pair 2 (.symbol optionalMarker)
      (.pair 1 (.symbol "b") (.symbol "more")))
    let f : Formals := ⟨["a"], ["b"], some "more"⟩
    let args := Value.chain 4 [.boolean true, .boolean false, .nil] .nil
    parse v = .ok f ∧ args.isList = true ∧ f.arity.accepts args.items.length = true ∧
      (∃ frame m', Eval.makeChildFrameOn 0 f args .empty = .value 0 m' ∧
        m'.frames = #[].push frame ∧ m'.output = "" ∧ f.Binds 0 args.items frame) ∧
      Eval.makeChildFrameOn 0 f .nil .empty = .failure (.wrongCount f 0) .empty := by
  intro v f args
  have hParse : parse v = .ok f := rfl
  obtain ⟨-, hBound⟩ := every_argument_bound_once
  refine ⟨hParse, rfl, rfl, ?_, ?_⟩
  · exact (hBound v f 0 args .empty hParse rfl).2.1 rfl
  · exact ((hBound v f 0 .nil .empty hParse rfl).2.2 rfl).1

end Formals
end MiniScheme
