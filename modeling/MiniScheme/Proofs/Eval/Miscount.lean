import MiniScheme.Proofs.Eval.History
import MiniScheme.Proofs.Procedure.LetNames

/-!
# Arguments that do not fit

Frames are made in two places, for a call and for a `let`. A call first looks whether
the arguments fit, and if they do not the error names the procedure. A `let` relies on
one value for each of its names, and that they fit a parameter list made of these names.
The marker of optional parameters may be among the names, and then they do not fit: the
error is that of the frame.

* `runRefusing` — evaluation that refuses some tasks;
* `Eval.CountedUnless` — a computation does not end with the error of a frame, if one
  looks out for that, nor with the error of a call that accepts the count it names,
  unless the refusing one raises the alarm: `evalLet_counted`, `evalForm_counted`,
  `call_counted`, … for each function of the evaluator;
* `runRefusing_counted` — whole runs;
* `miscounts_name_procedure` — what becomes of arguments that do not fit.
-/

namespace MiniScheme

open Value Eval Formals

/-- Does the failure come from a frame that the arguments do not fit, if one looks out for
that, or from a call that accepts the count it names as the wrong one? -/
def EvalError.isMiscount (inFrames : Bool) : EvalError → Bool
  | .wrongCount .. => inFrames
  | .wrongArguments _ expected given => expected.accepts given
  | _ => false

/-! ## Refusing a `let` that binds the marker -/

/-- Evaluation in which some tasks are refused with an alarm. -/
def runRefusing (refused : Task → Bool) (alarm : EvalError) (forms : FormTable) :
    (fuel : Nat) → Runner
  | 0, _ => fun _ => .outOfFuel
  | fuel + 1, t =>
    if refused t then fail alarm
    else t.step forms (runRefusing refused alarm forms fuel) >>=
      complete (runRefusing refused alarm forms fuel)

/-- The name that a binding of a `let` is for. -/
def Value.boundName? : Value → Option String
  | pair _ (symbol name) _ => some name
  | _ => none

/-- The names that a `let` with these operands binds. -/
def Value.letNames : Value → List String
  | pair _ bindings _ => bindings.items.filterMap boundName?
  | _ => []

/-- Is the task a `let` that binds the marker of optional parameters? -/
def Task.bindsMarker (forms : FormTable) : Task → Bool
  | .eval (.pair _ (.symbol name) operands) _ =>
    forms.lookup name = some .binding && optionalMarker ∈ operands.letNames
  | _ => false

/-! ## Answers without a miscount -/

/-- The answer is no miscount, and a value is as required. -/
inductive Answer.Counted {α : Type} (inFrames : Bool) (holds : α → Prop) : Answer α → Prop
  | value {a : α} {m : Machine} (h : holds a) : Counted inFrames holds (.value a m)
  | failure {e : EvalError} {m : Machine} (h : e.isMiscount inFrames = false) :
      Counted inFrames holds (.failure e m)
  | outOfFuel : Counted inFrames holds .outOfFuel

/-- The error, if there is one, is no miscount. -/
def Except.Counted {α : Type} (x : Except EvalError α) : Prop :=
  ∀ inFrames e, x = .error e → e.isMiscount inFrames = false

theorem Except.Counted.ok {α : Type} (a : α) : Except.Counted (.ok a) := fun _ => nofun

theorem Except.Counted.error {α : Type} {e : EvalError}
    (h : ∀ inFrames, e.isMiscount inFrames = false) :
    Except.Counted (.error e : Except EvalError α) := by
  rintro inFrames _ ⟨⟩
  exact h inFrames

theorem Except.Counted.bind {α β : Type} {x : Except EvalError α} {f : α → Except EvalError β}
    (hx : Except.Counted x) (hf : ∀ a, Except.Counted (f a)) : Except.Counted (x >>= f) := by
  cases x with
  | ok a => exact hf a
  | error e => exact .error fun inFrames => hx inFrames e rfl

namespace Eval

variable {α β : Type} {holds : α → Prop} {holds' : β → Prop} {inFrames : Bool} {alarm : EvalError}

/-- Whatever the machine, the refusing computation raises the alarm, or the two are the same
and do not miscount. -/
def CountedUnless (inFrames : Bool) (alarm : EvalError) (holds : α → Prop)
    (refusing plain : Eval α) : Prop :=
  ∀ m, (∃ n, refusing m = .failure alarm n) ∨
    refusing m = plain m ∧ (plain m).Counted inFrames holds

/-- Nothing is required of the value. -/
abbrev Any {α : Type} (_ : α) : Prop := True

namespace CountedUnless

/-- It is enough to look at the computation, if the refusing one is the same. -/
theorem of_same {x : Eval α} (h : ∀ m, (x m).Counted inFrames holds) :
    CountedUnless inFrames alarm holds x x :=
  fun m => .inr ⟨rfl, h m⟩

protected theorem pure {a : α} (h : holds a) :
    CountedUnless inFrames alarm holds (pure a) (pure a) :=
  .of_same fun _ => .value h

theorem fail {e : EvalError} (h : e.isMiscount inFrames = false) :
    CountedUnless inFrames alarm holds (Eval.fail e) (Eval.fail e) :=
  .of_same fun _ => .failure h

theorem refused {y : Eval α} : CountedUnless inFrames alarm holds (Eval.fail alarm) y :=
  fun m => .inl ⟨m, rfl⟩

theorem ofExcept {x : Except EvalError α} (h : Except.Counted x) :
    CountedUnless inFrames alarm (fun a => x = .ok a) (Eval.ofExcept x) (Eval.ofExcept x) := by
  cases x with
  | ok a => exact .pure rfl
  | error e => exact .fail (h inFrames e rfl)

/-- After an alarm nothing more is asked; otherwise both go on from the same value. -/
theorem bind {x y : Eval α} {f g : α → Eval β} (hx : CountedUnless inFrames alarm holds x y)
    (hf : ∀ a, holds a → CountedUnless inFrames alarm holds' (f a) (g a)) :
    CountedUnless inFrames alarm holds' (x >>= f) (y >>= g) := by
  intro m
  simp only [Bind.bind, Eval.bind]
  obtain ⟨n, hAlarm⟩ | ⟨hSame, hCounted⟩ := hx m
  · rw [hAlarm]
    exact .inl ⟨n, rfl⟩
  · rw [hSame]
    generalize y m = answer at hCounted
    cases hCounted with
    | value h => exact hf _ h _
    | failure h => exact .inr ⟨rfl, .failure h⟩
    | outOfFuel => exact .inr ⟨rfl, .outOfFuel⟩

/-- Less may be required of the value. -/
theorem imp {holds₀ : α → Prop} {x y : Eval α} (h : CountedUnless inFrames alarm holds x y)
    (himp : ∀ a, holds a → holds₀ a) : CountedUnless inFrames alarm holds₀ x y := by
  intro m
  refine (h m).imp id ?_
  rintro ⟨hSame, hCounted⟩
  refine ⟨hSame, ?_⟩
  generalize y m = answer at hCounted
  cases hCounted with
  | value h => exact .value (himp _ h)
  | failure h => exact .failure h
  | outOfFuel => exact .outOfFuel

/-- A value is one that the computation can end with. -/
theorem ends {x y : Eval α} (h : CountedUnless inFrames alarm holds x y) :
    CountedUnless inFrames alarm (fun a => ∃ m n, y m = .value a n) x y := by
  intro m
  refine (h m).imp id ?_
  rintro ⟨hSame, hCounted⟩
  refine ⟨hSame, ?_⟩
  generalize hEnd : y m = answer at hCounted
  cases hCounted with
  | value h => exact .value ⟨m, _, hEnd⟩
  | failure h => exact .failure h
  | outOfFuel => exact .outOfFuel

/-- A result that may be an error, of which nothing more is asked. -/
theorem checked {x : Except EvalError α} (h : Except.Counted x) :
    CountedUnless inFrames alarm Any (Eval.ofExcept x) (Eval.ofExcept x) :=
  (ofExcept h).imp fun _ _ => trivial

/-- A step that does not fail. -/
theorem succeeds {x : Eval α} (h : ∀ m, ∃ a n, x m = .value a n) :
    CountedUnless inFrames alarm Any x x := by
  refine .of_same fun m => ?_
  obtain ⟨a, n, hValue⟩ := h m
  rw [hValue]
  exact .value trivial

end CountedUnless

/-- A value comes from a value of the first computation. -/
theorem bind_eq_value {x : Eval α} {f : α → Eval β} {b : β} {m n : Machine}
    (h : (x >>= f) m = .value b n) : ∃ a m', x m = .value a m' ∧ f a m' = .value b n := by
  simp only [Bind.bind, Eval.bind] at h
  cases hx : x m with
  | value a m' =>
    rw [hx] at h
    exact ⟨a, m', rfl, h⟩
  | _ =>
    rw [hx] at h
    cases h

/-- A value comes from a result that is one. -/
theorem ofExcept_eq_ok {x : Except EvalError α} {a : α} {m n : Machine}
    (h : Eval.ofExcept x m = .value a n) : x = .ok a := by
  cases x with
  | ok a =>
    cases h
    rfl
  | error e => cases h

/-! ## Steps -/

variable {env : FrameId} {name : String} {v tail : Value} {vs : List Value}

/-- A lookup fails with an unbound name at most. -/
theorem lookup_counted : CountedUnless inFrames alarm Any (lookup env name) (lookup env name) := by
  refine .of_same fun m => ?_
  unfold lookup
  split
  · exact .value trivial
  · exact .failure rfl

/-- An assignment fails with an unbound name at most. -/
theorem assign_counted :
    CountedUnless inFrames alarm Any (assign env name v) (assign env name v) := by
  refine .of_same fun m => ?_
  unfold assign
  split
  · exact .value trivial
  · exact .failure rfl

theorem define_counted : CountedUnless inFrames alarm Any (define env name v) (define env name v) :=
  .succeeds fun _ => ⟨_, _, rfl⟩

theorem makeChain_counted :
    CountedUnless inFrames alarm Any (makeChain vs tail) (makeChain vs tail) :=
  .succeeds fun _ => ⟨_, _, rfl⟩

/-- The frame of a call that fits can be made. -/
theorem makeChildFrame_counted {formals : Formals} (parent : FrameId)
    (hFits : inFrames → formals.arity.accepts vs.length) :
    CountedUnless inFrames alarm Any (makeChildFrame parent formals vs)
      (makeChildFrame parent formals vs) := by
  unfold makeChildFrame
  split
  · refine .succeeds fun m => ?_
    cases formals.rest with
    | none => exact ⟨_, _, rfl⟩
    | some rest => exact ⟨_, _, rfl⟩
  · -- the arguments may be misfits where nobody looks out for that
    rename_i hMisfit
    refine .fail (Bool.eq_false_iff.mpr ?_)
    exact fun hLooked => hMisfit (hFits hLooked)

end Eval

variable {inFrames : Bool} {alarm : EvalError} {env : FrameId} {v : Value} {vs : List Value}

/-! ## Operands and parameter lists -/

/-- Operands that do not fit a form are an error of the form and no miscount. -/
theorem checkOperands_counted (form : Form) (v : Value) (min : Nat) (max : Option Nat) :
    Except.Counted (checkOperands form v min max) := by
  unfold checkOperands
  split
  · exact .error fun _ => rfl
  · split
    · exact .error fun _ => rfl
    · split
      · exact .error fun _ => rfl
      · exact .ok _

theorem onlyOperand_counted (form : Form) (v : Value) : Except.Counted (onlyOperand form v) := by
  refine (checkOperands_counted form v 1 (some 1)).bind fun items => ?_
  cases items with
  | nil => exact .error fun _ => rfl
  | cons operand items => exact .ok _

/-- What is wrong with parameters is an error of the form. -/
theorem parameters_counted (form : Form) (x : Except FormalsError Formals) :
    Except.Counted (x.mapError fun e => .invalidForm form (.parameters e)) := by
  cases x with
  | ok formals => exact .ok _
  | error e => exact .error fun _ => rfl

/-! ## Atoms and tails -/

theorem finished_counted {x y : Eval Value} (h : CountedUnless inFrames alarm Any x y) :
    CountedUnless inFrames alarm Any (finished x) (finished y) :=
  h.bind fun _ _ => .pure trivial

theorem evalAtom_counted : CountedUnless inFrames alarm Any (evalAtom v env) (evalAtom v env) := by
  unfold evalAtom
  split
  · exact lookup_counted
  · exact .pure trivial

theorem evalTail_counted : CountedUnless inFrames alarm Any (evalTail v env) (evalTail v env) := by
  unfold evalTail
  split
  · exact .pure trivial
  · exact finished_counted evalAtom_counted

/-! ## Numbers and lists -/

/-- The refusal of an argument is not about counts. -/
theorem EvalError.OfArguments.counted {procedure : String} {e : EvalError}
    (h : e.OfArguments procedure) : e.isMiscount inFrames = false := by
  cases h <;> rfl

/-- An operation that is settled by its arguments does not count them. -/
theorem settled_counted {procedure : String} {x : Except EvalError Value}
    (h : Except.Settled procedure Value.IsConstant x) :
    CountedUnless inFrames alarm Any (Eval.ofExcept x) (Eval.ofExcept x) := by
  cases h with
  | ok h => exact .pure trivial
  | error h => exact .fail h.counted

/-- Appending fails with the wrong type at most. -/
theorem appendOnto_counted (procedure : String) :
    CountedUnless inFrames alarm Any (Operation.appendOnto procedure v vs)
      (Operation.appendOnto procedure v vs) := by
  induction vs generalizing v with
  | nil => exact .pure trivial
  | cons w before ih =>
    unfold Operation.appendOnto
    cases w.toList? with
    | none => exact .fail rfl
    | some items => exact makeChain_counted.bind fun tail _ => ih

/-! ## What the bindings of a `let` give -/

theorem items_of_toList? (h : v.toList? = some vs) : vs = v.items := by
  unfold toList? at h
  split at h
  · exact (Option.some.inj h).symm
  · cases h

/-- The names that are found are those that the bindings are for, and there is a value for
each. -/
theorem evalBindingsOnto_found {run : Runner} {bindings values : List Value}
    {before names : List String} {m n : Machine} (hLength : before.length = vs.length)
    (h : evalBindings run env before vs bindings m = .value (names, values) n) :
    names = before.reverse ++ bindings.filterMap boundName? ∧ names.length = values.length := by
  -- Each binding adds its name and its value to those found before.
  induction bindings generalizing before vs m with
  | nil =>
    cases h
    simp [hLength]
  | cons binding bindings ih =>
    rw [evalBindings] at h
    obtain ⟨items, m₁, hChecked, hRest⟩ := bind_eq_value h
    obtain ⟨-, hItems, -⟩ := checkOperands_eq_ok (ofExcept_eq_ok hChecked)
    split at hRest
    · rename_i name expr more
      obtain ⟨value, m₂, -, hLater⟩ := bind_eq_value hRest
      have hName : binding.boundName? = some name := by
        cases binding with
        | pair s first rest =>
          rw [items_pair] at hItems
          obtain ⟨rfl, -⟩ := List.cons.inj hItems
          rfl
        | _ => cases hItems
      obtain ⟨hNames, hValues⟩ := ih (by rw [List.length_cons, List.length_cons, hLength]) hLater
      refine ⟨?_, hValues⟩
      rw [hNames, List.filterMap_cons_some hName, List.reverse_cons, List.append_assoc,
        List.singleton_append]
    all_goals cases hRest

/-- Evaluated bindings have the names that are written and as many values. -/
theorem evalBindings_found {run : Runner} {bindings values : List Value} {names : List String}
    {m n : Machine} (h : evalBindings run env [] [] bindings m = .value (names, values) n) :
    names = bindings.filterMap boundName? ∧ names.length = values.length :=
  evalBindingsOnto_found rfl h

section Parts
variable {refusing plain : Runner}
  (hRun : ∀ t, CountedUnless inFrames alarm Any (refusing t) (plain t))
include hRun

/-! ## Several expressions -/

/-- A body does not miscount, if its expressions do not. -/
theorem evalBody_counted :
    CountedUnless inFrames alarm Any (evalBody refusing env v) (evalBody plain env v) := by
  -- along the chain of expressions, of which the last is in tail position
  induction v with
  | pair s first rest ihFirst ihRest =>
    by_cases hNil : rest = .nil
    · subst hNil
      exact evalTail_counted
    · rw [evalBody, evalBody]
      · exact (hRun _).bind fun _ _ => ihRest
      all_goals exact hNil
  | _ => exact .fail rfl

/-- Expressions in turn do not miscount, if none of them does. -/
theorem evalEach_counted :
    CountedUnless inFrames alarm Any (evalEach refusing env vs) (evalEach plain env vs) := by
  -- The induction needs whatever values have been found before.
  suffices h : ∀ values, CountedUnless inFrames alarm Any (evalEachOnto refusing env values vs)
      (evalEachOnto plain env values vs) from h []
  induction vs with
  | nil => exact fun values => .pure trivial
  | cons expr exprs ih => exact fun values => (hRun _).bind fun v _ => ih (v :: values)

/-! ## Templates -/

/-- A template does not miscount, if its unquoted parts do not. -/
theorem expandTemplate_counted (level : Nat) :
    CountedUnless inFrames alarm Any (expandTemplate refusing env level v)
      (expandTemplate plain env level v) := by
  -- The level is not fixed: an inner template is copied at another one.
  induction v generalizing level with
  | pair s first rest ihFirst ihRest =>
    unfold expandTemplate
    split
    · split
      · exact .fail rfl
      · exact (CountedUnless.checked (onlyOperand_counted .unquote rest)).bind fun _ _ => hRun _
      · exact (ihRest _).bind fun _ _ => makeChain_counted
    · exact (ihRest _).bind fun _ _ => makeChain_counted
    · split
      · refine (CountedUnless.checked (onlyOperand_counted .unquoteSplicing _)).bind fun _ _ => ?_
        refine (hRun _).bind fun v _ => ?_
        cases v.toList? with
        | none => exact .fail rfl
        | some items => exact (ihRest _).bind fun _ _ => makeChain_counted
      · exact (ihFirst _).bind fun _ _ => (ihRest _).bind fun _ _ => makeChain_counted
  | _ => exact .pure trivial

/-! ## Binding names -/

omit hRun in
/-- A name is bound to a new procedure. -/
theorem defineProcedure_counted {kind : CompoundKind} {parameters body : Value} {name : String}
    (form : Form) :
    CountedUnless inFrames alarm Any
      (do
        let formals ← Eval.ofExcept (parseFormals form parameters)
        let procedure ← Eval.makeProcedure kind formals body
        Eval.define env name procedure
        return Value.symbol name)
      (do
        let formals ← Eval.ofExcept (parseFormals form parameters)
        let procedure ← Eval.makeProcedure kind formals body
        Eval.define env name procedure
        return Value.symbol name) := by
  refine (CountedUnless.checked (parameters_counted form _)).bind fun formals _ => ?_
  exact .succeeds fun _ => ⟨_, _, rfl⟩

/-- A `define` does not miscount, if its expression does not. -/
theorem evalDefine_counted :
    CountedUnless inFrames alarm Any (evalDefine refusing v env) (evalDefine plain v env) := by
  unfold evalDefine
  refine (CountedUnless.checked (checkOperands_counted .define v 2 none)).bind fun items _ => ?_
  split
  · split
    · exact (hRun _).bind fun _ _ => define_counted.bind fun _ _ => .pure trivial
    · exact .fail rfl
  · exact defineProcedure_counted .define
  all_goals exact .fail rfl

omit hRun in
/-- A `define-macro` does not miscount. -/
theorem evalDefineMacro_counted :
    CountedUnless inFrames alarm Any (evalDefineMacro v env) (evalDefineMacro v env) := by
  unfold evalDefineMacro
  refine (CountedUnless.checked (checkOperands_counted .defineMacro v 2 none)).bind fun _ _ => ?_
  split
  · exact defineProcedure_counted .defineMacro
  all_goals exact .fail rfl

/-- A `set!` does not miscount, if its expression does not. -/
theorem evalAssignment_counted :
    CountedUnless inFrames alarm Any (evalAssignment refusing v env)
      (evalAssignment plain v env) := by
  unfold evalAssignment
  refine (CountedUnless.checked (checkOperands_counted .assignment v 2 (some 2))).bind fun _ _ => ?_
  split
  · exact (hRun _).bind fun _ _ => assign_counted.bind fun _ _ => .pure trivial
  all_goals exact .fail rfl

/-- The bindings of a `let` do not miscount, if their expressions do not. -/
theorem evalBindings_counted {bindings : List Value} {names : List String} :
    CountedUnless inFrames alarm Any (evalBindings refusing env names vs bindings)
      (evalBindings plain env names vs bindings) := by
  -- What has been found before does not matter for an error.
  induction bindings generalizing names vs with
  | nil => exact .pure trivial
  | cons binding bindings ih =>
    unfold evalBindings
    refine (CountedUnless.checked (checkOperands_counted .binding binding 2 (some 2))).bind ?_
    rintro items -
    split
    · exact (hRun _).bind fun value _ => ih
    all_goals exact .fail rfl

/-- The frame of a `let` that does not bind the marker can be made. -/
theorem evalLet_counted (hPlain : inFrames → optionalMarker ∉ v.letNames) :
    CountedUnless inFrames alarm Any (evalLet refusing v env) (evalLet plain v env) := by
  unfold evalLet
  refine (CountedUnless.checked (checkOperands_counted .binding v 2 none)).bind fun _ _ => ?_
  cases v with
  | pair s bindings body =>
    cases hList : bindings.toList? with
    | none =>
      simp only [hList]
      exact .fail rfl
    | some items =>
      simp only [hList]
      refine (evalBindings_counted hRun).ends.bind ?_
      rintro ⟨names, values⟩ ⟨m, n, hFound⟩
      obtain ⟨hNames, hLength⟩ := evalBindings_found hFound
      refine (CountedUnless.ofExcept (parameters_counted .binding _)).bind
        fun formals hFormals => ?_
      -- the names are required, and there are as many values
      have hFits : inFrames → formals.arity.accepts values.length := by
        intro hLooked
        have hMarker : optionalMarker ∉ names := by
          rw [hNames, items_of_toList? hList]
          exact hPlain hLooked
        cases hOk : ofNames names with
        | error e =>
          rw [hOk] at hFormals
          cases hFormals
        | ok f =>
          rw [hOk] at hFormals
          cases hFormals
          rw [ofNames_eq hOk hMarker, ← hLength]
          exact decide_eq_true rfl
      exact (makeChildFrame_counted env hFits).bind fun frame _ => evalBody_counted hRun
  | _ => exact .fail rfl

/-! ## Making procedures -/

omit hRun in
/-- A `lambda` or a `mu` does not miscount. -/
theorem evalProcedure_counted (form : Form) (kind : CompoundKind) :
    CountedUnless inFrames alarm Any (evalProcedure form kind v) (evalProcedure form kind v) := by
  unfold evalProcedure
  refine (CountedUnless.checked (checkOperands_counted form v 2 none)).bind fun _ _ => ?_
  split
  · refine (CountedUnless.checked (parameters_counted form _)).bind fun formals _ => ?_
    exact .succeeds fun _ => ⟨_, _, rfl⟩
  · exact .fail rfl

/-! ## Control -/

/-- An `if` does not miscount, if its test does not. -/
theorem evalBranch_counted :
    CountedUnless inFrames alarm Any (evalBranch refusing v env) (evalBranch plain v env) := by
  unfold evalBranch
  refine (CountedUnless.checked (checkOperands_counted .branch v 2 (some 3))).bind ?_
  rintro items -
  split
  · rename_i test consequent alternative
    refine (hRun _).bind fun value _ => ?_
    split
    · exact evalTail_counted
    · cases alternative with
      | nil => exact .pure trivial
      | cons other more => exact evalTail_counted
  · exact .fail rfl

/-- A test does not miscount, if its expression does not. -/
theorem evalTest_counted (later : List Value) :
    CountedUnless inFrames alarm Any (evalTest refusing env v later)
      (evalTest plain env v later) := by
  unfold evalTest
  split
  · exact .pure trivial
  · exact .fail rfl
  · exact hRun _

/-- A `cond` does not miscount, if its tests do not. -/
theorem evalClauses_counted :
    CountedUnless inFrames alarm Any (evalClauses refusing env vs) (evalClauses plain env vs) := by
  induction vs with
  | nil => exact .pure trivial
  | cons clause clauses ih =>
    unfold evalClauses
    refine (CountedUnless.checked (checkOperands_counted .cond clause 1 none)).bind fun _ _ => ?_
    split
    · refine (evalTest_counted hRun clauses).bind fun value _ => ?_
      split
      · split
        · exact .pure trivial
        · exact evalBody_counted hRun
      · exact ih
    · exact .fail rfl

/-- An `and` does not miscount, if its operands do not. -/
theorem evalConjuncts_counted :
    CountedUnless inFrames alarm Any (evalConjuncts refusing env vs)
      (evalConjuncts plain env vs) := by
  induction vs with
  | nil => exact .pure trivial
  | cons expr exprs ih =>
    cases exprs with
    | nil => exact evalTail_counted
    | cons next exprs =>
      unfold evalConjuncts
      refine (hRun _).bind fun value _ => ?_
      split
      · exact ih
      · exact .pure trivial

/-- An `or` does not miscount, if its operands do not. -/
theorem evalDisjuncts_counted :
    CountedUnless inFrames alarm Any (evalDisjuncts refusing env vs)
      (evalDisjuncts plain env vs) := by
  induction vs with
  | nil => exact .pure trivial
  | cons expr exprs ih =>
    cases exprs with
    | nil => exact evalTail_counted
    | cons next exprs =>
      unfold evalDisjuncts
      refine (hRun _).bind fun value _ => ?_
      split
      · exact .pure trivial
      · exact ih

/-- **One form** does not miscount, unless it is a `let` that binds the marker. -/
theorem evalForm_counted {form : Form}
    (hPlain : inFrames → form = .binding → optionalMarker ∉ v.letNames) :
    CountedUnless inFrames alarm Any (form.eval refusing v env) (form.eval plain v env) := by
  have hOperands : ∀ min, CountedUnless inFrames alarm Any
      (Eval.ofExcept (checkOperands form v min none))
      (Eval.ofExcept (checkOperands form v min none)) :=
    fun min => .checked (checkOperands_counted form v min none)
  -- The only form that makes a frame without looking at a count is `let`.
  cases form with
  | conjunction => exact (hOperands 0).bind fun _ _ => evalConjuncts_counted hRun
  | sequence => exact (hOperands 1).bind fun _ _ => evalBody_counted hRun
  | cond => exact (hOperands 0).bind fun _ _ => evalClauses_counted hRun
  | define => exact finished_counted (evalDefine_counted hRun)
  | defineMacro => exact finished_counted evalDefineMacro_counted
  | branch => exact evalBranch_counted hRun
  | lambda => exact finished_counted (evalProcedure_counted .lambda _)
  | binding => exact evalLet_counted hRun fun hLooked => hPlain hLooked rfl
  | mu => exact finished_counted (evalProcedure_counted .mu .mu)
  | disjunction => exact (hOperands 0).bind fun _ _ => evalDisjuncts_counted hRun
  | quasiquote =>
    refine (CountedUnless.checked (onlyOperand_counted .quasiquote v)).bind fun template _ => ?_
    exact finished_counted (expandTemplate_counted hRun 1)
  | quote => exact finished_counted (.checked (onlyOperand_counted .quote v))
  | assignment => exact finished_counted (evalAssignment_counted hRun)
  | unquote => exact .fail rfl
  | unquoteSplicing => exact .fail rfl

/-! ## Calls -/

/-- An operation by itself does not count its arguments. -/
theorem perform_counted (procedure : String) (op : Operation) :
    CountedUnless inFrames alarm Any (op.perform refusing procedure vs)
      (op.perform plain procedure vs) := by
  obtain ⟨p, hPerform, hKind⟩ := op.performs procedure vs
  rw [hPerform refusing, hPerform plain]
  cases hKind with
  | missing hShort => exact .fail rfl
  | misplaced hOp text => exact .fail rfl
  | settled hSettled => exact settled_counted hSettled
  | part hPair hPart => exact .pure trivial
  | pair hFirst hRest => exact makeChain_counted
  | list => exact makeChain_counted
  | appended hTail hBefore => exact appendOnto_counted procedure
  | displayed text => exact .succeeds fun _ => ⟨_, _, rfl⟩
  | evaluated hExpr hEnv => exact hRun _
  | applied hProcedure hOperands hList hEnv => exact hRun _

/-- A call looks at the count before it makes a frame. -/
theorem call_counted :
    CountedUnless inFrames alarm Any (call refusing v vs env) (call plain v vs env) := by
  cases v with
  | builtin s b =>
    refine finished_counted ?_
    unfold callBuiltin
    split
    · exact perform_counted hRun b.name b.operation
    · rename_i hMisfit
      exact .fail (Bool.eq_false_iff.mpr hMisfit)
  | compound s kind formals body =>
    simp only [call, callCompound]
    split
    · -- the frame is made only where the arguments fit
      rename_i hFits
      exact (makeChildFrame_counted _ fun _ => hFits).bind fun frame _ => evalBody_counted hRun
    · rename_i hMisfit
      exact .fail (Bool.eq_false_iff.mpr hMisfit)
  | _ => exact .fail rfl

/-! ## Steps and runs -/

/-- A combination does not miscount: its operator is called after its count has been looked at. -/
theorem stepCombination_counted :
    CountedUnless inFrames alarm Any (stepCombination refusing v vs env)
      (stepCombination plain v vs env) := by
  have hOperator : ∀ operator, CountedUnless inFrames alarm Any
      (evalEach refusing env vs >>= fun args => call refusing operator args env)
      (evalEach plain env vs >>= fun args => call plain operator args env) :=
    fun operator => (evalEach_counted hRun).bind fun args _ => call_counted hRun
  unfold stepCombination
  split
  · refine lookup_counted.bind fun operator _ => ?_
    split
    · exact (hRun _).bind fun _ _ => .pure trivial
    · exact hOperator operator
  · exact (hRun _).bind fun operator _ => hOperator operator

/-- **One step** does not miscount, unless it is a `let` that binds the marker. -/
theorem step_counted {forms : FormTable} {t : Task}
    (hPlain : inFrames → t.bindsMarker forms = false) :
    CountedUnless inFrames alarm Any (t.step forms refusing) (t.step forms plain) := by
  cases t with
  | call procedure args env => exact call_counted hRun
  | eval expr env =>
    simp only [Task.step]
    unfold step
    split
    · split
      · exact .fail rfl
      · split
        · rename_i name
          cases hForm : forms.lookup name with
          | none => exact stepCombination_counted hRun
          | some form =>
            -- a `let` that binds the marker has been refused
            refine evalForm_counted hRun ?_
            rintro hLooked rfl
            simpa [Task.bindsMarker, hForm] using hPlain hLooked
        · exact stepCombination_counted hRun
    · exact finished_counted evalAtom_counted

end Parts

/-- A run does not end with the error of a frame, unless a `let` that binds the marker is met. -/
theorem runRefusing_counted (alarm : EvalError) (forms : FormTable) (fuel : Nat) (t : Task) :
    CountedUnless true alarm Any (runRefusing (Task.bindsMarker forms) alarm forms fuel t)
      (runTask forms fuel t) := by
  -- All that a step leaves to other runs is left to runs with less fuel.
  induction fuel generalizing t with
  | zero => exact .of_same fun _ => .outOfFuel
  | succ fuel ih =>
    rw [runTask_succ]
    unfold runRefusing
    split
    · exact .refused
    · rename_i hPlain
      have hStep := step_counted ih fun _ => Bool.eq_false_iff.mpr hPlain
      refine hStep.bind fun outcome _ => ?_
      cases outcome with
      | done v => exact .pure trivial
      | pending expr env => exact ih _

/-! ## Arguments that do not fit -/

/-- A frame that cannot be made is one that the arguments do not fit. -/
theorem makeChildFrame_failure {parent : FrameId} {formals : Formals} {m n : Machine}
    {e : EvalError} (h : makeChildFrame parent formals vs m = .failure e n) :
    formals.arity.accepts vs.length = false ∧ e = .wrongCount formals vs.length ∧ n = m := by
  unfold makeChildFrame at h
  split at h
  · cases hRest : formals.rest <;> (rw [hRest] at h; cases h)
  · rename_i hFits
    cases h
    exact ⟨Bool.eq_false_iff.mpr hFits, rfl, rfl⟩

/-- Names without the marker are bound to their values in a new frame. -/
theorem makeChildFrame_required {names : List String} (parent : FrameId)
    (hLength : names.length = vs.length) :
    makeChildFrame parent ⟨names, [], none⟩ vs = makeFrame ⟨some parent, names.zip vs⟩ := by
  have hFits : (⟨names, [], none⟩ : Formals).arity.accepts vs.length :=
    decide_eq_true hLength.symm
  have hBindings : (⟨names, [], none⟩ : Formals).bindings vs = names.zip vs := by
    rw [Formals.bindings, positional, List.length_nil, List.replicate_zero, List.append_nil,
      List.append_nil]
  rw [makeChildFrame, if_pos hFits, hBindings]

section Let
variable {run : Runner} {s : Stamp} {bindings body : Value} {operands items : List Value}
  {names : List String} {m n : Machine}
  (hOperands : checkOperands .binding (.pair s bindings body) 2 none = .ok operands)
  (hList : bindings.toList? = some items)
  (hFound : evalBindings run env [] [] items m = .value (names, vs) n)
include hOperands hList hFound

/-- With the names and the values found, a `let` makes its frame and runs its body there. -/
theorem evalLet_eq {formals : Formals} (hFormals : ofNames names = .ok formals) :
    evalLet run (.pair s bindings body) env m =
      (makeChildFrame env formals vs >>= fun frame => evalBody run frame body) n := by
  simp only [evalLet, hOperands, hList, Bind.bind, Eval.bind, Eval.ofExcept, Eval.pure, hFound,
    hFormals, Except.mapError]

/-- With different names, a `let` binds them to the values, unless the marker is one of
them. -/
theorem evalLet_of_nodup (hNodup : names.Nodup) :
    (optionalMarker ∉ names → evalLet run (.pair s bindings body) env m =
      (makeFrame ⟨some env, names.zip vs⟩ >>= fun frame => evalBody run frame body) n) ∧
    (optionalMarker ∈ names → ∃ formals, evalLet run (.pair s bindings body) env m =
      .failure (.wrongCount formals vs.length) n) := by
  obtain ⟨-, hLength⟩ := evalBindings_found hFound
  obtain ⟨formals, hFormals, hFits⟩ := ofNames_of_nodup hNodup
  rw [evalLet_eq hOperands hList hFound hFormals]
  constructor
  · intro hMarker
    rw [ofNames_eq hFormals hMarker, makeChildFrame_required env hLength]
  · intro hMarker
    have hMisfit : ¬ formals.arity.accepts vs.length :=
      fun hAccepts => hFits.mp (hLength ▸ hAccepts) hMarker
    refine ⟨formals, ?_⟩
    rw [makeChildFrame, if_neg hMisfit]
    rfl

end Let

/-- **Arguments that do not fit.** An evaluation does not end with the error of a frame,
unless it comes to a `let` that binds the marker of optional parameters. Where the frame
of a call cannot be made, the error names the procedure. A `let` with different names binds
them in a new frame, except that one that binds the marker fails with the error of its frame. -/
theorem miscounts_name_procedure (forms : FormTable) :
    (∀ fuel expr env m formals given n,
      evaluate forms fuel expr env m = .failure (.wrongCount formals given) n →
        ∀ alarm, ∃ n', runRefusing (Task.bindsMarker forms) alarm forms fuel (.eval expr env) m =
          .failure alarm n') ∧
    (∀ (run : Runner) s (kind : CompoundKind) formals body (args : List Value) env m e n,
      makeChildFrame (kind.parent env) formals args m = .failure e n →
        call run (.compound s kind formals body) args env m =
          .failure (.wrongArguments (Value.compound s kind formals body).text formals.arity
            args.length) m) ∧
    (∀ (run : Runner) s bindings body env m operands items names values n,
      checkOperands .binding (.pair s bindings body) 2 none = .ok operands →
      bindings.toList? = some items →
      evalBindings run env [] [] items m = .value (names, values) n →
        names = (Value.pair s bindings body).letNames ∧
        (names.Nodup → optionalMarker ∉ names → evalLet run (.pair s bindings body) env m =
          (makeFrame ⟨some env, names.zip values⟩ >>= fun frame => evalBody run frame body) n) ∧
        (names.Nodup → optionalMarker ∈ names → ∃ formals,
          evalLet run (.pair s bindings body) env m =
            .failure (.wrongCount formals values.length) n)) := by
  refine ⟨?_, ?_, ?_⟩
  · intro fuel expr env m formals given n hEnd alarm
    obtain hAlarm | ⟨-, hCounted⟩ := runRefusing_counted alarm forms fuel (.eval expr env) m
    · exact hAlarm
    · have hEnd : runTask forms fuel (.eval expr env) m = .failure (.wrongCount formals given) n :=
        hEnd
      rw [hEnd] at hCounted
      cases hCounted with
      | failure h => cases h
  · intro run s kind formals body args env m e n hFrame
    obtain ⟨hMisfit, -, -⟩ := makeChildFrame_failure hFrame
    simp only [call, callCompound, hMisfit]
    rfl
  · intro run s bindings body env m operands items names values n hOperands hList hFound
    refine ⟨?_, ?_, ?_⟩
    · rw [(evalBindings_found hFound).1, items_of_toList? hList]
      rfl
    · intro hNodup
      exact (evalLet_of_nodup hOperands hList hFound hNodup).1
    · intro hNodup
      exact (evalLet_of_nodup hOperands hList hFound hNodup).2

/-- `(let ((#!optional #t)) #t)` binds one name, once, and one value is too many for it. -/
theorem let_of_marker_miscounts :
    let operands : Value :=
      .pair 5 (.pair 4 (.pair 3 (.symbol "#!optional") (.pair 2 (.boolean true) .nil)) .nil)
        (.pair 1 (.boolean true) .nil)
    operands.letNames.Nodup ∧
      ∃ m, evaluate .standard 3 (.pair 0 (.symbol "let") operands) 0 Machine.populated =
        .failure (.wrongCount .empty 1) m := by
  refine ⟨?_, Machine.populated, rfl⟩
  decide

end MiniScheme
