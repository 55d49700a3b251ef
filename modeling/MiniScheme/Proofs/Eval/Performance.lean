import MiniScheme.Proofs.Procedure.WellFormed

/-!
# What an operation does

There are many built-in procedures, and what they do falls into few kinds. Most come
to a constant, or refuse their arguments, without a look at the machine. Some give back
a part of an argument, or make pairs of what they are given, or display a text. Only two
use the runner. What is proved of all operations is proved of these kinds.

* `Operation.perform_of_short` — an argument is missing;
* `Except.Settled` — what is computed without the machine, and `foldNumbers_settled`,
  `divideBy_settled`, `integerOperation_settled` — that numbers are so;
* `Operation.Performs` — the kinds;
* `Operation.performs` — there are no others.
-/

namespace MiniScheme

open Eval

/-! ## What is computed without the machine -/

/-- A value in which there is nothing of the arguments. -/
inductive Value.IsConstant : Value → Prop
  | number (x : Float) : IsConstant (.number x)
  | boolean (b : Bool) : IsConstant (.boolean b)
  | nil : IsConstant .nil

/-- Why an operation that has its arguments refuses them. That an environment was
expected is not among the reasons: only programs can see to it that there is one. -/
inductive EvalError.OfArguments (procedure : String) : EvalError → Prop
  | mistyped {kind : Required} (text : String) (hKind : kind ≠ .environment) :
      OfArguments procedure (.typeMismatch procedure kind text)
  | zero : OfArguments procedure .divisionByZero
  | raised (message : String) : OfArguments procedure (.raised message)

/-- What is required holds of the result, or the arguments are refused. -/
inductive Except.Settled {α : Type} (procedure : String) (holds : α → Prop) :
    Except EvalError α → Prop
  | ok {a : α} (h : holds a) : Settled procedure holds (.ok a)
  | error {e : EvalError} (h : e.OfArguments procedure) : Settled procedure holds (.error e)

namespace Except.Settled

variable {α β : Type} {procedure : String} {holds : α → Prop} {holds' : β → Prop}
  {x : Except EvalError α}

/-- Settled computations are settled one after the other. -/
theorem bind {f : α → Except EvalError β} (hx : Except.Settled procedure holds x)
    (hf : ∀ a, holds a → Except.Settled procedure holds' (f a)) :
    Except.Settled procedure holds' (x >>= f) := by
  cases hx with
  | ok h => exact hf _ h
  | error h => exact .error h

theorem map {f : α → β} (hx : Except.Settled procedure holds x)
    (hf : ∀ a, holds a → holds' (f a)) : Except.Settled procedure holds' (x.map f) := by
  cases hx with
  | ok h => exact .ok (hf _ h)
  | error h => exact .error h

end Except.Settled

namespace Operation

variable {args : List Value}

section Numbers
variable (procedure : String)

/-- An argument is a number, or it is refused. -/
theorem number_settled (v : Value) :
    Except.Settled procedure (fun _ => True) (number procedure v) := by
  unfold number
  split
  · exact .ok trivial
  · exact .error (.mistyped _ nofun)

theorem foldNumbers_settled (combine : Float → Float → Float) (acc : Float) :
    Except.Settled procedure Value.IsConstant (foldNumbers procedure combine acc args) := by
  induction args generalizing acc with
  | nil => exact .ok (.number acc)
  | cons v args ih => exact (number_settled procedure v).bind fun x _ => ih (combine acc x)

/-- Numbers divide a number to a number, unless one of them is refused or zero. -/
theorem divideBy_settled (acc : Float) :
    Except.Settled procedure Value.IsConstant (divideBy procedure acc args) := by
  induction args generalizing acc with
  | nil => exact .ok (.number acc)
  | cons v args ih =>
    refine (number_settled procedure v).bind fun x _ => ?_
    split
    · exact .error .zero
    · exact ih (acc / x)

/-- Two numbers are operated on to a number, unless one is refused or the second is zero. -/
theorem integerOperation_settled (operate : Float → Float → Float) (v w : Value) :
    Except.Settled procedure Value.IsConstant (integerOperation procedure operate v w) := by
  refine (number_settled procedure v).bind fun x _ => ?_
  refine (number_settled procedure w).bind fun y _ => ?_
  split
  · exact .error .zero
  · exact .ok (.number _)

/-- All arguments are numbers, or one of them is refused. -/
theorem mapM_number_settled :
    Except.Settled procedure (fun _ => True) (args.mapM (number procedure)) := by
  induction args with
  | nil => exact .ok trivial
  | cons v args ih =>
    rw [List.mapM_cons]
    refine (number_settled procedure v).bind fun x _ => ?_
    exact ih.bind fun xs _ => .ok trivial

end Numbers

/-! ## Arguments that are there -/

/-- Whatever else an operation would do, it fails where it misses an argument. -/
theorem perform_of_short (run : Runner) (procedure : String) {op : Operation}
    (hShort : args.length < op.reads) :
    op.perform run procedure args = Eval.fail (.missingArgument procedure) := by
  rcases args with _ | ⟨v, _ | ⟨w, _ | ⟨u, more⟩⟩⟩ <;> cases op <;> first
    | rfl
    | (simp only [reads, List.length_cons, List.length_nil] at hShort; omega)

theorem exists_first (h : 1 ≤ args.length) : ∃ v more, args = v :: more :=
  List.length_pos_iff_exists_cons.mp h

theorem exists_two (h : 2 ≤ args.length) : ∃ v w more, args = v :: w :: more := by
  rcases args with _ | ⟨v, _ | ⟨w, more⟩⟩
  · cases h
  · exact absurd h (by simp)
  · exact ⟨v, w, more, rfl⟩

theorem exists_three (h : 3 ≤ args.length) : ∃ v w u more, args = v :: w :: u :: more := by
  obtain ⟨v, w, more, rfl⟩ := exists_two (Nat.le_of_succ_le h)
  have hMore : 1 ≤ more.length := Nat.le_of_succ_le_succ (Nat.le_of_succ_le_succ h)
  obtain ⟨u, more, rfl⟩ := exists_first hMore
  exact ⟨v, w, u, more, rfl⟩

/-! ## The kinds of operations -/

/-- What an operation does with these arguments, once it is known on which runner. -/
inductive Performs (procedure : String) (op : Operation) (args : List Value) :
    (Runner → Eval Value) → Prop
  | missing (hShort : args.length < op.reads) :
      Performs procedure op args fun _ => Eval.fail (.missingArgument procedure)
  | settled {x : Except EvalError Value} (hSettled : Except.Settled procedure Value.IsConstant x) :
      Performs procedure op args fun _ => Eval.ofExcept x
  /-- One of the two parts of a pair. -/
  | part {s : Stamp} {first rest v : Value} (hPair : .pair s first rest ∈ args)
      (hPart : v = first ∨ v = rest) : Performs procedure op args fun _ => pure v
  | pair {first rest : Value} (hFirst : first ∈ args) (hRest : rest ∈ args) :
      Performs procedure op args fun _ => Eval.makePair first rest
  | list : Performs procedure op args fun _ => Eval.makeList args
  | appended {tail : Value} {before : List Value} (hTail : tail ∈ args)
      (hBefore : ∀ v ∈ before, v ∈ args) :
      Performs procedure op args fun _ => appendOnto procedure tail before
  | displayed (text : String) : Performs procedure op args fun _ => Eval.display text
  /-- Something else stands where the environment of an evaluation or a call belongs. -/
  | misplaced (hOp : op = .evaluate ∨ op = .apply) (text : String) :
      Performs procedure op args fun _ => Eval.fail (.typeMismatch procedure .environment text)
  | evaluated {expr : Value} {id : FrameId} (hExpr : expr ∈ args) (hEnv : .environment id ∈ args) :
      Performs procedure op args fun run => run (.eval expr id)
  | applied {f operands : Value} {items : List Value} {id : FrameId} (hProcedure : f ∈ args)
      (hOperands : operands ∈ args) (hList : operands.toList? = some items)
      (hEnv : .environment id ∈ args) :
      Performs procedure op args fun run => run (.call f items id)

section Cases
variable {procedure : String} {op : Operation}

theorem Performs.refused {e : EvalError} (h : e.OfArguments procedure) :
    Performs procedure op args fun _ => Eval.fail e :=
  .settled (.error h)

theorem Performs.constant {v : Value} (h : v.IsConstant) :
    Performs procedure op args fun _ => pure v :=
  .settled (.ok h)

end Cases

/-- An evaluation in a given environment. -/
theorem performs_evaluate (procedure : String) (hEnough : 2 ≤ args.length) :
    ∃ p, (∀ run, evaluate.perform run procedure args = p run) ∧
      Performs procedure evaluate args p := by
  obtain ⟨expr, env, more, rfl⟩ := exists_two hEnough
  cases env with
  | environment id => exact ⟨_, fun _ => rfl, .evaluated (by simp) (by simp)⟩
  | _ => exact ⟨_, fun _ => rfl, .misplaced (.inl rfl) _⟩

/-- A call from a given environment with the items of a list. -/
theorem performs_apply (procedure : String) (hEnough : 3 ≤ args.length) :
    ∃ p, (∀ run, apply.perform run procedure args = p run) ∧ Performs procedure apply args p := by
  obtain ⟨f, operands, env, more, rfl⟩ := exists_three hEnough
  cases env with
  | environment id =>
    simp only [perform]
    cases hList : operands.toList? with
    | none =>
      simp only
      exact ⟨_, fun _ => rfl, .refused (.mistyped _ nofun)⟩
    | some items =>
      simp only
      exact ⟨_, fun _ => rfl, .applied (by simp) (by simp) hList (by simp)⟩
  | _ => exact ⟨_, fun _ => rfl, .misplaced (.inr rfl) _⟩

/-- **Operations.** What an operation does is of one of the kinds. -/
theorem performs (procedure : String) (op : Operation) (args : List Value) :
    ∃ p, (∀ run, op.perform run procedure args = p run) ∧ Performs procedure op args p := by
  by_cases hShort : args.length < op.reads
  · exact ⟨_, fun run => perform_of_short run procedure hShort, .missing hShort⟩
  have hEnough : op.reads ≤ args.length := Nat.le_of_not_lt hShort
  clear hShort
  cases op with
  | add | multiply => exact ⟨_, fun _ => rfl, .settled (foldNumbers_settled procedure _ _)⟩
  | subtract =>
    obtain ⟨v, more, rfl⟩ := exists_first hEnough
    cases more with
    | nil =>
      exact ⟨_, fun _ => rfl, .settled ((number_settled procedure v).map fun _ _ => .number _)⟩
    | cons w more =>
      refine ⟨_, fun _ => rfl, .settled ((number_settled procedure v).bind fun x _ => ?_)⟩
      exact foldNumbers_settled procedure _ x
  | divide =>
    obtain ⟨v, more, rfl⟩ := exists_first hEnough
    cases more with
    | nil => exact ⟨_, fun _ => rfl, .settled (divideBy_settled procedure 1)⟩
    | cons w more =>
      refine ⟨_, fun _ => rfl, .settled ((number_settled procedure v).bind fun x _ => ?_)⟩
      exact divideBy_settled procedure x
  | absolute =>
    obtain ⟨v, more, rfl⟩ := exists_first hEnough
    exact ⟨_, fun _ => rfl, .settled ((number_settled procedure v).map fun _ _ => .number _)⟩
  | isZero =>
    obtain ⟨v, more, rfl⟩ := exists_first hEnough
    exact ⟨_, fun _ => rfl, .settled ((number_settled procedure v).map fun _ _ => .boolean _)⟩
  | quotient | remainder | modulo =>
    obtain ⟨v, w, more, rfl⟩ := exists_two hEnough
    exact ⟨_, fun _ => rfl, .settled (integerOperation_settled procedure _ v w)⟩
  | compare order =>
    exact ⟨_, fun _ => rfl, .settled ((mapM_number_settled procedure).map fun _ _ => .boolean _)⟩
  | identical | equal =>
    obtain ⟨v, w, more, rfl⟩ := exists_two hEnough
    exact ⟨_, fun _ => rfl, .constant (.boolean _)⟩
  | ask q =>
    obtain ⟨v, more, rfl⟩ := exists_first hEnough
    exact ⟨_, fun _ => rfl, .constant (.boolean _)⟩
  | cons =>
    obtain ⟨v, w, more, rfl⟩ := exists_two hEnough
    exact ⟨_, fun _ => rfl, .pair (by simp) (by simp)⟩
  | first =>
    obtain ⟨v, more, rfl⟩ := exists_first hEnough
    cases v with
    | pair s first rest => exact ⟨_, fun _ => rfl, .part List.mem_cons_self (.inl rfl)⟩
    | _ => exact ⟨_, fun _ => rfl, .refused (.mistyped _ nofun)⟩
  | rest =>
    obtain ⟨v, more, rfl⟩ := exists_first hEnough
    cases v with
    | pair s first rest => exact ⟨_, fun _ => rfl, .part List.mem_cons_self (.inr rfl)⟩
    | _ => exact ⟨_, fun _ => rfl, .refused (.mistyped _ nofun)⟩
  | list => exact ⟨_, fun _ => rfl, .list⟩
  | length =>
    obtain ⟨v, more, rfl⟩ := exists_first hEnough
    simp only [perform]
    cases v.toList? with
    | none => exact ⟨_, fun _ => rfl, .refused (.mistyped _ nofun)⟩
    | some items => exact ⟨_, fun _ => rfl, .constant (.number _)⟩
  | append =>
    -- the last argument is the tail, and the others are put in front of it one by one
    have hArgs : ∀ v ∈ args.reverse, v ∈ args := fun v => List.mem_reverse.mp
    simp only [perform]
    cases hReverse : args.reverse with
    | nil => exact ⟨_, fun _ => rfl, .constant .nil⟩
    | cons tail before =>
      rw [hReverse] at hArgs
      obtain ⟨hTail, hBefore⟩ := List.forall_mem_cons.mp hArgs
      exact ⟨_, fun _ => rfl, .appended hTail hBefore⟩
  | display | print =>
    obtain ⟨v, more, rfl⟩ := exists_first hEnough
    exact ⟨_, fun _ => rfl, .displayed _⟩
  | newline => exact ⟨_, fun _ => rfl, .displayed _⟩
  | raise => cases args <;> exact ⟨_, fun _ => rfl, .refused (.raised _)⟩
  | evaluate => exact performs_evaluate procedure hEnough
  | apply => exact performs_apply procedure hEnough

end Operation
end MiniScheme
