import MiniScheme.Proofs.Eval.Miscount
import MiniScheme.Proofs.Procedure.Binding

/-!
# Counts that are refused

An error about the count of arguments has two counts in it: those that the procedure
accepts, and the one that was given. A call decides by the former whether it fails at
all. So the count given is never among those accepted, for any kind of procedure, and
neither is it in such an error of a call further inside.

The exception are arguments that are no proper list. A built-in procedure says that
they are malformed. A procedure with a body says that there are too few or too many of
them, whatever their count.

* `runTask_counted` — no run fails with a count that is accepted;
* `callOn_counted`, `completeCall_counted` — nor does a call with a proper list;
* `CallFails` — a call fails at once;
* `wrong_counts_refused` — what becomes of any value as the arguments of a call.
-/

namespace MiniScheme

open Eval

/-- If it is an error about a count that a computation fails with, the count is refused. -/
theorem Eval.CountedUnless.refuses {α : Type} {holds : α → Prop} {x : Eval α}
    (h : ∀ alarm, CountedUnless false alarm holds x x) {m n : Machine} {procedure : String}
    {expected : Arity} {given : Nat}
    (hEnd : x m = .failure (.wrongArguments procedure expected given) n) :
    expected.accepts given = false := by
  -- nothing raises the alarm, and as an alarm any other error will do
  obtain ⟨n', hAlarm⟩ | ⟨-, hCounted⟩ := h .divisionByZero m
  · rw [hEnd] at hAlarm
    cases hAlarm
  · rw [hEnd] at hCounted
    cases hCounted with
    | failure hRefused => exact hRefused

/-- A run does not fail with a count that is accepted. -/
theorem runTask_counted (alarm : EvalError) (forms : FormTable) (fuel : Nat) (t : Task) :
    CountedUnless false alarm Any (runTask forms fuel t) (runTask forms fuel t) := by
  -- All that a step leaves to other runs is left to runs with less fuel.
  induction fuel generalizing t with
  | zero => exact .of_same fun _ => .outOfFuel
  | succ fuel ih =>
    rw [runTask_succ]
    refine (step_counted ih nofun).bind fun outcome _ => ?_
    cases outcome with
    | done v => exact .pure trivial
    | pending expr env => exact ih _

section Calls
variable {args : Value} (hList : args.isList) (alarm : EvalError) (forms : FormTable) (fuel : Nat)
  (procedure : Value) (env : FrameId)
include hList

/-- A call with a proper list is a call with its items. -/
theorem callOn_of_isList (run : Runner) :
    callOn run procedure args env = call run procedure args.items env := by
  have hItems : args.toList? = some args.items := if_pos hList
  unfold callOn
  rw [hItems]

/-- A call on the items of a value miscounts no more than the call on these arguments does. -/
theorem callOn_counted :
    CountedUnless false alarm Any (callOn (runTask forms fuel) procedure args env)
      (callOn (runTask forms fuel) procedure args env) := by
  rw [callOn_of_isList hList]
  exact call_counted (runTask_counted alarm forms fuel)

/-- A call that is completed miscounts no more than its body does. -/
theorem completeCall_counted :
    CountedUnless false alarm Any (completeCall forms fuel procedure args env)
      (completeCall forms fuel procedure args env) := by
  refine (callOn_counted hList alarm forms fuel procedure env).bind fun outcome _ => ?_
  cases outcome with
  | done v => exact .pure trivial
  | pending expr env => exact runTask_counted alarm forms fuel _

end Calls

/-- The call fails before anything else is done, whether its outcome is to be completed or
not. -/
def CallFails (forms : FormTable) (fuel : Nat) (procedure args : Value) (env : FrameId)
    (m : Machine) (e : EvalError) : Prop :=
  callOn (runTask forms fuel) procedure args env m = .failure e m ∧
    completeCall forms fuel procedure args env m = .failure e m

/-- A call that fails has no outcome to complete. -/
theorem CallFails.of_callOn {forms : FormTable} {fuel : Nat} {procedure args : Value}
    {env : FrameId} {m : Machine} {e : EvalError}
    (h : callOn (runTask forms fuel) procedure args env m = .failure e m) :
    CallFails forms fuel procedure args env m e := by
  refine ⟨h, ?_⟩
  simp only [completeCall, Bind.bind, Eval.bind, h]

/-- **Wrong counts are refused.** If a call with a proper list of arguments fails with an error
about their count, or a call further inside does, then the count is one that is refused. A
procedure fails so before anything else is done if there are too few or too many arguments for
it, and a built-in procedure that takes the environment counts that too. Arguments that are no
proper list are malformed for a built-in procedure, while one with a body reports the count of
the items that are there. -/
theorem wrong_counts_refused (forms : FormTable) (fuel : Nat) (args : Value) (env : FrameId)
    (m : Machine) :
    (args.isList → ∀ procedure text expected given n,
      callOn (runTask forms fuel) procedure args env m =
          .failure (.wrongArguments text expected given) n ∨
        completeCall forms fuel procedure args env m =
          .failure (.wrongArguments text expected given) n →
      expected.accepts given = false) ∧
    (∀ s b, args.isList → b.arity.accepts (b.allArguments args.items env).length = false →
      CallFails forms fuel (.builtin s b) args env m
        (.wrongArguments b.name b.arity (b.allArguments args.items env).length)) ∧
    (∀ s kind formals body, args.isList →
      args.items.length < formals.required.length ∨
        formals.rest = none ∧ formals.positional.length < args.items.length →
      CallFails forms fuel (.compound s kind formals body) args env m
        (.wrongArguments (Value.compound s kind formals body).text formals.arity
          args.items.length)) ∧
    (∀ s b, args.isList = false →
      CallFails forms fuel (.builtin s b) args env m (.malformed args.text)) ∧
    (∀ s kind formals body, args.isList = false →
      CallFails forms fuel (.compound s kind formals body) args env m
        (.wrongArguments (Value.compound s kind formals body).text formals.arity
          args.items.length)) := by
  have hImproper : args.isList = false → args.toList? = none := by
    intro hList
    rw [Value.toList?, hList]
    rfl
  -- what is said, built-in procedures, procedures with a body, and operands that are no list for
  -- both
  refine ⟨?_, ?_, ?_, ?_, ?_⟩
  · rintro hList procedure text expected given n (hEnd | hEnd)
    · exact CountedUnless.refuses
        (fun alarm => callOn_counted hList alarm forms fuel procedure env) hEnd
    · exact CountedUnless.refuses
        (fun alarm => completeCall_counted hList alarm forms fuel procedure env) hEnd
  · intro s b hList hRefused
    refine .of_callOn ?_
    rw [callOn_of_isList hList]
    simp only [call, callBuiltin, hRefused]
    rfl
  · intro s kind formals body hList hCount
    have hRefused : formals.arity.accepts args.items.length = false := by
      rw [Bool.eq_false_iff]
      intro hAccepts
      obtain ⟨hLeast, hMost⟩ := Formals.accepts_iff.mp hAccepts
      obtain hFew | ⟨hRest, hMany⟩ := hCount
      · omega
      · have hLe := hMost hRest
        omega
    refine .of_callOn ?_
    rw [callOn_of_isList hList]
    simp only [call, callCompound, hRefused]
    rfl
  · intro s b hList
    refine .of_callOn ?_
    rw [callOn, hImproper hList]
    rfl
  · intro s kind formals body hList
    refine .of_callOn ?_
    rw [callOn, hImproper hList]
    rfl

/-- `(lambda (a) a)` called with `#t` and `#f`, `(lambda () (car))` called as it should be, so
that it is the call in its body that fails, and `car` with `#t` as its list of arguments. -/
theorem wrong_counts_refused_called :
    let unary : Value := .compound 0 (.lambda 0) ⟨["a"], [], none⟩ (.pair 1 (.symbol "a") .nil)
    let args : Value := .pair 2 (.boolean true) (.pair 3 (.boolean false) .nil)
    let caller : Value :=
      .compound 0 (.lambda 0) .empty (.pair 1 (.pair 2 (.symbol "car") .nil) .nil)
    let car : Value := .builtin 0 (.plain "car" (.exactly 1) .first)
    CallFails .standard 3 unary args 0 .populated
        (.wrongArguments "(lambda (a) a)" (.exactly 1) 2) ∧
      (Arity.exactly 1).accepts 2 = false ∧
      (∃ n, completeCall .standard 3 caller .nil 0 .populated =
        .failure (.wrongArguments "car" (.exactly 1) 0) n) ∧
      (Arity.exactly 1).accepts 0 = false ∧
      CallFails .standard 3 car (.boolean true) 0 .populated (.malformed "#t") := by
  intro unary args caller car
  obtain ⟨hRefused, -, hCompound, -⟩ := wrong_counts_refused .standard 3 args 0 .populated
  obtain ⟨hInside, -⟩ := wrong_counts_refused .standard 3 .nil 0 .populated
  obtain ⟨-, -, -, hMalformed, -⟩ := wrong_counts_refused .standard 3 (.boolean true) 0 .populated
  -- two operands for one parameter, and a call within a body
  have hMany := hCompound 0 (.lambda 0) ⟨["a"], [], none⟩ (.pair 1 (.symbol "a") .nil) rfl
    (.inr ⟨rfl, by decide⟩)
  obtain ⟨n, hEnd⟩ : ∃ n, completeCall .standard 3 caller .nil 0 .populated =
      .failure (.wrongArguments "car" (.exactly 1) 0) n := ⟨_, rfl⟩
  exact ⟨hMany, hRefused rfl unary _ _ _ _ (.inr hMany.2), ⟨n, hEnd⟩,
    hInside rfl caller _ _ _ _ (.inr hEnd), hMalformed 0 _ rfl⟩

/-- `(lambda (a) a)` takes one argument. There is one item in `(#t . #f)`, and it is reported
as a wrong count. -/
theorem improper_arguments_miscounted :
    let procedure : Value :=
      .compound 0 (.lambda 0) ⟨["a"], [], none⟩ (.pair 1 (.symbol "a") .nil)
    let args : Value := .pair 2 (.boolean true) (.boolean false)
    args.isList = false ∧
      CallFails .standard 0 procedure args 0 Machine.populated
        (.wrongArguments "(lambda (a) a)" (.exactly 1) 1) ∧
      (Arity.exactly 1).accepts 1 = true :=
  ⟨rfl, ⟨rfl, rfl⟩, rfl⟩

end MiniScheme
