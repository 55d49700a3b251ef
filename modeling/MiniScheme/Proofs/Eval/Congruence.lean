import MiniScheme.Eval.Run
import MiniScheme.Proofs.Eval.Performance

/-!
# Congruences between computations

Two runners that are related task by task give related computations, as long as
the relation holds between a computation and itself and goes through sequencing.
What a computation does with its runner then never has to be looked at again.

* `Eval.Congruence` — such a relation;
* `Eval.Le` — the second computation answers as the first one does, unless the
  first one runs out of fuel: a congruence, and so is its converse;
* `runTask_succ` — a run as a step and its completion;
* `evalEach_rel`, `evalBindings_rel`, `evalTest_rel`, `expandTemplate_rel`,
  `evalDefine_rel`, `evalAssignment_rel`, `callBuiltin_rel` — the parts of a step
  in which nothing stands in tail position.
-/

namespace MiniScheme

namespace Eval

instance : LawfulMonad Eval := LawfulMonad.mk' Eval
  (fun x => by
    funext m
    simp only [Functor.map, Eval.bind, Function.comp]
    cases x m <;> rfl)
  (fun _ _ => rfl)
  (fun x f g => by
    funext m
    simp only [Bind.bind, Eval.bind]
    cases x m <;> rfl)

/-- A relation that holds between a computation and itself and that sequencing
respects. -/
structure Congruence (r : {α : Type} → Eval α → Eval α → Prop) : Prop where
  refl {α : Type} (x : Eval α) : r x x
  bind {α β : Type} {x y : Eval α} {f g : α → Eval β} (hx : r x y) (hf : ∀ a, r (f a) (g a)) :
    r (x >>= f) (y >>= g)

/-- The second computation answers as the first one does, unless the first one
runs out of fuel. -/
def Le {α : Type} (x y : Eval α) : Prop := ∀ m, x m = .outOfFuel ∨ x m = y m

/-- To answer as the first one does, unless it runs out of fuel, is a congruence. -/
theorem le_congruence : Congruence Le where
  refl x m := .inr rfl
  bind {α β x y f g} hx hf m := by
    -- Without fuel in the first part there is none in the whole.
    simp only [Bind.bind, Eval.bind]
    rcases hx m with hOut | hEq
    · left
      rw [hOut]
    · rw [← hEq]
      cases x m with
      | value a m' => exact hf a m'
      | failure e m' => exact .inr rfl
      | outOfFuel => exact .inl rfl

/-- The converse of a congruence is one too. -/
theorem Congruence.converse {r : {α : Type} → Eval α → Eval α → Prop} (hr : Congruence r) :
    Congruence fun x y => r y x where
  refl x := hr.refl x
  bind hx hf := hr.bind hx hf

/-- Of three computations, each of which answers as the one before does, the last answers as
the first. -/
theorem Le.trans {α : Type} {x y z : Eval α} (hxy : Le x y) (hyz : Le y z) : Le x z := by
  intro m
  rcases hxy m with hOut | hEq
  · exact .inl hOut
  · rw [hEq]
    exact hyz m

/-- An answer of the lesser computation is one of the greater. -/
theorem Le.answer {α : Type} {x y : Eval α} (h : Le x y) {m : Machine} {a : Answer α}
    (ha : a ≠ .outOfFuel) (hx : x m = a) : y m = a := by
  rcases h m with hOut | hEq
  · exact absurd (hx.symm.trans hOut) ha
  · rw [← hEq, hx]

end Eval

/-- A run is a step, and what the step leaves pending completed with less fuel. -/
theorem runTask_succ (forms : FormTable) (fuel : Nat) (t : Task) :
    runTask forms (fuel + 1) t =
      t.step forms (runTask forms fuel) >>= complete (runTask forms fuel) := by
  funext m
  simp only [runTask, Bind.bind, Eval.bind]
  cases t.step forms (runTask forms fuel) m with
  | value outcome m' => cases outcome <;> rfl
  | failure e m' => rfl
  | outOfFuel => rfl

section Parts
variable {r : {α : Type} → Eval α → Eval α → Prop} (hr : Eval.Congruence r)
  {run run' : Runner} (hRun : ∀ t, r (run t) (run' t))
include hr hRun

/-! ## Evaluating several expressions -/

/-- Expressions one after the other are related, as each of them is. -/
theorem evalEach_rel (env : FrameId) (exprs : List Value) :
    r (evalEach run env exprs) (evalEach run' env exprs) := by
  -- The induction needs whatever values have been found before.
  suffices h : ∀ values, r (evalEachOnto run env values exprs) (evalEachOnto run' env values exprs)
    from h []
  induction exprs with
  | nil => exact fun values => hr.refl _
  | cons expr exprs ih => exact fun values => hr.bind (hRun _) fun v => ih (v :: values)

/-- The bindings of a `let` are related; no name or value found before matters. -/
theorem evalBindings_rel (env : FrameId) (bindings : List Value) :
    ∀ names values, r (evalBindings run env names values bindings)
      (evalBindings run' env names values bindings) := by
  induction bindings with
  | nil => exact fun names values => hr.refl _
  | cons binding bindings ih =>
    intro names values
    refine hr.bind (hr.refl _) fun items => ?_
    split
    · exact hr.bind (hRun _) fun v => ih _ _
    · exact hr.refl _
    · exact hr.refl _

/-- The test of a clause is related, whether it is an `else` or an expression. -/
theorem evalTest_rel (env : FrameId) (test : Value) (later : List Value) :
    r (evalTest run env test later) (evalTest run' env test later) := by
  unfold evalTest
  split
  · exact hr.refl _
  · exact hr.refl _
  · exact hRun _

/-! ## Templates -/

/-- A template is copied alike: the runner is asked for its unquoted parts only. -/
theorem expandTemplate_rel (env : FrameId) (level : Nat) (template : Value) :
    r (expandTemplate run env level template) (expandTemplate run' env level template) := by
  -- The level is not fixed: an inner template is copied at another one.
  induction template generalizing level with
  | pair stamp first rest ihFirst ihRest =>
    unfold expandTemplate
    split
    · split
      · exact hr.refl _
      · exact hr.bind (hr.refl _) fun operand => hRun _
      · exact hr.bind (ihRest _) fun rest => hr.refl _
    · exact hr.bind (ihRest _) fun rest => hr.refl _
    · split
      · refine hr.bind (hr.refl _) fun operand => hr.bind (hRun _) fun v => ?_
        cases v.toList? with
        | none => exact hr.refl _
        | some items => exact hr.bind (ihRest _) fun rest => hr.refl _
      · exact hr.bind (ihFirst _) fun first => hr.bind (ihRest _) fun rest => hr.refl _
  | _ => exact hr.refl _

/-! ## Binding names -/

/-- A `define` is related: at most one expression is evaluated. -/
theorem evalDefine_rel (operands : Value) (env : FrameId) :
    r (evalDefine run operands env) (evalDefine run' operands env) := by
  unfold evalDefine
  refine hr.bind (hr.refl _) fun items => ?_
  split
  · split
    · exact hr.bind (hRun _) fun v => hr.refl _
    · exact hr.refl _
  all_goals exact hr.refl _

/-- A `set!` is related: one expression is evaluated. -/
theorem evalAssignment_rel (operands : Value) (env : FrameId) :
    r (evalAssignment run operands env) (evalAssignment run' operands env) := by
  unfold evalAssignment
  refine hr.bind (hr.refl _) fun items => ?_
  split
  · exact hr.bind (hRun _) fun v => hr.refl _
  all_goals exact hr.refl _

/-! ## Built-in procedures -/

/-- An operation is related: of all of them, `eval` and `apply` ask the runner once, and the
others not at all. -/
theorem perform_rel (procedure : String) (op : Operation) (args : List Value) :
    r (op.perform run procedure args) (op.perform run' procedure args) := by
  obtain ⟨p, hPerform, hKind⟩ := op.performs procedure args
  rw [hPerform run, hPerform run']
  -- only two kinds of operations use the runner
  cases hKind with
  | evaluated | applied => exact hRun _
  | _ => exact hr.refl _

/-- The call of a built-in procedure is related. -/
theorem callBuiltin_rel (b : Builtin) (args : List Value) (env : FrameId) :
    r (callBuiltin run b args env) (callBuiltin run' b args env) := by
  unfold callBuiltin
  split
  · exact perform_rel hr hRun _ _ _
  · exact hr.refl _

end Parts
end MiniScheme
