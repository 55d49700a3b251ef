import MiniScheme.Proofs.Eval.Agreement
import MiniScheme.Proofs.Eval.Congruence

/-!
# Two runs side by side

Evaluation cannot tell apart what is alike: on values that are alike, in a frame
that both runs see, every part of the evaluator agrees with itself, provided the
runs of the parts agree.

* `evalBody_agrees`, `expandTemplate_agrees`, `formEval_agrees`, … — one lemma for
  each function of the evaluator;
* `runTask_agrees` — whole runs with the same fuel.
-/

namespace MiniScheme

open Value Eval

variable {c : Correspondence} {v w : Value} {vs ws : List Value} {env : FrameId}

/-! ## Operands and parameter lists -/

/-- Corresponding operands pass the same check, or fail it with the same error. -/
theorem checkOperands_agrees (form : Form) (h : v.Alike c w) (min : Nat) (max : Option Nat) :
    Except.Agrees (AllAlike c) (checkOperands form v min max) (checkOperands form w min max) := by
  unfold checkOperands
  -- The two lists are equally long, and an error shows only their text.
  rw [h.text_eq]
  rcases h.toList? with ⟨hNone, hNone'⟩ | ⟨vs, ws, hSome, hSome', hs⟩
  · rw [hNone, hNone']
    exact .error _
  · rw [hSome, hSome']
    simp only [hs.length_eq]
    split
    · exact .error _
    · split
      · exact .error _
      · exact .ok hs

/-- Corresponding operands have corresponding only ones, or the same error. -/
theorem onlyOperand_agrees (form : Form) (h : v.Alike c w) :
    Except.Agrees (Value.Alike c) (onlyOperand form v) (onlyOperand form w) := by
  have hItems := checkOperands_agrees form h 1 (some 1)
  unfold onlyOperand
  rw [h.text_eq]
  generalize checkOperands form v 1 (some 1) = x, checkOperands form w 1 (some 1) = y at hItems
  cases hItems with
  | error e => exact .error e
  | ok hs =>
    cases hs with
    | nil => exact .error _
    | cons hFirst hRest => exact .ok hFirst

/-- Corresponding parameter lists are parsed to the same parameters, or refused alike. -/
theorem parseFormals_agrees (form : Form) (h : v.Alike c w) :
    Agrees c Eq (Eval.ofExcept (parseFormals form v)) (Eval.ofExcept (parseFormals form w)) := by
  rw [parseFormals, parseFormals, h.parse_eq]
  exact .same _

/-! ## Atoms and tails -/

theorem finished_agrees {x y : Eval Value} (h : Agrees c (Value.Alike c) x y) :
    Agrees c (Outcome.Alike c) (finished x) (finished y) :=
  h.bind fun _ _ hValue => .pure (.done hValue)

/-- Corresponding atoms agree: a symbol is looked up in the same frame, all else is its
own value. -/
theorem evalAtom_agrees (h : v.Alike c w) (hEnv : c.frame env) :
    Agrees c (Value.Alike c) (evalAtom v env) (evalAtom w env) := by
  cases h with
  | atom a =>
    cases a with
    | symbol name => exact lookup_agrees hEnv name
    | _ => exact .pure (.atom _)
  | undefined => exact .pure .undefined
  | pair hStamp hFirst hRest => exact .pure (.pair hStamp hFirst hRest)
  | builtin hStamp b => exact .pure (.builtin hStamp b)
  | compound hStamp hKind hBody => exact .pure (.compound hStamp hKind hBody)
  | environment hFrame => exact .pure (.environment hFrame)

/-- What is left to the loop corresponds. -/
theorem evalTail_agrees (h : v.Alike c w) (hEnv : c.frame env) :
    Agrees c (Outcome.Alike c) (evalTail v env) (evalTail w env) := by
  have hAtom := finished_agrees (evalAtom_agrees h hEnv)
  -- Only a combination is left pending.
  cases h with
  | pair hStamp hFirst hRest => exact .pure (.pending (.pair hStamp hFirst hRest) hEnv)
  | _ => exact hAtom

section Parts
variable {run run' : Runner}
  (hRun : ∀ t t' : Task, t.Alike c t' → Agrees c (Value.Alike c) (run t) (run' t'))
include hRun

/-! ## Several expressions -/

/-- Corresponding bodies agree, and their last expressions are left to the loop. -/
theorem evalBody_agrees (hEnv : c.frame env) (h : v.Alike c w) :
    Agrees c (Outcome.Alike c) (evalBody run env v) (evalBody run' env w) := by
  induction h with
  | @pair s t v w v' w' hStamp hFirst hRest ihFirst ihRest =>
    -- The last expression is in tail position in both runs or in neither.
    by_cases hNil : v' = .nil
    · subst hNil
      cases hRest
      exact evalTail_agrees hFirst hEnv
    · have hNil' : w' ≠ .nil := by
        rintro rfl
        cases hRest
        exact hNil rfl
      rw [evalBody, evalBody]
      · exact (hRun _ _ (.eval hFirst hEnv)).bind fun _ _ _ => ihRest
      · exact hNil'
      · exact hNil
  | @compound s t kind formals v w hStamp hKind hBody ih =>
    have h : (compound s kind formals v).Alike c (compound t kind formals w) :=
      .compound hStamp hKind hBody
    simp only [evalBody, h.text_eq]
    exact .fail _
  | _ => exact .fail _

/-- Corresponding expressions have corresponding values. -/
theorem evalEach_agrees (hEnv : c.frame env) (hs : AllAlike c vs ws) :
    Agrees c (AllAlike c) (evalEach run env vs) (evalEach run' env ws) := by
  -- The values so far are alike as well, and are the last ones first.
  suffices h : ∀ values values', AllAlike c values values' →
      Agrees c (AllAlike c) (evalEachOnto run env values vs) (evalEachOnto run' env values' ws)
    from h [] [] .nil
  induction hs with
  | nil => exact fun values values' hValues => .pure (List.forall₂_reverse_iff.mpr hValues)
  | cons hFirst hRest ih =>
    intro values values' hValues
    exact (hRun _ _ (.eval hFirst hEnv)).bind fun _ _ h => ih _ _ (.cons h hValues)

/-! ## Templates -/

omit hRun in
/-- Both are spliced elements with operands that are alike, or neither is one. -/
theorem splicedOperands?_alike (h : v.Alike c w) :
    (splicedOperands? v = none ∧ splicedOperands? w = none) ∨
      ∃ v' w', splicedOperands? v = some v' ∧ splicedOperands? w = some w' ∧ v'.Alike c w' := by
  unfold splicedOperands?
  split
  · rename_i stamp operands
    cases h with
    | pair hStamp hFirst hRest =>
      cases hFirst
      exact .inr ⟨_, _, rfl, rfl, hRest⟩
  · rename_i hOther
    split
    · cases h with
      | pair hStamp hFirst hRest =>
        cases hFirst
        exact (hOther _ _ rfl).elim
    · exact .inl ⟨rfl, rfl⟩

omit hRun in
/-- A spliced element gives its items, if it is at the outermost level. -/
theorem expandTemplate_spliced {operands : Value} (h : splicedOperands? v = some operands)
    (s : Stamp) (rest : Value) :
    expandTemplate run env 1 (.pair s v rest) = (do
      let operand ← Eval.ofExcept (onlyOperand .unquoteSplicing operands)
      let value ← run (.eval operand env)
      match value.toList? with
      | none => Eval.fail (.typeMismatch Form.unquoteSplicing.keyword .list value.text)
      | some items => do
        let rest ← expandTemplate run env 1 rest
        Eval.makeChain items rest) := by
  unfold splicedOperands? at h
  split at h
  · cases h
    rfl
  · cases h

omit hRun in
/-- Any other element that is no mark is copied. -/
theorem expandTemplate_element (hUnquote : v ≠ .symbol "unquote")
    (hQuasiquote : v ≠ .symbol "quasiquote") {level : Nat}
    (h : level = 1 → splicedOperands? v = none) (s : Stamp) (rest : Value) :
    expandTemplate run env level (.pair s v rest) = (do
      let first ← expandTemplate run env level v
      let rest ← expandTemplate run env level rest
      Eval.makePair first rest) := by
  rw [expandTemplate]
  · exact hUnquote
  · exact hQuasiquote
  · intro operands hLevel hSome
    rw [h hLevel] at hSome
    cases hSome

/-- **Corresponding templates** are copied to corresponding values. Which case of the copy applies
depends on symbols only, and these are the same in both. -/
theorem expandTemplate_agrees (hEnv : c.frame env) (level : Nat) (h : v.Alike c w) :
    Agrees c (Value.Alike c) (expandTemplate run env level v)
      (expandTemplate run' env level w) := by
  -- The level is not fixed: an inner template is copied at another one.
  induction h generalizing level with
  | @pair s t first first' rest rest' hStamp hFirst hRest ihFirst ihRest =>
    by_cases hUnquote : first = .symbol "unquote"
    · subst hUnquote
      cases hFirst
      match level with
      | 0 => exact .fail _
      | 1 =>
        refine (Agrees.ofExcept (onlyOperand_agrees .unquote hRest)).bind fun _ _ hOperand => ?_
        exact hRun _ _ (.eval hOperand hEnv)
      | outer + 2 => exact (ihRest _).bind fun _ _ hRest => makePair_agrees (.atom _) hRest
    by_cases hQuasiquote : first = .symbol "quasiquote"
    · subst hQuasiquote
      cases hFirst
      exact (ihRest _).bind fun _ _ hRest => makePair_agrees (.atom _) hRest
    have hUnquote' : first' ≠ .symbol "unquote" := fun hEq => hUnquote (hFirst.eq_symbol hEq)
    have hQuasiquote' : first' ≠ .symbol "quasiquote" :=
      fun hEq => hQuasiquote (hFirst.eq_symbol hEq)
    have hSpliced := splicedOperands?_alike hFirst
    by_cases hLevel : level = 1 ∧ splicedOperands? first ≠ none
    · obtain ⟨rfl, hSome⟩ := hLevel
      obtain ⟨hNone, -⟩ | ⟨operands, operands', hSome, hSome', hOperands⟩ := hSpliced
      · exact absurd hNone hSome
      rw [expandTemplate_spliced hSome, expandTemplate_spliced hSome']
      refine (Agrees.ofExcept (onlyOperand_agrees .unquoteSplicing hOperands)).bind ?_
      intro _ _ hOperand
      refine (hRun _ _ (.eval hOperand hEnv)).bind fun v w hValue => ?_
      rw [hValue.text_eq]
      rcases hValue.toList? with ⟨hNone, hNone'⟩ | ⟨vs, ws, hList, hList', hs⟩
      · rw [hNone, hNone']
        exact .fail _
      · rw [hList, hList']
        exact (ihRest _).bind fun _ _ hRest => makeChain_agrees hs hRest
    · have hNone : level = 1 → splicedOperands? first = none :=
        fun hOne => by_contra fun hSome => hLevel ⟨hOne, hSome⟩
      have hNone' : level = 1 → splicedOperands? first' = none := by
        intro hOne
        obtain ⟨-, hNone'⟩ | ⟨_, _, hSome, -, -⟩ := hSpliced
        · exact hNone'
        · rw [hNone hOne] at hSome
          cases hSome
      rw [expandTemplate_element hUnquote hQuasiquote hNone,
        expandTemplate_element hUnquote' hQuasiquote' hNone']
      refine (ihFirst _).bind fun _ _ hFirst => ?_
      exact (ihRest _).bind fun _ _ hRest => makePair_agrees hFirst hRest
  | atom a => exact .pure (.atom a)
  | undefined => exact .pure .undefined
  | builtin hStamp b => exact .pure (.builtin hStamp b)
  | compound hStamp hKind hBody => exact .pure (.compound hStamp hKind hBody)
  | environment hFrame => exact .pure (.environment hFrame)

/-! ## Binding names -/

omit hRun in
/-- Both runs bind the name to a new procedure. -/
theorem defineProcedure_agrees {v' w' : Value} (form : Form) {kind : CompoundKind}
    (hKind : c.Sees kind) (name : String) (hParameters : v.Alike c w) (hBody : v'.Alike c w')
    (hEnv : c.frame env) :
    Agrees c (Value.Alike c)
      (do
        let formals ← Eval.ofExcept (parseFormals form v)
        let procedure ← Eval.makeProcedure kind formals v'
        Eval.define env name procedure
        return .symbol name)
      (do
        let formals ← Eval.ofExcept (parseFormals form w)
        let procedure ← Eval.makeProcedure kind formals w'
        Eval.define env name procedure
        return .symbol name) := by
  refine (parseFormals_agrees form hParameters).bind ?_
  rintro formals _ rfl
  refine (makeProcedure_agrees hKind formals hBody).bind fun p q hProcedure => ?_
  exact (define_agrees hEnv name hProcedure).bind fun _ _ _ => .pure (.atom _)

/-- Corresponding definitions bind the same name to corresponding values. -/
theorem evalDefine_agrees (h : v.Alike c w) (hEnv : c.frame env) :
    Agrees c (Value.Alike c) (evalDefine run v env) (evalDefine run' w env) := by
  unfold evalDefine
  rw [h.text_eq]
  refine (Agrees.ofExcept (checkOperands_agrees .define h 2 none)).bind fun items items' hs => ?_
  -- What is defined is a symbol, or a procedure with its name and parameters; the text of
  -- anything else is part of the error.
  cases h with
  | pair hStamp hFirst hRest =>
    have hText := hFirst.text_eq
    cases hFirst with
    | atom a =>
      cases a with
      | symbol name =>
        rcases hs with _ | ⟨hName, _ | ⟨hExpr, _ | ⟨hMore, hs⟩⟩⟩
        · exact .fail _
        · exact .fail _
        · refine (hRun _ _ (.eval hExpr hEnv)).bind fun _ _ hValue => ?_
          exact (define_agrees hEnv name hValue).bind fun _ _ _ => .pure (.atom _)
        · exact .fail _
      | _ => exact .fail _
    | pair hStamp' hName hParameters =>
      have hText := hName.text_eq
      cases hName with
      | atom a =>
        cases a with
        | symbol name =>
          have hKind : c.Sees (.lambda env) := hEnv
          exact defineProcedure_agrees .define hKind name hParameters hRest hEnv
        | _ => exact .fail _
      | _ =>
        simp only [hText]
        exact .fail _
    | _ =>
      simp only [hText]
      exact .fail _
  | _ => exact .fail _

omit hRun in
/-- Corresponding definitions bind the same name to corresponding transformers. -/
theorem evalDefineMacro_agrees (h : v.Alike c w) (hEnv : c.frame env) :
    Agrees c (Value.Alike c) (evalDefineMacro v env) (evalDefineMacro w env) := by
  unfold evalDefineMacro
  rw [h.text_eq]
  refine (Agrees.ofExcept (checkOperands_agrees .defineMacro h 2 none)).bind fun _ _ _ => ?_
  -- The text of what is no transformer by its name is part of the error.
  cases h with
  | pair hStamp hFirst hRest =>
    cases hFirst with
    | pair hStamp' hName hParameters =>
      have hText := hName.text_eq
      cases hName with
      | atom a =>
        cases a with
        | symbol name =>
          have hKind : c.Sees .transformer := trivial
          exact defineProcedure_agrees .defineMacro hKind name hParameters hRest hEnv
        | _ => exact .fail _
      | _ =>
        simp only [hText]
        exact .fail _
    | _ => exact .fail _
  | _ => exact .fail _

/-- Corresponding assignments assign corresponding values to the same name. -/
theorem evalAssignment_agrees (h : v.Alike c w) (hEnv : c.frame env) :
    Agrees c (Value.Alike c) (evalAssignment run v env) (evalAssignment run' w env) := by
  unfold evalAssignment
  rw [h.text_eq]
  refine (Agrees.ofExcept (checkOperands_agrees .assignment h 2 (some 2))).bind fun _ _ hs => ?_
  -- The name comes first; what stands in its place is shown in the error.
  cases hs with
  | nil => exact .fail _
  | cons hName hs =>
    have hText := hName.text_eq
    cases hName with
    | atom a =>
      cases a with
      | symbol name =>
        cases hs with
        | nil => exact .fail _
        | cons hExpr hs =>
          refine (hRun _ _ (.eval hExpr hEnv)).bind fun _ _ hValue => ?_
          exact (assign_agrees hEnv name hValue).bind fun _ _ _ => .pure .undefined
      | _ => exact .fail _
    | _ =>
      simp only [hText]
      exact .fail _

/-- Corresponding bindings of a `let` give the same names and corresponding values. -/
theorem evalBindings_agrees (hEnv : c.frame env) (hs : AllAlike c vs ws) :
    ∀ names values values', AllAlike c values values' →
      Agrees c (fun x y => x.1 = y.1 ∧ AllAlike c x.2 y.2)
        (evalBindings run env names values vs) (evalBindings run' env names values' ws) := by
  -- The values found so far correspond, and the names are the same.
  induction hs with
  | nil =>
    intro names values values' hValues
    exact .pure ⟨rfl, List.forall₂_reverse_iff.mpr hValues⟩
  | @cons binding binding' _ _ hBinding hBindings ih =>
    intro names values values' hValues
    unfold evalBindings
    rw [hBinding.text_eq]
    refine (Agrees.ofExcept (checkOperands_agrees .binding hBinding 2 (some 2))).bind ?_
    intro items items' hItems
    -- The name of a binding comes first; what stands in its place is shown in the error.
    cases hItems with
    | nil => exact .fail _
    | cons hName hItems =>
      have hText := hName.text_eq
      cases hName with
      | atom a =>
        cases a with
        | symbol name =>
          cases hItems with
          | nil => exact .fail _
          | cons hExpr hItems =>
            refine (hRun _ _ (.eval hExpr hEnv)).bind fun _ _ hValue => ?_
            exact ih _ _ _ (.cons hValue hValues)
        | _ => exact .fail _
      | _ =>
        simp only [hText]
        exact .fail _

/-- Corresponding `let`s make the same frame with corresponding values, and leave
corresponding bodies. -/
theorem evalLet_agrees (h : v.Alike c w) (hEnv : c.frame env) :
    Agrees c (Outcome.Alike c) (evalLet run v env) (evalLet run' w env) := by
  unfold evalLet
  rw [h.text_eq]
  refine (Agrees.ofExcept (checkOperands_agrees .binding h 2 none)).bind fun _ _ _ => ?_
  cases h with
  | pair hStamp hBindings hBody =>
    simp only [hBindings.text_eq]
    rcases hBindings.toList? with ⟨hNone, hNone'⟩ | ⟨vs, ws, hSome, hSome', hs⟩
    · rw [hNone, hNone']
      exact .fail _
    · rw [hSome, hSome']
      refine (evalBindings_agrees hRun hEnv hs [] [] [] .nil).bind ?_
      rintro ⟨names, values⟩ ⟨_, values'⟩ ⟨rfl, hValues⟩
      -- Whether the names may be parameters does not depend on the values.
      refine (Agrees.same _).bind ?_
      rintro formals _ rfl
      refine (makeChildFrame_agrees hEnv formals hValues).bind ?_
      rintro frame _ ⟨rfl, hFrame⟩
      exact evalBody_agrees hRun hFrame hBody
  | _ => exact .fail _

/-! ## Making procedures -/

omit hRun in
/-- Corresponding operands of a `lambda` or `mu` make corresponding procedures. -/
theorem evalProcedure_agrees (form : Form) {kind : CompoundKind} (hKind : c.Sees kind)
    (h : v.Alike c w) :
    Agrees c (Value.Alike c) (evalProcedure form kind v) (evalProcedure form kind w) := by
  unfold evalProcedure
  rw [h.text_eq]
  refine (Agrees.ofExcept (checkOperands_agrees form h 2 none)).bind fun _ _ _ => ?_
  cases h with
  | pair hStamp hParameters hBody =>
    refine (parseFormals_agrees form hParameters).bind ?_
    rintro formals _ rfl
    exact makeProcedure_agrees hKind formals hBody
  | _ => exact .fail _

/-! ## Control -/

/-- Corresponding `if`s take the same branch. -/
theorem evalBranch_agrees (h : v.Alike c w) (hEnv : c.frame env) :
    Agrees c (Outcome.Alike c) (evalBranch run v env) (evalBranch run' w env) := by
  unfold evalBranch
  rw [h.text_eq]
  refine (Agrees.ofExcept (checkOperands_agrees .branch h 2 (some 3))).bind fun _ _ hs => ?_
  rcases hs with _ | ⟨hTest, _ | ⟨hConsequent, hAlternative⟩⟩
  · exact .fail _
  · exact .fail _
  · refine (hRun _ _ (.eval hTest hEnv)).bind fun _ _ hValue => ?_
    rw [hValue.isTruthy_eq]
    split
    · exact evalTail_agrees hConsequent hEnv
    · cases hAlternative with
      | nil => exact .pure (.done .undefined)
      | cons hAlternative hMore => exact evalTail_agrees hAlternative hEnv

/-- Corresponding tests have corresponding values; an `else` in one run is one in the other. -/
theorem evalTest_agrees (hEnv : c.frame env) (h : v.Alike c w) (hs : AllAlike c vs ws) :
    Agrees c (Value.Alike c) (evalTest run env v vs) (evalTest run' env w ws) := by
  have hEval := hRun _ _ (.eval h hEnv)
  -- The test is evaluated, unless it is the symbol `else`.
  cases h with
  | atom a =>
    cases a with
    | symbol name =>
      by_cases hElse : name = "else"
      · subst hElse
        cases hs with
        | nil => exact .pure (.atom _)
        | cons hFirst hRest => exact .fail _
      · have hTest : ∀ (run : Runner) later,
            evalTest run env (.symbol name) later = run (.eval (.symbol name) env) := by
          intro run later
          unfold evalTest
          split <;> simp_all
        rw [hTest, hTest]
        exact hEval
    | _ => exact hEval
  | _ => exact hEval

/-- Corresponding clauses are taken alike. -/
theorem evalClauses_agrees (hEnv : c.frame env) (hs : AllAlike c vs ws) :
    Agrees c (Outcome.Alike c) (evalClauses run env vs) (evalClauses run' env ws) := by
  -- Clause by clause; a clause that is none is refused with its text, which is the same.
  induction hs with
  | nil => exact .pure (.done .undefined)
  | @cons clause clause' clauses clauses' hClause hClauses ih =>
    unfold evalClauses
    rw [hClause.text_eq]
    refine (Agrees.ofExcept (checkOperands_agrees .cond hClause 1 none)).bind fun _ _ _ => ?_
    cases hClause with
    | pair hStamp hTest hBody =>
      refine (evalTest_agrees hRun hEnv hTest hClauses).bind fun _ _ hValue => ?_
      rw [hValue.isTruthy_eq]
      split
      · -- the value of the test is that of a clause without a body
        have hRest := evalBody_agrees hRun hEnv hBody
        cases hBody with
        | atom a =>
          cases a with
          | nil => exact .pure (.done hValue)
          | _ => exact hRest
        | _ => exact hRest
      · exact ih
    | _ => exact .fail _

/-- Corresponding operands of an `and` are decided alike. -/
theorem evalConjuncts_agrees (hEnv : c.frame env) (hs : AllAlike c vs ws) :
    Agrees c (Outcome.Alike c) (evalConjuncts run env vs) (evalConjuncts run' env ws) := by
  induction hs with
  | nil => exact .pure (.done (.atom _))
  | cons hFirst hRest ih =>
    cases hRest with
    | nil => exact evalTail_agrees hFirst hEnv
    | cons hNext hRest =>
      unfold evalConjuncts
      refine (hRun _ _ (.eval hFirst hEnv)).bind fun _ _ hValue => ?_
      rw [hValue.isTruthy_eq]
      split
      · exact ih
      · exact .pure (.done hValue)

/-- Corresponding operands of an `or` are decided alike. -/
theorem evalDisjuncts_agrees (hEnv : c.frame env) (hs : AllAlike c vs ws) :
    Agrees c (Outcome.Alike c) (evalDisjuncts run env vs) (evalDisjuncts run' env ws) := by
  induction hs with
  | nil => exact .pure (.done (.atom _))
  | cons hFirst hRest ih =>
    cases hRest with
    | nil => exact evalTail_agrees hFirst hEnv
    | cons hNext hRest =>
      unfold evalDisjuncts
      refine (hRun _ _ (.eval hFirst hEnv)).bind fun _ _ hValue => ?_
      rw [hValue.isTruthy_eq]
      split
      · exact .pure (.done hValue)
      · exact ih

/-- **One form.** With corresponding operands both runs come to corresponding outcomes, or to the
same error. -/
theorem formEval_agrees (form : Form) (h : v.Alike c w) (hEnv : c.frame env) :
    Agrees c (Outcome.Alike c) (form.eval run v env) (form.eval run' w env) := by
  have hItems := fun form min => Agrees.ofExcept (c := c) (checkOperands_agrees form h min none)
  have hLambda : c.Sees (.lambda env) := hEnv
  have hMu : c.Sees .mu := trivial
  -- Each form by its own lemma; both runs have checked the operands alike before.
  cases form with
  | conjunction => exact (hItems _ _).bind fun _ _ hs => evalConjuncts_agrees hRun hEnv hs
  | sequence => exact (hItems _ _).bind fun _ _ _ => evalBody_agrees hRun hEnv h
  | cond => exact (hItems _ _).bind fun _ _ hs => evalClauses_agrees hRun hEnv hs
  | define => exact finished_agrees (evalDefine_agrees hRun h hEnv)
  | defineMacro => exact finished_agrees (evalDefineMacro_agrees h hEnv)
  | branch => exact evalBranch_agrees hRun h hEnv
  | lambda => exact finished_agrees (evalProcedure_agrees .lambda hLambda h)
  | binding => exact evalLet_agrees hRun h hEnv
  | mu => exact finished_agrees (evalProcedure_agrees .mu hMu h)
  | disjunction => exact (hItems _ _).bind fun _ _ hs => evalDisjuncts_agrees hRun hEnv hs
  | quasiquote =>
    refine (Agrees.ofExcept (onlyOperand_agrees .quasiquote h)).bind fun _ _ hTemplate => ?_
    exact finished_agrees (expandTemplate_agrees hRun hEnv 1 hTemplate)
  | quote => exact finished_agrees (.ofExcept (onlyOperand_agrees .quote h))
  | assignment => exact finished_agrees (evalAssignment_agrees hRun h hEnv)
  | unquote => exact .fail _
  | unquoteSplicing => exact .fail _

/-! ## Built-in procedures -/

omit hRun in
/-- Corresponding values are the same number, or refused with the same text. -/
theorem number_eq (procedure : String) (h : v.Alike c w) :
    Operation.number procedure v = Operation.number procedure w := by
  have hText := h.text_eq
  -- Only an atom is a number, and corresponding atoms are the same.
  cases h with
  | atom a => rfl
  | _ => simp only [Operation.number, hText]

omit hRun in
theorem mapM_number_eq (procedure : String) (hs : AllAlike c vs ws) :
    vs.mapM (Operation.number procedure) = ws.mapM (Operation.number procedure) := by
  induction hs with
  | nil => rfl
  | cons hFirst hRest ih => rw [List.mapM_cons, List.mapM_cons, number_eq procedure hFirst, ih]

omit hRun in
/-- An atom computed from what does not tell the runs apart. -/
theorem map_atom_agrees {α : Type} (x : Except EvalError α) (f : α → Atom) :
    Except.Agrees (Value.Alike c) (x.map fun a => .atom (f a)) (x.map fun a => .atom (f a)) := by
  cases x with
  | ok a => exact .ok (.atom _)
  | error e => exact .error e

omit hRun in
/-- Corresponding values are folded to the same number. -/
theorem foldNumbers_agrees (procedure : String) (combine : Float → Float → Float) (acc : Float)
    (hs : AllAlike c vs ws) :
    Except.Agrees (Value.Alike c) (Operation.foldNumbers procedure combine acc vs)
      (Operation.foldNumbers procedure combine acc ws) := by
  induction hs generalizing acc with
  | nil => exact .ok (.atom _)
  | cons hFirst hRest ih =>
    unfold Operation.foldNumbers
    rw [number_eq procedure hFirst]
    cases Operation.number procedure _ with
    | ok x => exact ih _
    | error e => exact .error e

omit hRun in
/-- Corresponding values divide a number alike. -/
theorem divideBy_agrees (procedure : String) (acc : Float) (hs : AllAlike c vs ws) :
    Except.Agrees (Value.Alike c) (Operation.divideBy procedure acc vs)
      (Operation.divideBy procedure acc ws) := by
  induction hs generalizing acc with
  | nil => exact .ok (.atom _)
  | cons hFirst hRest ih =>
    unfold Operation.divideBy
    rw [number_eq procedure hFirst]
    cases Operation.number procedure _ with
    | ok x =>
      show Except.Agrees _ (if x == 0 then _ else _) (if x == 0 then _ else _)
      split
      · exact .error _
      · exact ih _
    | error e => exact .error e

omit hRun in
/-- Corresponding values give the same answer to a question. -/
theorem answer_eq (q : Question) (h : v.Alike c w) :
    Operation.answer q v = Operation.answer q w := by
  cases q with
  | isFalse => simp only [Operation.answer, h.isTruthy_eq]
  | isList => exact h.isList_eq
  | _ => cases h <;> rfl

omit hRun in
/-- Corresponding lists are appended to corresponding ones. -/
theorem appendOnto_agrees (procedure : String) (hs : AllAlike c vs ws) (h : v.Alike c w) :
    Agrees c (Value.Alike c) (Operation.appendOnto procedure v vs)
      (Operation.appendOnto procedure w ws) := by
  induction hs generalizing v w with
  | nil => exact .pure h
  | cons hFirst hRest ih =>
    unfold Operation.appendOnto
    rw [hFirst.text_eq]
    rcases hFirst.toList? with ⟨hNone, hNone'⟩ | ⟨vs, ws, hSome, hSome', hItems⟩
    · rw [hNone, hNone']
      exact .fail _
    · rw [hSome, hSome']
      exact (makeChain_agrees hItems h).bind fun _ _ hTail => ih hTail

omit hRun in
/-- Corresponding values are operated on to the same number. -/
theorem integerOperation_agrees {v' w' : Value} (procedure : String)
    (operate : Float → Float → Float) (h : v.Alike c w) (h' : v'.Alike c w') :
    Except.Agrees (Value.Alike c) (Operation.integerOperation procedure operate v v')
      (Operation.integerOperation procedure operate w w') := by
  unfold Operation.integerOperation
  rw [number_eq procedure h, number_eq procedure h']
  cases Operation.number procedure w with
  | error e => exact .error e
  | ok x =>
    cases Operation.number procedure w' with
    | error e => exact .error e
    | ok y =>
      show Except.Agrees _ (if y == 0 then _ else _) (if y == 0 then _ else _)
      split
      · exact .error _
      · exact .ok (.atom _)

omit hRun in
/-- The first of as many arguments as an operation looks at. -/
theorem Value.AllAlike.exists_first (hs : AllAlike c vs ws) (h : 1 ≤ vs.length) :
    ∃ v w more more', vs = v :: more ∧ ws = w :: more' ∧ v.Alike c w ∧ AllAlike c more more' := by
  cases hs with
  | nil => cases h
  | cons hFirst hMore => exact ⟨_, _, _, _, rfl, rfl, hFirst, hMore⟩

omit hRun in
/-- The first two of as many arguments as an operation looks at. -/
theorem Value.AllAlike.exists_two (hs : AllAlike c vs ws) (h : 2 ≤ vs.length) :
    ∃ v w v' w' more more', vs = v :: v' :: more ∧ ws = w :: w' :: more' ∧ v.Alike c w ∧
      v'.Alike c w' ∧ AllAlike c more more' := by
  obtain ⟨v, w, more, more', rfl, rfl, hFirst, hMore⟩ := hs.exists_first (Nat.le_of_succ_le h)
  obtain ⟨v', w', more, more', rfl, rfl, hSecond, hMore⟩ :=
    hMore.exists_first (Nat.le_of_succ_le_succ h)
  exact ⟨v, w, v', w', more, more', rfl, rfl, hFirst, hSecond, hMore⟩

omit hRun in
/-- What follows a first number is the same in both runs, as the number is. -/
theorem ofNumber_agrees {f g : Float → Except EvalError Value} (procedure : String)
    (h : v.Alike c w) (hMore : ∀ x, Except.Agrees (Value.Alike c) (f x) (g x)) :
    Agrees c (Value.Alike c) (Eval.ofExcept (Operation.number procedure v >>= f))
      (Eval.ofExcept (Operation.number procedure w >>= g)) := by
  rw [number_eq procedure h]
  cases Operation.number procedure w with
  | ok x => exact .ofExcept (hMore x)
  | error e => exact .fail e

/-- An environment is alike only to itself, and its frame is seen. Anything else in its
place is an error that shows only its text. -/
theorem performEvaluate_agrees (procedure : String) (hs : AllAlike c vs ws) (h : 2 ≤ vs.length) :
    Agrees c (Value.Alike c) (Operation.evaluate.perform run procedure vs)
      (Operation.evaluate.perform run' procedure ws) := by
  obtain ⟨_, _, _, _, _, _, rfl, rfl, hExpr, hEnv, -⟩ := hs.exists_two h
  have hText := hEnv.text_eq
  cases hEnv with
  | environment hFrame => exact hRun _ _ (.eval hExpr hFrame)
  | _ =>
    simp only [Operation.perform, hText]
    exact .fail _

/-- `apply` calls corresponding procedures on corresponding items, from a frame that both see. -/
theorem performApply_agrees (procedure : String) (hs : AllAlike c vs ws) (h : 3 ≤ vs.length) :
    Agrees c (Value.Alike c) (Operation.apply.perform run procedure vs)
      (Operation.apply.perform run' procedure ws) := by
  obtain ⟨_, _, _, _, more, more', rfl, rfl, hProcedure, hOperands, hMore⟩ :=
    hs.exists_two (Nat.le_of_succ_le h)
  obtain ⟨_, _, _, _, rfl, rfl, hEnv, -⟩ :=
    hMore.exists_first (Nat.le_of_succ_le_succ (Nat.le_of_succ_le_succ h))
  have hText := hEnv.text_eq
  cases hEnv with
  | environment hFrame =>
    simp only [Operation.perform, hOperands.text_eq]
    rcases hOperands.toList? with ⟨hNone, hNone'⟩ | ⟨vs, ws, hSome, hSome', hItems⟩
    · rw [hNone, hNone']
      exact .fail _
    · rw [hSome, hSome']
      exact hRun _ _ (.call hProcedure hItems hFrame)
  | _ =>
    simp only [Operation.perform, hText]
    exact .fail _

/-- An operation does the same with arguments that are alike. The split is on the
operations and not on what they do (`Operation.performs`): that both runs do things of the
same kind would not say that they do them to the same parts. -/
theorem perform_agrees (procedure : String) (op : Operation) (hs : AllAlike c vs ws) :
    Agrees c (Value.Alike c) (op.perform run procedure vs) (op.perform run' procedure ws) := by
  -- An argument is missing in both runs or in neither.
  by_cases hShort : vs.length < op.reads
  · have hShort' : ws.length < op.reads := hs.length_eq ▸ hShort
    rw [Operation.perform_of_short run procedure hShort,
      Operation.perform_of_short run' procedure hShort']
    exact .fail _
  have hEnough : op.reads ≤ vs.length := Nat.le_of_not_lt hShort
  clear hShort
  cases op with
  | add | multiply => exact .ofExcept (foldNumbers_agrees procedure _ _ hs)
  | subtract =>
    obtain ⟨_, _, _, _, rfl, rfl, hFirst, hMore⟩ := hs.exists_first hEnough
    cases hMore with
    | nil =>
      simp only [Operation.perform, number_eq procedure hFirst]
      exact .ofExcept (map_atom_agrees _ fun x => .number (-x))
    | cons hSecond hMore =>
      exact ofNumber_agrees procedure hFirst fun x =>
        foldNumbers_agrees procedure _ x (.cons hSecond hMore)
  | divide =>
    obtain ⟨_, _, _, _, rfl, rfl, hFirst, hMore⟩ := hs.exists_first hEnough
    cases hMore with
    | nil => exact .ofExcept (divideBy_agrees procedure 1 (.cons hFirst .nil))
    | cons hSecond hMore =>
      exact ofNumber_agrees procedure hFirst fun x =>
        divideBy_agrees procedure x (.cons hSecond hMore)
  | absolute =>
    obtain ⟨_, _, _, _, rfl, rfl, hFirst, -⟩ := hs.exists_first hEnough
    simp only [Operation.perform, number_eq procedure hFirst]
    exact .ofExcept (map_atom_agrees _ fun x : Float => .number x.abs)
  | isZero =>
    obtain ⟨_, _, _, _, rfl, rfl, hFirst, -⟩ := hs.exists_first hEnough
    simp only [Operation.perform, number_eq procedure hFirst]
    exact .ofExcept (map_atom_agrees _ fun x => .boolean (x == 0))
  | quotient | remainder | modulo =>
    obtain ⟨_, _, _, _, _, _, rfl, rfl, hFirst, hSecond, -⟩ := hs.exists_two hEnough
    exact .ofExcept (integerOperation_agrees procedure _ hFirst hSecond)
  | compare order =>
    simp only [Operation.perform, mapM_number_eq procedure hs]
    exact .ofExcept (map_atom_agrees _ fun xs => .boolean (Operation.inOrder _ xs))
  | identical =>
    obtain ⟨_, _, _, _, _, _, rfl, rfl, hFirst, hSecond, -⟩ := hs.exists_two hEnough
    simp only [Operation.perform, hFirst.identical_eq hSecond]
    exact .pure (.atom _)
  | equal =>
    obtain ⟨_, _, _, _, _, _, rfl, rfl, hFirst, hSecond, -⟩ := hs.exists_two hEnough
    simp only [Operation.perform, hFirst.equal_eq hSecond]
    exact .pure (.atom _)
  | ask q =>
    obtain ⟨_, _, _, _, rfl, rfl, hFirst, -⟩ := hs.exists_first hEnough
    simp only [Operation.perform, answer_eq q hFirst]
    exact .pure (.atom _)
  | cons =>
    obtain ⟨_, _, _, _, _, _, rfl, rfl, hFirst, hSecond, -⟩ := hs.exists_two hEnough
    exact makePair_agrees hFirst hSecond
  | first =>
    obtain ⟨_, _, _, _, rfl, rfl, hPair, -⟩ := hs.exists_first hEnough
    have hText := hPair.text_eq
    cases hPair with
    | pair hStamp hFirst hRest => exact .pure hFirst
    | _ =>
      simp only [Operation.perform, hText]
      exact .fail _
  | rest =>
    obtain ⟨_, _, _, _, rfl, rfl, hPair, -⟩ := hs.exists_first hEnough
    have hText := hPair.text_eq
    cases hPair with
    | pair hStamp hFirst hRest => exact .pure hRest
    | _ =>
      simp only [Operation.perform, hText]
      exact .fail _
  | list => exact makeList_agrees hs
  | length =>
    obtain ⟨_, _, _, _, rfl, rfl, hFirst, -⟩ := hs.exists_first hEnough
    simp only [Operation.perform, hFirst.text_eq]
    rcases hFirst.toList? with ⟨hNone, hNone'⟩ | ⟨vs, ws, hSome, hSome', hItems⟩
    · rw [hNone, hNone']
      exact .fail _
    · rw [hSome, hSome']
      simp only [hItems.length_eq]
      exact .pure (.atom _)
  | append =>
    -- the last argument is the tail, and the others are put in front of it one by one
    have hReverse := List.forall₂_reverse_iff.mpr hs
    simp only [Operation.perform]
    generalize vs.reverse = before, ws.reverse = before' at hReverse
    cases hReverse with
    | nil => exact .pure (.atom _)
    | cons hTail hBefore => exact appendOnto_agrees procedure hBefore hTail
  | display =>
    obtain ⟨_, _, _, _, rfl, rfl, hFirst, -⟩ := hs.exists_first hEnough
    simp only [Operation.perform, hFirst.displayText_eq]
    exact display_agrees _
  | print =>
    obtain ⟨_, _, _, _, rfl, rfl, hFirst, -⟩ := hs.exists_first hEnough
    simp only [Operation.perform, hFirst.text_eq]
    exact display_agrees _
  | newline => exact display_agrees _
  | raise =>
    cases hs with
    | nil => exact .fail _
    | cons hFirst hMore =>
      simp only [Operation.perform, hFirst.displayText_eq]
      exact .fail _
  | evaluate => exact performEvaluate_agrees hRun procedure hs hEnough
  | apply => exact performApply_agrees hRun procedure hs hEnough

/-! ## Calls -/

/-- A built-in procedure does the same with corresponding arguments, also with the frame that some
are given. -/
theorem callBuiltin_agrees (b : Builtin) (hs : AllAlike c vs ws) (hEnv : c.frame env) :
    Agrees c (Value.Alike c) (callBuiltin run b vs env) (callBuiltin run' b ws env) := by
  -- Some are given the frame of the caller as one more argument.
  have hAll : AllAlike c (b.allArguments vs env) (b.allArguments ws env) := by
    unfold Builtin.allArguments
    split
    · exact List.rel_append hs (.cons (.environment hEnv) .nil)
    · exact hs
  unfold callBuiltin
  rw [hAll.length_eq]
  split
  · exact perform_agrees hRun b.name b.operation hAll
  · exact .fail _

/-- **One call.** Corresponding procedures run corresponding bodies in the same new frame. -/
theorem call_agrees (h : v.Alike c w) (hs : AllAlike c vs ws) (hEnv : c.frame env) :
    Agrees c (Outcome.Alike c) (call run v vs env) (call run' w ws env) := by
  have hText := h.text_eq
  cases h with
  | builtin hStamp b => exact finished_agrees (callBuiltin_agrees hRun b hs hEnv)
  | @compound _ _ kind formals _ _ hStamp hKind hBody =>
    -- the frame that the procedure was made in, or that of the caller
    have hParent : c.frame (kind.parent env) := by
      cases kind with
      | lambda home => exact hKind
      | _ => exact hEnv
    simp only [call, callCompound, hText, hs.length_eq]
    split
    · refine (makeChildFrame_agrees hParent formals hs).bind ?_
      rintro frame _ ⟨rfl, hFrame⟩
      exact evalBody_agrees hRun hFrame hBody
    · exact .fail _
  | _ =>
    simp only [call, hText]
    exact .fail _

/-! ## Steps and runs -/

/-- Corresponding combinations agree, in the order in which their parts are evaluated. -/
theorem stepCombination_agrees (h : v.Alike c w) (hs : AllAlike c vs ws) (hEnv : c.frame env) :
    Agrees c (Outcome.Alike c) (stepCombination run v vs env) (stepCombination run' w ws env) := by
  have hOperator : ∀ {v w : Value}, v.Alike c w →
      Agrees c (Outcome.Alike c) (evalEach run env vs >>= fun args => call run v args env)
        (evalEach run' env ws >>= fun args => call run' w args env) := by
    intro v w h
    exact (evalEach_agrees hRun hEnv hs).bind fun _ _ hArgs => call_agrees hRun h hArgs hEnv
  have hHead := (hRun _ _ (.eval h hEnv)).bind fun _ _ => hOperator
  cases h with
  | atom a =>
    cases a with
    | symbol name =>
      refine (lookup_agrees hEnv name).bind fun _ _ hProcedure => ?_
      -- A transformer is called with the operands as they are, in both runs or in neither.
      rw [hProcedure.isTransformer_eq]
      split
      · refine (hRun _ _ (.call hProcedure hs hEnv)).bind fun _ _ hExpansion => ?_
        exact .pure (.pending hExpansion hEnv)
      · exact hOperator hProcedure
    | _ => exact hHead
  | _ => exact hHead

/-- **One step.** On corresponding expressions both runs come to corresponding outcomes, or to the
same error. -/
theorem step_agrees (forms : FormTable) (h : v.Alike c w) (hEnv : c.frame env) :
    Agrees c (Outcome.Alike c) (step forms run v env) (step forms run' w env) := by
  have hText := h.text_eq
  have hAtom := finished_agrees (evalAtom_agrees h hEnv)
  cases h with
  | pair hStamp hHead hRest =>
    simp only [step, hText]
    -- The operands are a list in both runs or in neither.
    rcases hRest.toList? with ⟨hNone, hNone'⟩ | ⟨vs, ws, hSome, hSome', hs⟩
    · rw [hNone, hNone']
      exact .fail _
    · rw [hSome, hSome']
      have hCombination := stepCombination_agrees hRun hHead hs hEnv
      cases hHead with
      | atom a =>
        cases a with
        | symbol name =>
          simp only
          cases forms.lookup name with
          | none => exact hCombination
          | some form => exact formEval_agrees hRun form hRest hEnv
        | _ => exact hCombination
      | _ => exact hCombination
  | _ => exact hAtom

end Parts

/-- Runs on tasks that are alike agree. -/
theorem runTask_agrees (forms : FormTable) (fuel : Nat) {t t' : Task} (h : t.Alike c t') :
    Agrees c (Value.Alike c) (runTask forms fuel t) (runTask forms fuel t') := by
  -- All that a step leaves to other runs is left to runs with less fuel.
  induction fuel generalizing t t' with
  | zero => exact fun _ _ _ => .outOfFuel
  | succ fuel ih =>
    have hRun : ∀ t t' : Task, t.Alike c t' →
        Agrees c (Value.Alike c) (runTask forms fuel t) (runTask forms fuel t') :=
      fun _ _ h => ih h
    have hStep : Agrees c (Outcome.Alike c) (t.step forms (runTask forms fuel))
        (t'.step forms (runTask forms fuel)) := by
      cases h with
      | eval h hEnv => exact step_agrees hRun forms h hEnv
      | call h hs hEnv => exact call_agrees hRun h hs hEnv
    rw [runTask_succ, runTask_succ]
    refine hStep.bind fun _ _ hOutcome => ?_
    cases hOutcome with
    | done h => exact .pure h
    | pending h hEnv => exact ih (.eval h hEnv)

end MiniScheme
