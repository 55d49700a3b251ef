import MiniScheme.Proofs.Eval.Congruence
import MiniScheme.Proofs.Eval.History
import MiniScheme.Proofs.Procedure.Spelling

/-!
# Forms that bind names and are not well written

Six forms bind names. What their operands must look like is said by `WellWritten`, apart
from the evaluator. All forms but one look at all of their operands before they evaluate
any. A `let` looks at its bindings one after the other and evaluates each initialiser before
it looks at the next binding, and at the names last of all.

* `Form.bindsNames`, `WellWritten` — the forms and their syntax;
* `Form.initialisers` — the initialisers of a `let` that stand before what is wrong with it;
* `Form.eval_of_not_wellWritten` — the fault of each form, after these initialisers;
* `bad_forms_refused` — what becomes of a form that is not well written.
-/

namespace MiniScheme

open Eval Formals

/-! ## Syntax -/

/-- Does the form bind names, or assign them, or make something that does? -/
def Form.bindsNames : Form → Bool
  | define | defineMacro | assignment | binding | lambda | mu => true
  | _ => false

/-- A name and an expression, `(name expr)`. -/
def Value.namedExpression? (v : Value) : Option (String × Value) :=
  match v.toList? with
  | some [.symbol name, expr] => some (name, expr)
  | _ => none

/-- The operands of the forms that bind names. -/
inductive WellWritten : Form → Value → Prop
  /-- `(define name expr)` -/
  | define {operands expr : Value} {name : String}
      (h : operands.namedExpression? = some (name, expr)) : WellWritten .define operands
  /-- `(define (name . formals) body...)` -/
  | defineProcedure {s t : Stamp} {name : String} {formals : Formals} {parameters body : Value}
      (hFormals : formals.Spelt parameters) (hBody : body.isBody) :
      WellWritten .define (.pair s (.pair t (.symbol name) parameters) body)
  /-- `(define-macro (name . formals) body...)` -/
  | defineMacro {s t : Stamp} {name : String} {formals : Formals} {parameters body : Value}
      (hFormals : formals.Spelt parameters) (hBody : body.isBody) :
      WellWritten .defineMacro (.pair s (.pair t (.symbol name) parameters) body)
  /-- `(set! name expr)` -/
  | assignment {operands expr : Value} {name : String}
      (h : operands.namedExpression? = some (name, expr)) : WellWritten .assignment operands
  /-- `(let ((name expr)...) body...)` -/
  | binding {s : Stamp} {bindings body : Value} {items : List Value}
      {pairs : List (String × Value)} (hBindings : bindings.toList? = some items)
      (hEach : items.map Value.namedExpression? = pairs.map some)
      (hNames : (pairs.map Prod.fst).Nodup) (hBody : body.isBody) :
      WellWritten .binding (.pair s bindings body)
  /-- `(lambda formals body...)` -/
  | lambda {s : Stamp} {formals : Formals} {parameters body : Value}
      (hFormals : formals.Spelt parameters) (hBody : body.isBody) :
      WellWritten .lambda (.pair s parameters body)
  /-- `(mu formals body...)` -/
  | mu {s : Stamp} {formals : Formals} {parameters body : Value}
      (hFormals : formals.Spelt parameters) (hBody : body.isBody) :
      WellWritten .mu (.pair s parameters body)

/-- The initialisers of bindings, up to the first thing that is no binding. -/
def leadingInitialisers : List Value → List Value
  | [] => []
  | v :: vs =>
    match v.namedExpression? with
    | some (_, expr) => expr :: leadingInitialisers vs
    | none => []

/-- The initialisers that stand before what is wrong with the form. There are none but in a
`let`, and none there if it lacks its bindings or its body. -/
def Form.initialisers : Form → Value → List Value
  | .binding, .pair _ bindings body =>
    if bindings.isList && body.isBody then leadingInitialisers bindings.items else []
  | _, _ => []

/-- The first operand of a well-written `lambda` spells a parameter list. -/
theorem WellWritten.spelt {s : Stamp} {parameters body : Value}
    (h : WellWritten .lambda (.pair s parameters body)) :
    ∃ formals : Formals, formals.Spelt parameters := by
  cases h with
  | lambda hFormals hBody => exact ⟨_, hFormals⟩

/-- Every binding of a well-written `let` is a name with an expression. -/
theorem WellWritten.namedExpression?_isSome {s : Stamp} {bindings body : Value}
    (h : WellWritten .binding (.pair s bindings body)) :
    ∀ v ∈ bindings.items, v.namedExpression?.isSome := by
  cases h with
  | @binding s bindings body items pairs hBindings hEach hNames hBody =>
    intro v hv
    have hItems : items = bindings.items := by
      unfold Value.toList? at hBindings
      split at hBindings
      · exact (Option.some.inj hBindings).symm
      · cases hBindings
    have hMem : v.namedExpression? ∈ pairs.map some := hEach ▸ List.mem_map_of_mem (hItems ▸ hv)
    obtain ⟨pair, -, hSome⟩ := List.mem_map.mp hMem
    rw [← hSome]
    rfl

/-! ## Operands and parameters -/

theorem toList?_of_isList {v : Value} (h : v.isList) : v.toList? = some v.items := if_pos h

/-- Operands are refused, or they are a list of which there are enough. -/
theorem checkOperands_cases (form : Form) (operands : Value) (min : Nat) (max : Option Nat) :
    (∃ fault, checkOperands form operands min max = .error (.invalidForm form fault)) ∨
      (operands.isList ∧ min ≤ operands.items.length ∧
        (∀ bound ∈ max, operands.items.length ≤ bound) ∧
        checkOperands form operands min max = .ok operands.items) := by
  unfold checkOperands
  -- The operands are a list, or they are refused before they are counted.
  by_cases hList : operands.isList
  · rw [toList?_of_isList hList]
    dsimp only
    split
    · exact .inl ⟨_, rfl⟩
    · rename_i hEnough
      split
      · exact .inl ⟨_, rfl⟩
      · rename_i hNotMore
        refine .inr ⟨hList, Nat.le_of_not_lt hEnough, ?_, rfl⟩
        rintro bound rfl
        simpa using hNotMore
  · have hNone : operands.toList? = none := if_neg hList
    rw [hNone]
    exact .inl ⟨_, rfl⟩

/-- Something before a body is enough where there must be two operands. -/
theorem checkOperands_of_isBody {form : Form} {s : Stamp} {first rest : Value} (h : rest.isBody) :
    checkOperands form (.pair s first rest) 2 none = .ok (first :: rest.items) := by
  obtain ⟨fault, hRefused⟩ | ⟨-, -, -, hCheck⟩ :=
    checkOperands_cases form (.pair s first rest) 2 none
  · cases rest with
    | pair t second more =>
      -- neither improper nor too few
      have hList : (Value.pair s first (.pair t second more)).isList := h
      have hEnough : ¬ (first :: second :: more.items).length < 2 := by simp
      unfold checkOperands at hRefused
      rw [toList?_of_isList hList, Value.items_pair, Value.items_pair] at hRefused
      simp only [if_neg hEnough] at hRefused
      cases hRefused
    | _ => cases h
  · rwa [Value.items_pair] at hCheck

/-- Operands of which there must be two are refused, or they are one followed by a body. -/
theorem twoOperands_cases (form : Form) (operands : Value) :
    (∃ fault, checkOperands form operands 2 none = .error (.invalidForm form fault)) ∨
      ∃ s first rest, operands = .pair s first rest ∧ rest.isBody ∧
        checkOperands form operands 2 none = .ok (first :: rest.items) := by
  obtain hRefused | ⟨hList, hEnough, -, hCheck⟩ := checkOperands_cases form operands 2 none
  · exact .inl hRefused
  · cases operands with
    | pair s first rest =>
      rw [Value.items_pair] at hCheck
      exact .inr ⟨s, first, rest, rfl, checkOperands_isBody_rest hCheck (Nat.le_refl 2), hCheck⟩
    | _ => simp [Value.items, Value.itemsOnto] at hEnough

/-- Parameters are refused, or they spell a parameter list. -/
theorem parseFormals_cases (form : Form) (parameters : Value) :
    (∃ fault, parseFormals form parameters = .error (.invalidForm form fault)) ∨
      ∃ formals : Formals, formals.Spelt parameters := by
  unfold parseFormals
  cases hParse : Formals.parse parameters with
  | ok formals => exact .inr ⟨formals, parse_eq_ok_iff.mp hParse⟩
  | error e => exact .inl ⟨.parameters e, rfl⟩

/-! ## Forms that look first -/

/-- Whatever the runner and the frame are, the form fails with a fault of its own. -/
def Form.Refused {α : Type} (form : Form) (x : Runner → FrameId → Eval α) : Prop :=
  ∃ fault, ∀ run env, x run env = fail (.invalidForm form fault)

/-- A `define` is well written, or it is refused before anything is evaluated. -/
theorem evalDefine_cases (operands : Value) : WellWritten .define operands ∨
    Form.define.Refused fun run env => evalDefine run operands env := by
  obtain ⟨fault, hCheck⟩ | ⟨s, first, rest, rfl, hBody, hCheck⟩ :=
    twoOperands_cases .define operands
  · refine .inr ⟨fault, fun run env => ?_⟩
    simp only [evalDefine, hCheck]
    rfl
  · have hList : (Value.pair s first rest).toList? = some (first :: rest.items) := by
      rw [toList?_of_isList (checkOperands_eq_ok hCheck).1, Value.items_pair]
    -- What is defined: a name, or a procedure by its name and its parameters.
    cases first with
    | atom a =>
      cases a with
      | symbol name =>
        -- a name stands before one expression only
        match hItems : rest.items with
        | [expr] =>
          rw [hItems] at hList
          have hNamed :
              (Value.pair s (.symbol name) rest).namedExpression? = some (name, expr) := by
            simp only [Value.namedExpression?, hList]
          exact .inl (.define hNamed)
        | [] | _ :: _ :: _ =>
          rw [hItems] at hCheck
          exact .inr ⟨_, fun run env => by simp only [evalDefine, hCheck]; rfl⟩
      | _ => exact .inr ⟨_, fun run env => by simp only [evalDefine, hCheck]; rfl⟩
    | pair t name parameters =>
      cases name with
      | atom a =>
        cases a with
        | symbol name =>
          obtain ⟨fault, hParse⟩ | ⟨formals, hFormals⟩ := parseFormals_cases .define parameters
          · exact .inr ⟨fault, fun run env => by simp only [evalDefine, hCheck, hParse]; rfl⟩
          · exact .inl (.defineProcedure hFormals hBody)
        | _ => exact .inr ⟨_, fun run env => by simp only [evalDefine, hCheck]; rfl⟩
      | _ => exact .inr ⟨_, fun run env => by simp only [evalDefine, hCheck]; rfl⟩
    | _ => exact .inr ⟨_, fun run env => by simp only [evalDefine, hCheck]; rfl⟩

/-- A `define-macro` is well written, or it is refused before anything is bound. -/
theorem evalDefineMacro_cases (operands : Value) : WellWritten .defineMacro operands ∨
    Form.defineMacro.Refused fun _ env => evalDefineMacro operands env := by
  obtain ⟨fault, hCheck⟩ | ⟨s, first, rest, rfl, hBody, hCheck⟩ :=
    twoOperands_cases .defineMacro operands
  · refine .inr ⟨fault, fun run env => ?_⟩
    simp only [evalDefineMacro, hCheck]
    rfl
  · cases first with
    | pair t name parameters =>
      cases name with
      | atom a =>
        cases a with
        | symbol name =>
          obtain ⟨fault, hParse⟩ | ⟨formals, hFormals⟩ := parseFormals_cases .defineMacro parameters
          · exact .inr ⟨fault, fun run env => by simp only [evalDefineMacro, hCheck, hParse]; rfl⟩
          · exact .inl (.defineMacro hFormals hBody)
        | _ => exact .inr ⟨_, fun run env => by simp only [evalDefineMacro, hCheck]; rfl⟩
      | _ => exact .inr ⟨_, fun run env => by simp only [evalDefineMacro, hCheck]; rfl⟩
    | _ => exact .inr ⟨_, fun run env => by simp only [evalDefineMacro, hCheck]; rfl⟩

/-- A `lambda` or `mu` has a parameter list and a body, or it is refused. -/
theorem evalProcedure_cases (form : Form) (kind : FrameId → CompoundKind) (operands : Value) :
    (∃ s formals parameters body, Spelt formals parameters ∧ body.isBody ∧
      operands = .pair s parameters body) ∨
    form.Refused fun _ env => evalProcedure form (kind env) operands := by
  obtain ⟨fault, hCheck⟩ | ⟨s, first, rest, rfl, hBody, hCheck⟩ := twoOperands_cases form operands
  · refine .inr ⟨fault, fun run env => ?_⟩
    simp only [evalProcedure, hCheck]
    rfl
  · obtain ⟨fault, hParse⟩ | ⟨formals, hFormals⟩ := parseFormals_cases form first
    · refine .inr ⟨fault, fun run env => ?_⟩
      simp only [evalProcedure, hCheck, hParse]
      rfl
    · exact .inl ⟨s, formals, first, rest, hFormals, hBody, rfl⟩

/-! ## Names with expressions -/

/-- What `set!` and a binding of a `let` make of their operands. -/
def checkNamedExpression (form : Form) (v : Value) : Except EvalError (String × Value) := do
  match ← checkOperands form v 2 (some 2) with
  | .symbol name :: expr :: _ => .ok (name, expr)
  | other :: _ => .error (.invalidForm form (.notSymbol other.text))
  | [] => .error (.invalidForm form (.tooFew v.text))

/-- Either something is a name with an expression and passes the check, or it is neither. -/
theorem checkNamedExpression_cases (form : Form) (v : Value) :
    (∃ fault, v.namedExpression? = none ∧
      checkNamedExpression form v = .error (.invalidForm form fault)) ∨
    ∃ name expr, v.namedExpression? = some (name, expr) ∧
      checkNamedExpression form v = .ok (name, expr) := by
  unfold checkNamedExpression checkOperands Value.namedExpression?
  cases v.toList? with
  | none => exact .inl ⟨_, rfl, rfl⟩
  | some items =>
    -- none, one, two or more operands
    rcases items with _ | ⟨first, _ | ⟨expr, _ | ⟨third, rest⟩⟩⟩
    · exact .inl ⟨_, rfl, rfl⟩
    · exact .inl ⟨_, by simp, rfl⟩
    · cases first with
      | atom a =>
        cases a with
        | symbol name => exact .inr ⟨name, expr, rfl, rfl⟩
        | _ => exact .inl ⟨_, rfl, rfl⟩
      | _ => exact .inl ⟨_, rfl, rfl⟩
    · have hEnough : ¬ (first :: expr :: third :: rest).length < 2 := by simp
      have hMore : (some 2).any (· < (first :: expr :: third :: rest).length) := by simp
      refine .inl ⟨.tooMany v.text, by simp, ?_⟩
      simp only [if_neg hEnough, hMore, if_true]
      rfl

/-- A `set!` checks its operands, evaluates the expression and assigns to the name. -/
theorem evalAssignment_eq (run : Runner) (operands : Value) (env : FrameId) :
    evalAssignment run operands env =
      (ofExcept (checkNamedExpression .assignment operands) >>= fun named => do
        let v ← run (.eval named.2 env)
        Eval.assign env named.1 v
        return .undefined) := by
  unfold evalAssignment checkNamedExpression
  cases checkOperands .assignment operands 2 (some 2) with
  | error e => rfl
  | ok items =>
    rcases items with _ | ⟨first, rest⟩
    · rfl
    · cases first with
      | atom a => cases a <;> cases rest <;> rfl
      | _ => rfl

/-- A binding is checked and evaluated before the next one is looked at. -/
theorem evalBindings_cons (run : Runner) (env : FrameId) (names : List String)
    (values : List Value) (binding : Value) (bindings : List Value) :
    evalBindings run env names values (binding :: bindings) =
      (ofExcept (checkNamedExpression .binding binding) >>= fun named => do
        let v ← run (.eval named.2 env)
        evalBindings run env (named.1 :: names) (v :: values) bindings) := by
  rw [evalBindings]
  unfold checkNamedExpression
  cases checkOperands .binding binding 2 (some 2) with
  | error e => rfl
  | ok items =>
    rcases items with _ | ⟨first, rest⟩
    · rfl
    · cases first with
      | atom a => cases a <;> cases rest <;> rfl
      | _ => rfl

/-- A `set!` is well written, or it is refused before anything is evaluated. -/
theorem evalAssignment_cases (operands : Value) : WellWritten .assignment operands ∨
    Form.assignment.Refused fun run env => evalAssignment run operands env := by
  obtain ⟨fault, -, hCheck⟩ | ⟨name, expr, hNamed, -⟩ :=
    checkNamedExpression_cases .assignment operands
  · refine .inr ⟨fault, fun run env => ?_⟩
    simp only [evalAssignment_eq, hCheck]
    rfl
  · exact .inl (.assignment hNamed)

/-! ## `let` -/

/-- Bindings one of which is none are refused there, after the initialisers before it. -/
theorem evalBindings_refused {items : List Value}
    (h : ¬ ∃ pairs : List (String × Value), items.map Value.namedExpression? = pairs.map some) :
    ∃ fault, ∀ (run : Runner) env names values,
      evalBindings run env names values items =
        (evalEachOnto run env values (leadingInitialisers items) >>= fun _ =>
          fail (.invalidForm .binding fault)) := by
  -- Up to the first binding that is none, each is evaluated in turn.
  induction items with
  | nil => exact absurd ⟨[], rfl⟩ h
  | cons v items ih =>
    obtain ⟨fault, hNone, hCheck⟩ | ⟨name, expr, hNamed, hCheck⟩ :=
      checkNamedExpression_cases .binding v
    · refine ⟨fault, fun run env names values => ?_⟩
      simp only [evalBindings_cons, hCheck, leadingInitialisers, hNone]
      rfl
    · have hRest : ¬ ∃ pairs : List (String × Value),
          items.map Value.namedExpression? = pairs.map some := by
        rintro ⟨pairs, hPairs⟩
        refine h ⟨(name, expr) :: pairs, ?_⟩
        rw [List.map_cons, List.map_cons, hNamed, hPairs]
      obtain ⟨fault, hFails⟩ := ih hRest
      refine ⟨fault, fun run env names values => ?_⟩
      simp only [evalBindings_cons, hCheck, leadingInitialisers, hNamed, evalEachOnto, bind_assoc,
        hFails]
      rfl

/-- Bindings are evaluated like any expressions. -/
theorem evalBindings_eq {items : List Value} {pairs : List (String × Value)}
    (h : items.map Value.namedExpression? = pairs.map some) (run : Runner) (env : FrameId)
    (names : List String) (values : List Value) :
    leadingInitialisers items = pairs.map Prod.snd ∧
    evalBindings run env names values items =
      (evalEachOnto run env values (pairs.map Prod.snd) >>= fun found =>
        pure (names.reverse ++ pairs.map Prod.fst, found)) := by
  -- The values found before are kept in reverse, so the induction is for any of them.
  induction pairs generalizing items names values with
  | nil =>
    obtain rfl : items = [] := List.map_eq_nil_iff.mp h
    refine ⟨rfl, ?_⟩
    simp only [List.map_nil, List.append_nil]
    rfl
  | cons pair pairs ih =>
    obtain ⟨name, expr⟩ := pair
    cases items with
    | nil => cases h
    | cons v items =>
      obtain ⟨hFirst, hRest⟩ := List.cons.inj h
      obtain ⟨fault, hNone, hCheck⟩ | ⟨name', expr', hNamed, hCheck⟩ :=
        checkNamedExpression_cases .binding v
      · rw [hNone] at hFirst
        cases hFirst
      · rw [hNamed] at hFirst
        cases hFirst
        constructor
        · simp only [leadingInitialisers, hNamed, (ih hRest names values).1, List.map_cons]
        · simp only [evalBindings_cons, hCheck, (ih hRest _ _).2, List.map_cons, evalEachOnto,
            bind_assoc, List.reverse_cons, List.append_assoc]
          rfl

/-- A `let` is well written, or it fails after the initialisers that stand before the fault. -/
theorem evalLet_cases (operands : Value) : WellWritten .binding operands ∨
    ∃ fault, ∀ run env, evalLet run operands env =
      (evalEach run env (Form.binding.initialisers operands) >>= fun _ =>
        fail (.invalidForm .binding fault)) := by
  obtain ⟨fault, hCheck⟩ | ⟨s, bindings, body, rfl, hBody, hCheck⟩ :=
    twoOperands_cases .binding operands
  · -- too few operands, so that there are no bindings or no body
    have hNone : Form.binding.initialisers operands = [] := by
      cases operands with
      | pair s bindings body =>
        have hBody : body.isBody = false := by
          rw [Bool.eq_false_iff]
          intro hBody
          cases hCheck.symm.trans (checkOperands_of_isBody hBody)
        simp only [Form.initialisers, hBody, Bool.and_false, Bool.false_eq_true, if_false]
      | _ => rfl
    refine .inr ⟨fault, fun run env => ?_⟩
    rw [hNone]
    simp only [evalLet, hCheck]
    rfl
  · by_cases hList : bindings.isList
    · have hInitialisers : Form.binding.initialisers (.pair s bindings body) =
          leadingInitialisers bindings.items := by
        simp only [Form.initialisers, hList, hBody, Bool.and_self, if_true]
      have hToList := toList?_of_isList hList
      rw [hInitialisers]
      -- every binding is a name with an expression, or some first one is not
      by_cases hEach : ∃ pairs : List (String × Value),
          bindings.items.map Value.namedExpression? = pairs.map some
      · obtain ⟨pairs, hPairs⟩ := hEach
        by_cases hNames : (pairs.map Prod.fst).Nodup
        · exact .inl (.binding hToList hPairs hNames hBody)
        · -- the names are looked at last
          cases hFormals : Formals.ofNames (pairs.map Prod.fst) with
          | ok formals => exact absurd (ofNames_isOk_iff.mp ⟨formals, hFormals⟩) hNames
          | error e =>
            refine .inr ⟨.parameters e, fun run env => ?_⟩
            obtain ⟨hLeading, hEval⟩ := evalBindings_eq hPairs run env [] []
            simp only [evalLet, hCheck, hToList, hEval, hLeading, bind_assoc, pure_bind,
              List.reverse_nil, List.nil_append, hFormals]
            rfl
      · obtain ⟨fault, hFails⟩ := evalBindings_refused hEach
        refine .inr ⟨fault, fun run env => ?_⟩
        simp only [evalLet, hCheck, hToList, hFails, bind_assoc]
        rfl
    · -- the bindings are no list
      have hNone : Form.binding.initialisers (.pair s bindings body) = [] := by
        simp only [Form.initialisers, hList, Bool.false_and, Bool.false_eq_true, if_false]
      have hToList : bindings.toList? = none := if_neg hList
      refine .inr ⟨.badBindings bindings.text, fun run env => ?_⟩
      rw [hNone]
      simp only [evalLet, hCheck, hToList]
      rfl

/-! ## Forms that are not well written -/

/-- A form that binds names and is not well written fails with a fault of its own, after
nothing but the initialisers that stand before it. -/
theorem Form.eval_of_not_wellWritten {form : Form} (hBinds : form.bindsNames) {operands : Value}
    (hBad : ¬ WellWritten form operands) :
    ∃ fault, ∀ run env, form.eval run operands env =
      (evalEach run env (form.initialisers operands) >>= fun _ =>
        fail (.invalidForm form fault)) := by
  have hRefused : ∀ {form : Form} {x : Runner → FrameId → Eval Value}, form.Refused x →
      ∃ fault, ∀ run env, finished (x run env) =
        (evalEach run env [] >>= fun _ => fail (.invalidForm form fault)) := by
    rintro form x ⟨fault, hFails⟩
    refine ⟨fault, fun run env => ?_⟩
    rw [hFails]
    rfl
  -- Only `let` may evaluate something first; the others are refused at once.
  cases form with
  | define => exact hRefused ((evalDefine_cases operands).resolve_left hBad)
  | defineMacro => exact hRefused ((evalDefineMacro_cases operands).resolve_left hBad)
  | assignment => exact hRefused ((evalAssignment_cases operands).resolve_left hBad)
  | binding => exact (evalLet_cases operands).resolve_left hBad
  | lambda =>
    refine hRefused ((evalProcedure_cases .lambda .lambda operands).resolve_left ?_)
    rintro ⟨s, formals, parameters, body, hFormals, hBody, rfl⟩
    exact hBad (.lambda hFormals hBody)
  | mu =>
    refine hRefused ((evalProcedure_cases .mu (fun _ => .mu) operands).resolve_left ?_)
    rintro ⟨s, formals, parameters, body, hFormals, hBody, rfl⟩
    exact hBad (.mu hFormals hBody)
  | _ => cases hBinds

/-- No form but `let` evaluates anything before it is refused. -/
theorem Form.initialisers_of_ne {form : Form} (h : form ≠ .binding) (operands : Value) :
    form.initialisers operands = [] := by
  cases form with
  | binding => exact absurd rfl h
  | _ => rfl

/-- **Forms that are not well written.** A combination that is no list is malformed, and a form
that binds names fails with a fault of its own if it is not well written. Before that nothing
is evaluated but the initialisers of a `let` that stand before the fault: nothing at all if
the form is another one, or if there are none. -/
theorem bad_forms_refused {forms : FormTable} {name : String} {form : Form}
    (hForm : forms.lookup name = some form) (hBinds : form.bindsNames) {operands : Value}
    (hBad : ¬ WellWritten form operands) (stamp : Stamp) :
    let expr := Value.pair stamp (.symbol name) operands
    (operands.isList = false → ∀ fuel env m,
      evaluate forms (fuel + 1) expr env m = .failure (.malformed expr.text) m) ∧
    (operands.isList → ∃ fault,
      (∀ fuel env, evaluate forms (fuel + 1) expr env =
        (evalEach (runTask forms fuel) env (form.initialisers operands) >>= fun _ =>
          fail (.invalidForm form fault))) ∧
      (form ≠ .binding ∨ form.initialisers operands = [] → ∀ fuel env m,
        evaluate forms (fuel + 1) expr env m = .failure (.invalidForm form fault) m)) := by
  intro expr
  constructor
  · intro hList fuel env m
    have hToList : operands.toList? = none := if_neg (Bool.eq_false_iff.mp hList)
    have hStep : step forms (runTask forms fuel) expr env = fail (.malformed expr.text) := by
      simp only [expr, step, hToList]
    rw [evaluate, runTask_succ, Task.step, hStep]
    rfl
  · intro hList
    obtain ⟨fault, hFails⟩ := Form.eval_of_not_wellWritten hBinds hBad
    have hToList := toList?_of_isList hList
    have hEval : ∀ fuel env, evaluate forms (fuel + 1) expr env =
        (evalEach (runTask forms fuel) env (form.initialisers operands) >>= fun _ =>
          fail (.invalidForm form fault)) := by
      intro fuel env
      have hStep : step forms (runTask forms fuel) expr env =
          form.eval (runTask forms fuel) operands env := by
        simp only [expr, step, hToList, hForm]
      rw [evaluate, runTask_succ, Task.step, hStep, hFails, bind_assoc]
      rfl
    -- Without initialisers nothing comes before the refusal.
    refine ⟨fault, hEval, fun hNothing fuel env m => ?_⟩
    have hNone : form.initialisers operands = [] :=
      hNothing.elim (fun hForm => Form.initialisers_of_ne hForm operands) id
    rw [hEval, hNone]
    rfl

/-- `(lambda (a a) a)` has a duplicate parameter. -/
theorem bad_forms_refused_duplicate :
    let operands : Value :=
      .pair 4 (.pair 3 (.symbol "a") (.pair 2 (.symbol "a") .nil)) (.pair 1 (.symbol "a") .nil)
    ∃ fault, ∀ m, evaluate .standard 1 (.pair 0 (.symbol "lambda") operands) 0 m =
      .failure (.invalidForm .lambda fault) m := by
  intro operands
  have hBad : ¬ WellWritten .lambda operands := by
    intro h
    obtain ⟨formals, hFormals⟩ := h.spelt
    have hParse := parse_eq_ok_iff.mpr hFormals
    have hDuplicate : Formals.parse (.pair 3 (.symbol "a") (.pair 2 (.symbol "a") .nil)) =
        .error (.duplicate "a") := rfl
    rw [hDuplicate] at hParse
    cases hParse
  have hForm : FormTable.standard.lookup "lambda" = some .lambda := by decide
  obtain ⟨fault, -, hNothing⟩ := (bad_forms_refused hForm rfl hBad 0).2 rfl
  exact ⟨fault, fun m => hNothing (.inl nofun) 0 0 m⟩

/-- In `(let ((x (display "seen")) (y)) x)` the second binding has no initialiser, and the first
one is evaluated before that is seen. -/
theorem let_evaluates_before_fault :
    let operands : Value :=
      .pair 9 (.pair 8 (.pair 7 (.symbol "x") (.pair 6 (.pair 5 (.symbol "display")
        (.pair 4 (.string "seen") .nil)) .nil)) (.pair 3 (.pair 2 (.symbol "y") .nil) .nil))
        (.pair 1 (.symbol "x") .nil)
    ¬ WellWritten .binding operands ∧
      evaluate .standard 3 (.pair 0 (.symbol "let") operands) 0 Machine.populated =
        .failure (.invalidForm .binding (.tooFew "(y)"))
          { Machine.populated with output := "seen" } := by
  refine ⟨fun h => ?_, rfl⟩
  have hSecond := h.namedExpression?_isSome (.pair 2 (.symbol "y") .nil)
    (List.mem_cons_of_mem _ List.mem_cons_self)
  cases hSecond

end MiniScheme
