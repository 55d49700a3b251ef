import MiniScheme.Program
import MiniScheme.Proofs.Eval.Programs
import MiniScheme.Proofs.Machine.World

/-!
# One world

Evaluation gives out every stamp once. What it makes gets a place of its own, and what
was there keeps its place. So all the values of a session have their places in one
world, which only grows.

* `Answer.StaysIn`, `Eval.StaysIn` — a computation that begins in a world ends in one
  that has grown out of it;
* `StaysIn.bind` — one computation after another;
* `evalBody_stays`, `expandTemplate_stays`, `formEval_stays`, `perform_stays`, … — one
  lemma for each function of the evaluator;
* `runTask_stays` — whole runs;
* `History.exists_world` — the values of a session.
-/

namespace MiniScheme

open Value Eval

/-! ## Tasks, outcomes and answers -/

/-- The parts of the task have their places. -/
inductive Task.In (w : World) : Task → Prop
  | eval {expr : Value} {env : FrameId} (h : expr.In w) : In w (.eval expr env)
  | call {procedure : Value} {args : List Value} {env : FrameId} (h : procedure.In w)
      (hs : AllIn w args) : In w (.call procedure args env)

/-- The value has its place, or the expression that is left. -/
inductive Outcome.In (w : World) : Outcome → Prop
  | done {v : Value} (h : v.In w) : In w (.done v)
  | pending {expr : Value} {env : FrameId} (h : expr.In w) : In w (.pending expr env)

/-- The machine is in a world that has grown, and something holds there of the value. -/
inductive Answer.StaysIn {α : Type} (w : World) (holds : World → α → Prop) : Answer α → Prop
  | value {a : α} {n : Machine} {w' : World} (hLe : w.Le w') (hIn : n.In w') (hValue : holds w' a) :
      StaysIn w holds (.value a n)
  | failure {e : EvalError} {n : Machine} {w' : World} (hLe : w.Le w') (hIn : n.In w') :
      StaysIn w holds (.failure e n)
  | outOfFuel : StaysIn w holds .outOfFuel

/-- An answer in a later world is one in the world before. -/
theorem Answer.StaysIn.of_le {α : Type} {w w' : World} {holds : World → α → Prop} {a : Answer α}
    (h : a.StaysIn w' holds) (hLe : w.Le w') : a.StaysIn w holds := by
  cases h with
  | value hLe' hIn hValue => exact .value (hLe.trans hLe') hIn hValue
  | failure hLe' hIn => exact .failure (hLe.trans hLe') hIn
  | outOfFuel => exact .outOfFuel

/-- From a machine in the world, the computation ends in one that has grown. -/
def Eval.StaysIn {α : Type} (w : World) (holds : World → α → Prop) (x : Eval α) : Prop :=
  ∀ m, m.In w → (x m).StaysIn w holds

variable {w : World} {v tail : Value} {vs : List Value} {env : FrameId} {name : String}

namespace Eval.StaysIn

variable {α β : Type} {holds : World → α → Prop} {holds' : World → β → Prop}

protected theorem pure {a : α} (h : holds w a) : StaysIn w holds (pure a) :=
  fun _ hm => .value (.refl w) hm h

/-- A value that is at hand. -/
theorem value (h : v.In w) : StaysIn w Value.In (pure v) := .pure h

theorem fail {e : EvalError} : StaysIn w holds (Eval.fail e) := fun _ hm => .failure (.refl w) hm

theorem ofExcept {x : Except EvalError α} (h : Except.Ordinary (holds w) x) :
    StaysIn w holds (Eval.ofExcept x) := by
  cases h with
  | ok h => exact .pure h
  | error h => exact .fail

/-- A computation that stays in the world, followed by one that stays in whatever world is
reached, stays in it. -/
theorem bind {x : Eval α} {f : α → Eval β} (hx : StaysIn w holds x)
    (hf : ∀ w' a, w.Le w' → holds w' a → StaysIn w' holds' (f a)) :
    StaysIn w holds' (x >>= f) := by
  intro m hm
  -- The second begins in the world in which the first has ended.
  have hFirst := hx m hm
  simp only [Bind.bind, Eval.bind]
  generalize x m = answer at hFirst
  cases hFirst with
  | value hLe hIn hValue => exact (hf _ _ hLe hValue _ hIn).of_le hLe
  | failure hLe hIn => exact .failure hLe hIn
  | outOfFuel => exact .outOfFuel

end Eval.StaysIn

/-! ## Steps -/

/-- What is bound is in the world. -/
theorem lookup_stays : StaysIn w Value.In (lookup env name) := by
  intro m hm
  unfold lookup
  split
  · rename_i v hFound
    exact .value (.refl w) hm (hm.get? hFound)
  · exact .failure (.refl w) hm

theorem define_stays (hName : w.names name) (h : v.In w) :
    StaysIn w (fun _ _ => True) (define env name v) :=
  fun _ hm => .value (.refl w) (hm.define env hName h) trivial

/-- A name that is assigned is bound already. -/
theorem assign_stays (h : v.In w) : StaysIn w (fun _ _ => True) (assign env name v) := by
  intro m hm
  unfold assign
  split
  · rename_i n hSet
    obtain ⟨⟨holder, u⟩, hFind, rfl⟩ := Option.map_eq_some_iff.mp hSet
    exact .value (.refl w) (hm.define holder (hm.find? hFind).1 h) trivial
  · exact .failure (.refl w) hm

theorem display_stays {text : String} : StaysIn w Value.In (display text) :=
  fun _ hm => .value (.refl w) (hm.of_output _) .undefined

/-- A chain of values of the world takes new stamps, and with these it is in a later world. -/
theorem makeChain_stays (hs : AllIn w vs) (h : tail.In w) :
    StaysIn w Value.In (makeChain vs tail) := by
  intro m hm
  obtain ⟨w', hLe, hIn, hValue⟩ := hm.exists_chain hs h
  exact .value hLe hIn hValue

theorem makeList_stays (hs : AllIn w vs) : StaysIn w Value.In (makeList vs) :=
  makeChain_stays hs (.atom trivial)

theorem makePair_stays (h : v.In w) (h' : tail.In w) : StaysIn w Value.In (makePair v tail) :=
  makeChain_stays (List.forall_mem_singleton.mpr h) h'

/-- A procedure whose parameters and body are in the world is in a later one. -/
theorem makeProcedure_stays {kind : CompoundKind} {formals : Formals}
    (hNames : ∀ name ∈ formals.names, w.names name) (h : v.In w) :
    StaysIn w Value.In (makeProcedure kind formals v) := by
  intro m hm
  obtain ⟨w', hLe, hIn, hValue⟩ := hm.exists_compound kind hNames h
  exact .value hLe hIn hValue

theorem makeFrame_stays {f : Frame} (hf : f.bindings.In w) :
    StaysIn w (fun _ _ => True) (makeFrame f) :=
  fun _ hm => .value (.refl w) (hm.addFrame hf) trivial

/-- The frame of a call binds names of the world to values of the world; a rest list is made
before the frame is. -/
theorem makeChildFrame_stays {parent : FrameId} {formals : Formals}
    (hNames : ∀ name ∈ formals.names, w.names name) (hs : AllIn w vs) :
    StaysIn w (fun _ _ => True) (makeChildFrame parent formals vs) := by
  have hPositional : ∀ name ∈ formals.positional, w.names name :=
    fun name hMem => hNames name (List.mem_append_left _ hMem)
  have hBindings := formals.bindings_in hPositional hs
  unfold makeChildFrame
  -- the arguments fit the parameters, or they do not
  split
  · cases hRest : formals.rest with
    | none => exact makeFrame_stays hBindings
    | some rest =>
      -- What is left over is made a list first, and so the frame is in a later world.
      have hRestName : w.names rest := by
        refine hNames rest (List.mem_append_right _ ?_)
        rw [hRest]
        exact List.mem_singleton_self rest
      have hSurplus : AllIn w (formals.surplus vs) := fun v hMem => hs v (List.mem_of_mem_drop hMem)
      refine (makeList_stays hSurplus).bind fun w' surplus hLe hList => makeFrame_stays ?_
      intro name v hMem
      obtain hEq | hMem := List.mem_cons.mp hMem
      · cases hEq
        exact ⟨hLe.name hRestName, hList⟩
      · exact hBindings.mono hLe name v hMem
  · exact .fail

/-! ## Operands and parameter lists -/

theorem checkOperands_stays (form : Form) (h : v.In w) (min : Nat) (max : Option Nat) :
    StaysIn w AllIn (Eval.ofExcept (checkOperands form v min max)) := by
  refine .ofExcept ((checkOperands_ordinary form v min max).imp fun items hOk => ?_)
  obtain ⟨-, rfl, -⟩ := checkOperands_eq_ok hOk
  exact h.items

/-- The only operand of a form in the world is in the world. -/
theorem onlyOperand_stays (form : Form) (h : v.In w) :
    StaysIn w Value.In (Eval.ofExcept (onlyOperand form v)) := by
  -- The one operand is the first of those that are checked.
  refine .ofExcept ((checkOperands_ordinary form v 1 (some 1)).bind fun items hOk => ?_)
  obtain ⟨-, hEq, -⟩ := checkOperands_eq_ok hOk
  have hItems : AllIn w items := hEq ▸ h.items
  cases items with
  | nil => exact .error rfl
  | cons operand items => exact .ok (hItems operand List.mem_cons_self)

/-- The names of the parameters are names that there may be. -/
abbrev Formals.In (w : World) (formals : Formals) : Prop := ∀ name ∈ formals.names, w.names name

/-- The names of a parameter list in the world are names of the world. -/
theorem parseFormals_stays (form : Form) (h : v.In w) :
    StaysIn w Formals.In (Eval.ofExcept (parseFormals form v)) := by
  unfold parseFormals
  cases hParse : Formals.parse v with
  | error e => exact .fail
  | ok formals => exact .pure (Formals.names_of_parse hParse h)

/-! ## Atoms and tails -/

theorem finished_stays {x : Eval Value} (h : StaysIn w Value.In x) :
    StaysIn w Outcome.In (finished x) :=
  h.bind fun _ _ _ hValue => .pure (.done hValue)

theorem evalAtom_stays (h : v.In w) : StaysIn w Value.In (evalAtom v env) := by
  unfold evalAtom
  split
  · exact lookup_stays
  · exact .value h

theorem evalTail_stays (h : v.In w) : StaysIn w Outcome.In (evalTail v env) := by
  unfold evalTail
  split
  · exact .pure (.pending h)
  · exact finished_stays (evalAtom_stays h)

/-! ## Numbers and lists -/

/-- What is computed without the machine is in every world. -/
theorem settled_stays {procedure : String} {x : Except EvalError Value}
    (h : Except.Settled procedure Value.IsConstant x) :
    StaysIn w Value.In (Eval.ofExcept x) := by
  cases h with
  | error h => exact .fail
  | ok h => cases h <;> exact .value (.atom trivial)

/-- Lists of the world are appended in later and later worlds. -/
theorem appendOnto_stays (procedure : String) (h : v.In w) (hs : AllIn w vs) :
    StaysIn w Value.In (Operation.appendOnto procedure v vs) := by
  induction vs generalizing v w with
  | nil => exact .value h
  | cons u before ih =>
    obtain ⟨hLast, hBefore⟩ := List.forall_mem_cons.mp hs
    unfold Operation.appendOnto
    cases hList : u.toList? with
    | none => exact .fail
    | some items =>
      refine (makeChain_stays (hLast.of_toList? hList) h).bind fun w' tail hLe hTail => ?_
      exact ih hTail (AllIn.mono hBefore hLe)

section Parts
variable {run : Runner} (hRun : ∀ w t, t.In w → StaysIn w Value.In (run t))
include hRun

/-! ## Several expressions -/

/-- A body of the world is evaluated in later and later worlds. -/
theorem evalBody_stays (h : v.In w) : StaysIn w Outcome.In (evalBody run env v) := by
  -- Along the rest of the body, in whatever world has been reached.
  induction v generalizing w with
  | pair s first rest ihFirst ihRest =>
    cases h with
    | pair hHolder hFirst hRest =>
      by_cases hNil : rest = .nil
      · subst hNil
        exact evalTail_stays hFirst
      · -- the value of an expression that is not the last is dropped, its effects are not
        rw [evalBody]
        · exact (hRun _ _ (.eval hFirst)).bind fun w' _ hLe _ => ihRest (hRest.mono hLe)
        · exact hNil
  | _ => exact .fail

/-- The values of expressions of the world are in the world that the last of them leaves. -/
theorem evalEach_stays (hs : AllIn w vs) : StaysIn w AllIn (evalEach run env vs) := by
  -- The induction needs whatever values have been found before.
  suffices h : ∀ values, AllIn w values → StaysIn w AllIn (evalEachOnto run env values vs) from
    h [] nofun
  induction vs generalizing w with
  | nil =>
    intro values hValues
    exact .pure fun v hMem => hValues v (List.mem_reverse.mp hMem)
  | cons expr exprs ih =>
    intro values hValues
    obtain ⟨hExpr, hExprs⟩ := List.forall_mem_cons.mp hs
    refine (hRun _ _ (.eval hExpr)).bind fun w' v hLe hValue => ?_
    refine ih (AllIn.mono hExprs hLe) (v :: values) ?_
    exact List.forall_mem_cons.mpr ⟨hValue, hValues.mono hLe⟩

/-! ## Templates -/

/-- **A template in the world** is copied to a value in a later one. -/
theorem expandTemplate_stays {level : Nat} (h : v.In w) :
    StaysIn w Value.In (expandTemplate run env level v) := by
  -- The level and the world are not fixed: both grow inside.
  induction v generalizing level w with
  | pair s first rest ihFirst ihRest =>
    cases h with
    | pair hHolder hFirst hRest =>
      unfold expandTemplate
      split
      · -- an unquote, which is evaluated at the outermost level only
        match level with
        | 0 => exact .fail
        | 1 =>
          refine (onlyOperand_stays .unquote hRest).bind fun w' operand hLe hOperand => ?_
          exact hRun _ _ (.eval hOperand)
        | outer + 2 =>
          refine (ihRest hRest).bind fun w' rest hLe hRest => ?_
          exact makePair_stays (hFirst.mono hLe) hRest
      · -- a quasiquote
        refine (ihRest hRest).bind fun w' rest hLe hRest => ?_
        exact makePair_stays (hFirst.mono hLe) hRest
      · split
        · -- a spliced element: its items are put before what is made of the rest
          rename_i operands hSome
          have hOperands : operands.In w := hFirst.of_spliced hSome
          refine (onlyOperand_stays .unquoteSplicing hOperands).bind ?_
          intro w₁ operand hLe₁ hOperand
          refine (hRun _ _ (.eval hOperand)).bind fun w₂ value hLe₂ hValue => ?_
          cases hList : value.toList? with
          | none => exact .fail
          | some items =>
            refine (ihRest ((hRest.mono hLe₁).mono hLe₂)).bind fun w₃ rest hLe₃ hRest => ?_
            exact makeChain_stays ((hValue.of_toList? hList).mono hLe₃) hRest
        · refine (ihFirst hFirst).bind fun w₁ first hLe₁ hFirst => ?_
          refine (ihRest (hRest.mono hLe₁)).bind fun w₂ rest hLe₂ hRest => ?_
          exact makePair_stays (hFirst.mono hLe₂) hRest
  | _ => exact .value h

/-! ## Binding names -/

omit hRun in
/-- A name is bound to a new procedure. -/
theorem defineProcedure_stays {body : Value} (form : Form) (kind : CompoundKind)
    (hName : w.names name) (h : v.In w) (hBody : body.In w) :
    StaysIn w Value.In (do
      let formals ← Eval.ofExcept (parseFormals form v)
      let procedure ← Eval.makeProcedure kind formals body
      Eval.define env name procedure
      return .symbol name) := by
  refine (parseFormals_stays form h).bind fun w₁ formals hLe₁ hNames => ?_
  refine (makeProcedure_stays hNames (hBody.mono hLe₁)).bind fun w₂ procedure hLe₂ hProcedure => ?_
  have hName₂ : w₂.names name := hLe₂.name (hLe₁.name hName)
  exact (define_stays hName₂ hProcedure).bind fun w₃ _ hLe₃ _ => .value (.atom (hLe₃.name hName₂))

/-- A `define` binds a name of the world to a value of the world. -/
theorem evalDefine_stays (h : v.In w) : StaysIn w Value.In (evalDefine run v env) := by
  unfold evalDefine
  refine (checkOperands_stays .define h 2 none).bind fun w₁ items hLe₁ hItems => ?_
  cases h.mono hLe₁ with
  | @pair s first body hHolder hFirst hBody =>
    cases hFirst with
    | @atom a hAtom =>
      cases a with
      | symbol name =>
        -- a name with one expression, whose value it is bound to
        rcases items with _ | ⟨first, _ | ⟨expr, _ | ⟨more, items⟩⟩⟩
        · exact .fail
        · exact .fail
        · have hExpr : expr.In w₁ := hItems expr (by simp)
          refine (hRun _ _ (.eval hExpr)).bind fun w₂ value hLe₂ hValue => ?_
          have hName : w₂.names name := hLe₂.name hAtom
          exact (define_stays hName hValue).bind fun w₃ _ hLe₃ _ => .value (.atom (hLe₃.name hName))
        · exact .fail
      | _ => exact .fail
    | @pair s' head parameters hHolder' hHead hParameters =>
      cases hHead with
      | @atom a hAtom =>
        cases a with
        | symbol name => exact defineProcedure_stays .define (.lambda env) hAtom hParameters hBody
        | _ => exact .fail
      | _ => exact .fail
    | _ => exact .fail
  | _ => exact .fail

omit hRun in
/-- A `define-macro` binds a name of the world to a transformer of the world. -/
theorem evalDefineMacro_stays (h : v.In w) : StaysIn w Value.In (evalDefineMacro v env) := by
  unfold evalDefineMacro
  refine (checkOperands_stays .defineMacro h 2 none).bind fun w₁ items hLe₁ _ => ?_
  cases h.mono hLe₁ with
  | @pair s first body hHolder hFirst hBody =>
    cases hFirst with
    | @pair s' head parameters hHolder' hHead hParameters =>
      cases hHead with
      | @atom a hAtom =>
        cases a with
        | symbol name =>
          exact defineProcedure_stays .defineMacro .transformer hAtom hParameters hBody
        | _ => exact .fail
      | _ => exact .fail
    | _ => exact .fail
  | _ => exact .fail

/-- A `set!` assigns a value of the world. -/
theorem evalAssignment_stays (h : v.In w) : StaysIn w Value.In (evalAssignment run v env) := by
  unfold evalAssignment
  refine (checkOperands_stays .assignment h 2 (some 2)).bind fun w₁ items hLe₁ hItems => ?_
  split
  · rename_i name expr more
    have hExpr : expr.In w₁ := hItems expr (by simp)
    refine (hRun _ _ (.eval hExpr)).bind fun w₂ value hLe₂ hValue => ?_
    exact (assign_stays hValue).bind fun _ _ _ _ => .value .undefined
  all_goals exact .fail

/-- What the bindings of a `let` have come to: names that there may be, and values that
have their places. -/
abbrev Found (w : World) (found : List String × List Value) : Prop :=
  (∀ name ∈ found.1, w.names name) ∧ AllIn w found.2

/-- The bindings of a `let` give names and values of the world. -/
theorem evalBindings_stays {bindings : List Value} (hs : AllIn w bindings) {names : List String}
    (hFound : Found w (names, vs)) :
    StaysIn w Found (evalBindings run env names vs bindings) := by
  -- What has been found so far is in the world that has been reached.
  induction bindings generalizing names vs w with
  | nil =>
    obtain ⟨hNames, hValues⟩ := hFound
    refine .pure ⟨fun name hMem => ?_, fun v hMem => ?_⟩
    · exact hNames name (List.mem_reverse.mp hMem)
    · exact hValues v (List.mem_reverse.mp hMem)
  | cons binding bindings ih =>
    obtain ⟨hBinding, hBindings⟩ := List.forall_mem_cons.mp hs
    obtain ⟨hNames, hValues⟩ := hFound
    unfold evalBindings
    refine (checkOperands_stays .binding hBinding 2 (some 2)).bind fun w₁ items hLe₁ hItems => ?_
    split
    · rename_i name expr more
      have hName : (Value.symbol name).In w₁ := hItems _ (by simp)
      have hExpr : expr.In w₁ := hItems expr (by simp)
      refine (hRun _ _ (.eval hExpr)).bind fun w₂ value hLe₂ hValue => ?_
      have hLe : w.Le w₂ := hLe₁.trans hLe₂
      refine ih (AllIn.mono hBindings hLe) ⟨List.forall_mem_cons.mpr ⟨hLe₂.name hName.name, ?_⟩,
        List.forall_mem_cons.mpr ⟨hValue, hValues.mono hLe⟩⟩
      exact fun other hMem => hLe.name (hNames other hMem)
    all_goals exact .fail

omit hRun in
/-- Parameters made of names of the world are in the world. -/
theorem ofNames_stays {names : List String} (hNames : ∀ name ∈ names, w.names name) :
    StaysIn w Formals.In (Eval.ofExcept
      ((Formals.ofNames names).mapError fun e => .invalidForm .binding (.parameters e))) := by
  cases hRead : Formals.ofNames names with
  | error e => exact .fail
  | ok formals =>
    exact .pure fun name hMem => hNames name (Formals.names_of_ofNames hRead name hMem)

/-- A `let` makes its frame with names and values of the world, and its body is in the world. -/
theorem evalLet_stays (h : v.In w) : StaysIn w Outcome.In (evalLet run v env) := by
  unfold evalLet
  refine (checkOperands_stays .binding h 2 none).bind fun w₁ items hLe₁ _ => ?_
  cases h.mono hLe₁ with
  | @pair s first body hHolder hFirst hBody =>
    cases hList : first.toList? with
    | none =>
      simp only [hList]
      exact .fail
    | some bindings =>
      simp only [hList]
      -- Bindings, names and frame one after the other, each in the world that the last has left.
      have hBindings := hFirst.of_toList? hList
      have hNone : Found w₁ ([], []) := ⟨List.forall_mem_nil _, List.forall_mem_nil _⟩
      refine (evalBindings_stays hRun hBindings hNone).bind fun w₂ found hLe₂ hFound => ?_
      refine (ofNames_stays hFound.1).bind fun w₃ formals hLe₃ hNames => ?_
      refine (makeChildFrame_stays hNames (hFound.2.mono hLe₃)).bind fun w₄ frame hLe₄ _ => ?_
      exact evalBody_stays hRun (hBody.mono (hLe₂.trans (hLe₃.trans hLe₄)))
  | _ => exact .fail

/-! ## Making procedures -/

omit hRun in
/-- The procedure of a `lambda` or a `mu` is in a later world. -/
theorem evalProcedure_stays (form : Form) (kind : CompoundKind) (h : v.In w) :
    StaysIn w Value.In (evalProcedure form kind v) := by
  unfold evalProcedure
  refine (checkOperands_stays form h 2 none).bind fun w₁ items hLe₁ _ => ?_
  cases h.mono hLe₁ with
  | pair hHolder hParameters hBody =>
    refine (parseFormals_stays form hParameters).bind fun w₂ formals hLe₂ hNames => ?_
    exact makeProcedure_stays hNames (hBody.mono hLe₂)
  | _ => exact .fail

/-! ## Control -/

/-- An `if` leaves a branch of the world to the loop. -/
theorem evalBranch_stays (h : v.In w) : StaysIn w Outcome.In (evalBranch run v env) := by
  unfold evalBranch
  refine (checkOperands_stays .branch h 2 (some 3)).bind fun w₁ items hLe₁ hItems => ?_
  split
  · rename_i test consequent alternative
    have hTest : test.In w₁ := hItems test (by simp)
    refine (hRun _ _ (.eval hTest)).bind fun w₂ value hLe₂ hValue => ?_
    split
    · exact evalTail_stays ((hItems consequent (by simp)).mono hLe₂)
    · cases alternative with
      | nil => exact .pure (.done .undefined)
      | cons other more => exact evalTail_stays ((hItems other (by simp)).mono hLe₂)
  · exact .fail

/-- The value of a test is in the world. -/
theorem evalTest_stays (h : v.In w) (later : List Value) :
    StaysIn w Value.In (evalTest run env v later) := by
  unfold evalTest
  split
  · exact .value (.atom trivial)
  · exact .fail
  · exact hRun _ _ (.eval h)

/-- A `cond` ends with the value of a test, or leaves a body of the world. -/
theorem evalClauses_stays (hs : AllIn w vs) : StaysIn w Outcome.In (evalClauses run env vs) := by
  induction vs generalizing w with
  | nil => exact .pure (.done .undefined)
  | cons clause clauses ih =>
    obtain ⟨hClause, hClauses⟩ := List.forall_mem_cons.mp hs
    unfold evalClauses
    refine (checkOperands_stays .cond hClause 1 none).bind fun w₁ items hLe₁ _ => ?_
    cases hClause.mono hLe₁ with
    | @pair s test body hHolder hTest hBody =>
      refine (evalTest_stays hRun hTest clauses).bind fun w₂ value hLe₂ hValue => ?_
      split
      · -- a clause without a body has the value of its test
        split
        · exact .pure (.done hValue)
        · exact evalBody_stays hRun (hBody.mono hLe₂)
      · exact ih (AllIn.mono hClauses (hLe₁.trans hLe₂))
    | _ => exact .fail

/-- An `and` leaves its last operand, which is in the world. -/
theorem evalConjuncts_stays (hs : AllIn w vs) :
    StaysIn w Outcome.In (evalConjuncts run env vs) := by
  induction vs generalizing w with
  | nil => exact .pure (.done (.atom trivial))
  | cons expr exprs ih =>
    obtain ⟨hExpr, hExprs⟩ := List.forall_mem_cons.mp hs
    cases exprs with
    | nil => exact evalTail_stays hExpr
    | cons next exprs =>
      unfold evalConjuncts
      refine (hRun _ _ (.eval hExpr)).bind fun w' value hLe hValue => ?_
      split
      · exact ih (AllIn.mono hExprs hLe)
      · exact .pure (.done hValue)

/-- An `or` leaves its last operand, which is in the world. -/
theorem evalDisjuncts_stays (hs : AllIn w vs) :
    StaysIn w Outcome.In (evalDisjuncts run env vs) := by
  induction vs generalizing w with
  | nil => exact .pure (.done (.atom trivial))
  | cons expr exprs ih =>
    obtain ⟨hExpr, hExprs⟩ := List.forall_mem_cons.mp hs
    cases exprs with
    | nil => exact evalTail_stays hExpr
    | cons next exprs =>
      unfold evalDisjuncts
      refine (hRun _ _ (.eval hExpr)).bind fun w' value hLe hValue => ?_
      split
      · exact .pure (.done hValue)
      · exact ih (AllIn.mono hExprs hLe)

/-- **One form.** With operands of the world a form stays in the world. -/
theorem formEval_stays (form : Form) (h : v.In w) :
    StaysIn w Outcome.In (form.eval run v env) := by
  -- Every form hands on operands of its own, or what is made of them.
  cases form with
  | conjunction =>
    exact (checkOperands_stays .conjunction h 0 none).bind fun _ _ _ hItems =>
      evalConjuncts_stays hRun hItems
  | sequence =>
    exact (checkOperands_stays .sequence h 1 none).bind fun _ _ hLe _ =>
      evalBody_stays hRun (h.mono hLe)
  | cond =>
    exact (checkOperands_stays .cond h 0 none).bind fun _ _ _ hItems =>
      evalClauses_stays hRun hItems
  | define => exact finished_stays (evalDefine_stays hRun h)
  | defineMacro => exact finished_stays (evalDefineMacro_stays h)
  | branch => exact evalBranch_stays hRun h
  | lambda => exact finished_stays (evalProcedure_stays .lambda (.lambda env) h)
  | binding => exact evalLet_stays hRun h
  | mu => exact finished_stays (evalProcedure_stays .mu .mu h)
  | disjunction =>
    exact (checkOperands_stays .disjunction h 0 none).bind fun _ _ _ hItems =>
      evalDisjuncts_stays hRun hItems
  | quasiquote =>
    exact (onlyOperand_stays .quasiquote h).bind fun _ _ _ hTemplate =>
      finished_stays (expandTemplate_stays hRun hTemplate)
  | quote => exact finished_stays (onlyOperand_stays .quote h)
  | assignment => exact finished_stays (evalAssignment_stays hRun h)
  | unquote => exact .fail
  | unquoteSplicing => exact .fail

/-! ## Built-in procedures -/

/-- What an operation gives back is made of its arguments, or is new and made of nothing
that has no place. -/
theorem perform_stays (procedure : String) (op : Operation) (hs : AllIn w vs) :
    StaysIn w Value.In (op.perform run procedure vs) := by
  obtain ⟨p, hPerform, hKind⟩ := op.performs procedure vs
  rw [hPerform run]
  -- What is computed is new; everything else is one of the arguments, a part of it, or made of
  -- them.
  cases hKind with
  | missing hShort => exact .fail
  | misplaced hOp text => exact .fail
  | settled hSettled => exact settled_stays hSettled
  | part hPair hPart =>
    cases hs _ hPair with
    | pair hHolder hFirst hRest =>
      obtain rfl | rfl := hPart
      · exact .value hFirst
      · exact .value hRest
  | pair hFirst hRest => exact makePair_stays (hs _ hFirst) (hs _ hRest)
  | list => exact makeList_stays hs
  | appended hTail hBefore =>
    exact appendOnto_stays procedure (hs _ hTail) fun v hMem => hs v (hBefore v hMem)
  | displayed text => exact display_stays
  | evaluated hExpr hEnv => exact hRun _ _ (.eval (hs _ hExpr))
  | applied hProcedure hOperands hList hEnv =>
    exact hRun _ _ (.call (hs _ hProcedure) ((hs _ hOperands).of_toList? hList))

/-- A built-in procedure with arguments of the world stays in the world. -/
theorem callBuiltin_stays {b : Builtin} (hs : AllIn w vs) :
    StaysIn w Value.In (callBuiltin run b vs env) := by
  -- An environment has no stamp, and so it is in every world.
  have hAll : AllIn w (b.allArguments vs env) := by
    unfold Builtin.allArguments
    split
    · exact List.forall_mem_append.mpr ⟨hs, List.forall_mem_singleton.mpr (.environment env)⟩
    · exact hs
  unfold callBuiltin
  split
  · exact perform_stays hRun b.name b.operation hAll
  · exact .fail

/-! ## Calls -/

/-- **One call.** A procedure of the world, with arguments of the world, stays in the world. -/
theorem call_stays (h : v.In w) (hs : AllIn w vs) :
    StaysIn w Outcome.In (call run v vs env) := by
  cases h with
  | builtin hHolder => exact finished_stays (callBuiltin_stays hRun hs)
  | @compound s kind formals body hHolder hNames hBody =>
    -- that the names of its parameters may be there is part of a procedure's place
    simp only [call, callCompound]
    split
    · refine (makeChildFrame_stays hNames hs).bind fun w' frame hLe _ => ?_
      exact evalBody_stays hRun (hBody.mono hLe)
    · exact .fail
  | _ => exact .fail

/-! ## Steps and runs -/

/-- A combination of parts of the world stays in the world. -/
theorem stepCombination_stays (h : v.In w) (hs : AllIn w vs) :
    StaysIn w Outcome.In (stepCombination run v vs env) := by
  -- with whatever operator the operands are evaluated and passed
  have hOperator : ∀ w₁ operator, w.Le w₁ → operator.In w₁ →
      StaysIn w₁ Outcome.In (evalEach run env vs >>= fun args => call run operator args env) := by
    intro w₁ operator hLe₁ hOperator
    refine (evalEach_stays hRun (hs.mono hLe₁)).bind fun w₂ args hLe₂ hArgs => ?_
    exact call_stays hRun (hOperator.mono hLe₂) hArgs
  have hHead : StaysIn w Outcome.In (run (.eval v env) >>= fun operator =>
      evalEach run env vs >>= fun args => call run operator args env) :=
    (hRun _ _ (.eval h)).bind hOperator
  cases h with
  | @atom a hAtom =>
    cases a with
    | symbol name =>
      refine lookup_stays.bind fun w₁ operator hLe₁ hValue => ?_
      split
      · -- a transformer is called with the operands as they are
        refine (hRun _ _ (.call hValue (hs.mono hLe₁))).bind fun w₂ expansion hLe₂ hExpansion => ?_
        exact .pure (.pending hExpansion)
      · exact hOperator w₁ operator hLe₁ hValue
    | _ => exact hHead
  | _ => exact hHead

/-- **One step.** A task of the world stays in the world. -/
theorem step_stays (forms : FormTable) {t : Task} (h : t.In w) :
    StaysIn w Outcome.In (t.step forms run) := by
  cases h with
  | call h hs => exact call_stays hRun h hs
  | @eval expr env h =>
    have hAtom : StaysIn w Outcome.In (finished (evalAtom expr env)) :=
      finished_stays (evalAtom_stays h)
    cases h with
    | @pair s head rest hHolder hHead hRest =>
      simp only [Task.step, step]
      cases hList : rest.toList? with
      | none => exact .fail
      | some operands =>
        have hCombination : StaysIn w Outcome.In (stepCombination run head operands env) :=
          stepCombination_stays hRun hHead (hRest.of_toList? hList)
        -- A symbol at the head may name a form; any other head is an operator.
        cases head with
        | atom a =>
          cases a with
          | symbol name =>
            simp only
            cases forms.lookup name with
            | none => exact hCombination
            | some form => exact formEval_stays hRun form hRest
          | _ => exact hCombination
        | _ => exact hCombination
    | _ => exact hAtom

end Parts

/-- A whole run stays in one world. -/
theorem runTask_stays (forms : FormTable) (fuel : Nat) {t : Task} (h : t.In w) :
    StaysIn w Value.In (runTask forms fuel t) := by
  -- All that a step leaves to other runs is left to runs with less fuel.
  induction fuel generalizing w t with
  | zero => exact fun _ _ => .outOfFuel
  | succ fuel ih =>
    have hRun : ∀ w t, t.In w → StaysIn w Value.In (runTask forms fuel t) := fun _ _ h => ih h
    rw [runTask_succ]
    refine (step_stays hRun forms h).bind fun w' outcome hLe hOutcome => ?_
    cases hOutcome with
    | done h => exact .value h
    | pending h => exact hRun _ _ (.eval h)

theorem evaluate_stays (forms : FormTable) (fuel : Nat) (env : FrameId) (h : v.In w) :
    StaysIn w Value.In (evaluate forms fuel v env) :=
  runTask_stays forms fuel (.eval h)

/-! ## Programs and sessions -/

variable {m : Machine}

/-- A program that is read and run stays in one world. -/
theorem runProgram_stays (forms : FormTable) (fuel : Nat) (env : FrameId) (echo : Value → String)
    (hm : m.In w) {ds : List Datum} (hds : ∀ d ∈ ds, d.In w) :
    ∃ w', w.Le w' ∧ (runProgram forms fuel env echo m ds).machine.In w' ∧
      AllIn w' (runProgram forms fuel env echo m ds).values := by
  induction ds generalizing m w with
  | nil => exact ⟨w, .refl w, hm, nofun⟩
  | cons d ds ih =>
    obtain ⟨hd, hds⟩ := List.forall_mem_cons.mp hds
    obtain ⟨w₁, hLe₁, hm₁, hExpr⟩ := hm.exists_load hd
    have hStays := evaluate_stays forms fuel env hExpr _ hm₁
    rw [runProgram]
    simp only
    generalize evaluate forms fuel (m.load d).1 env (m.load d).2 = answer at hStays
    cases hStays with
    | @value v n w₂ hLe₂ hIn hValue =>
      -- the forms that are left begin in the world in which this one has ended
      have hLe : w.Le w₂ := hLe₁.trans hLe₂
      have hShown : (n.write (echo v)).In w₂ := hIn.of_output _
      obtain ⟨w₃, hLe₃, hMachine, hValues⟩ := ih hShown fun d hMem => Datum.In.mono (hds d hMem) hLe
      exact ⟨w₃, hLe.trans hLe₃, hMachine, List.forall_mem_cons.mpr ⟨hValue.mono hLe₃, hValues⟩⟩
    | @failure e n w₂ hLe₂ hIn => exact ⟨w₂, hLe₁.trans hLe₂, hIn, nofun⟩
    | outOfFuel => exact ⟨w₁, hLe₁, hm₁, nofun⟩

/-- The populated global frame is in a world. -/
theorem Machine.populated_in_world (names : String → Prop)
    (hNames : ∀ b ∈ Builtin.standard, names b.name) :
    ∃ w : World, w.names = names ∧ Machine.populated.In w := by
  have hEmpty : Machine.empty.In ⟨fun _ => none, names⟩ := by
    refine ⟨fun _ _ => rfl, ?_⟩
    intro id f hFrame
    cases hFrame
  obtain ⟨w, hLe, hIn⟩ := hEmpty.exists_addGlobal hNames
  exact ⟨w, hLe.names, hIn⟩

namespace History

variable {w : World} {m : Machine} {vs : List Value}

/-- The values of a session have their places in one world. -/
theorem exists_world (h : History m vs) : ∃ w, (∀ name, w.names name) ∧ m.In w ∧ AllIn w vs := by
  -- Every event leads to a world that has grown, and any name may come up.
  induction h with
  | start =>
    obtain ⟨w, hNames, hIn⟩ := Machine.populated_in_world (fun _ => True) fun _ _ => trivial
    exact ⟨w, fun name => hNames ▸ trivial, hIn, nofun⟩
  | @read m vs h d ih =>
    obtain ⟨w, hNames, hm, hs⟩ := ih
    obtain ⟨w', hLe, hm', hValue⟩ := hm.exists_load (d := d) fun name _ => hNames name
    exact ⟨w', fun name => hLe.name (hNames name), hm',
      List.forall_mem_cons.mpr ⟨hValue, hs.mono hLe⟩⟩
  | @evaluated m n vs h expr v hExpr env hEnv forms fuel hEnd ih =>
    obtain ⟨w, hNames, hm, hs⟩ := ih
    have hStays := evaluate_stays forms fuel env (hs expr hExpr) m hm
    rw [hEnd] at hStays
    cases hStays with
    | @value _ _ w' hLe hIn hValue =>
      exact ⟨w', fun name => hLe.name (hNames name), hIn,
        List.forall_mem_cons.mpr ⟨hValue, hs.mono hLe⟩⟩
  | @failed m n vs h expr hExpr env hEnv forms fuel e hEnd ih =>
    obtain ⟨w, hNames, hm, hs⟩ := ih
    have hStays := evaluate_stays forms fuel env (hs expr hExpr) m hm
    rw [hEnd] at hStays
    cases hStays with
    | @failure _ _ w' hLe hIn =>
      exact ⟨w', fun name => hLe.name (hNames name), hIn, hs.mono hLe⟩
  | found h hFound ih =>
    obtain ⟨w, hNames, hm, hs⟩ := ih
    exact ⟨w, hNames, hm, List.forall_mem_cons.mpr ⟨hm.get? hFound, hs⟩⟩
  | taken h ih =>
    obtain ⟨w, hNames, hm, hs⟩ := ih
    exact ⟨w, hNames, hm.of_output _, hs⟩

end History
end MiniScheme
