import MiniScheme.Proofs.Eval.Regime
import MiniScheme.Proofs.Eval.TwoRuns

/-!
# Evaluation keeps within a regime

Evaluation makes nothing of what obeys a regime that does not obey it. On the way
no contract is broken that follows from the regime: guarded evaluation gives the
same answer, whatever the alarm is.

* `Contracts.FollowFrom` — what the contracts ask is so in the regime;
* `evalBody_keeps`, `expandTemplate_keeps`, `evalForm_keeps`, `callBuiltin_keeps`, … —
  one lemma for each function of the evaluator;
* `runTask_keeps`, `runTask_obeys` — whole runs.
-/

namespace MiniScheme

open Value Eval

/-! ## Tasks and contracts -/

/-- The parts of the task obey, and its frame has been made. -/
inductive Task.Obeys (r : Regime) (made : Nat) : Task → Prop
  | eval {expr : Value} {env : FrameId} (h : expr.Obeys r made) (hEnv : env < made) :
      Obeys r made (.eval expr env)
  | call {procedure : Value} {args : List Value} {env : FrameId} (h : procedure.Obeys r made)
      (hs : AllObey r made args) (hEnv : env < made) : Obeys r made (.call procedure args env)

/-- The value obeys, or the expression that is left and its frame. -/
inductive Outcome.Obeys (r : Regime) (made : Nat) : Outcome → Prop
  | done {v : Value} (h : v.Obeys r made) : Obeys r made (.done v)
  | pending {expr : Value} {env : FrameId} (h : expr.Obeys r made) (hEnv : env < made) :
      Obeys r made (.pending expr env)

/-- What the contracts ask is so in the regime, by what is checked before. -/
structure Contracts.FollowFrom (k : Contracts) (r : Regime) : Prop where
  step : ∀ {t m}, m.Obeys r → t.Obeys r m.frames.size → k.step t m
  value : ∀ {v made}, v.Obeys r made → k.value v
  body_of_list : ∀ {body}, body.isBody → k.body body
  body_of_procedure : ∀ {formals body}, r.procedure formals body → k.body body
  procedure : ∀ {formals body made}, formals.names.Nodup → body.isBody → body.Obeys r made →
    k.procedure formals body
  call : ∀ {args made}, AllObey r made args → k.call args
  builtin : ∀ {b args env made}, r.builtin b → AllObey r made args →
    b.arity.accepts (b.allArguments args env).length → k.builtin b (b.allArguments args env)
  level : ∀ {level}, 1 ≤ level → k.level level

/-- Where nothing is asked, it follows from any regime. -/
theorem Contracts.none_followFrom (r : Regime) : Contracts.none.FollowFrom r where
  step _ _ := rfl
  value _ := rfl
  body_of_list _ := rfl
  body_of_procedure _ := rfl
  procedure _ _ _ := rfl
  call _ := rfl
  builtin _ _ _ := rfl
  level _ := rfl

theorem Task.Obeys.mono {r : Regime} {made made' : Nat} {t : Task} (h : t.Obeys r made)
    (hLe : made ≤ made') : t.Obeys r made' := by
  cases h with
  | eval h hEnv => exact .eval (h.mono hLe) (Nat.lt_of_lt_of_le hEnv hLe)
  | call h hs hEnv => exact .call (h.mono hLe) (hs.mono hLe) (Nat.lt_of_lt_of_le hEnv hLe)

variable {r : Regime} {made : Nat} {env : FrameId} {v : Value} {vs : List Value}

/-! ## Operands and parameter lists -/

/-- Operands are checked without breaking a contract. -/
theorem checkOperands_ordinary (form : Form) (v : Value) (min : Nat) (max : Option Nat) :
    Except.Ordinary (fun items => checkOperands form v min max = .ok items)
      (checkOperands form v min max) := by
  unfold checkOperands
  split
  · exact .error rfl
  · split
    · exact .error rfl
    · split
      · exact .error rfl
      · exact .ok rfl

/-- The operands of a form that obeys obey, and they have passed the check. -/
theorem checkOperands_keeps (form : Form) (h : v.Obeys r made) (min : Nat) (max : Option Nat) :
    Keeps r made
      (fun made' items => AllObey r made' items ∧ checkOperands form v min max = .ok items)
      (Eval.ofExcept (checkOperands form v min max))
      (Eval.ofExcept (checkOperands form v min max)) := by
  refine .ofExcept ((checkOperands_ordinary form v min max).imp fun items hOk made' hLe => ?_)
  obtain ⟨-, rfl, -⟩ := checkOperands_eq_ok hOk
  exact ⟨(h.mono hLe).items, hOk⟩

/-- The only operand of a form that obeys obeys. -/
theorem onlyOperand_keeps (form : Form) (h : v.Obeys r made) :
    Keeps r made (Value.Obeys r) (Eval.ofExcept (onlyOperand form v))
      (Eval.ofExcept (onlyOperand form v)) := by
  -- The one operand is the first of those that are checked.
  refine .ofExcept ((checkOperands_ordinary form v 1 (some 1)).bind fun items hOk => ?_)
  obtain ⟨-, hEq, -⟩ := checkOperands_eq_ok hOk
  have hItems : AllObey r made items := hEq ▸ h.items
  cases items with
  | nil => exact .error rfl
  | cons operand items => exact .ok fun _ hLe => (hItems operand List.mem_cons_self).mono hLe

/-- The names of a parameter list that is parsed are different. -/
theorem parseFormals_keeps (form : Form) :
    Keeps r made (fun _ formals => formals.names.Nodup) (Eval.ofExcept (parseFormals form v))
      (Eval.ofExcept (parseFormals form v)) := by
  unfold parseFormals
  cases hParse : Formals.parse v with
  | error e => exact .ordinary rfl
  | ok formals => exact .pure fun _ _ => Formals.parse_nodup hParse

/-! ## Atoms and tails -/

theorem finished_keeps {x y : Eval Value} (h : Keeps r made (Value.Obeys r) x y) :
    Keeps r made (Outcome.Obeys r) (finished x) (finished y) :=
  h.bind fun _ _ _ hValue => .pure fun _ hLe => .done (hValue.mono hLe)

/-- The value of a symbol obeys like all that is bound, and any other atom like itself. -/
theorem evalAtom_keeps (h : v.Obeys r made) :
    Keeps r made (Value.Obeys r) (evalAtom v env) (evalAtom v env) := by
  unfold evalAtom
  split
  · exact lookup_keeps
  · exact .value h

/-- What is left to the loop obeys, in a frame that has been made. -/
theorem evalTail_keeps (h : v.Obeys r made) (hEnv : env < made) :
    Keeps r made (Outcome.Obeys r) (evalTail v env) (evalTail v env) := by
  unfold evalTail
  split
  · exact .pure fun _ hLe => .pending (h.mono hLe) (Nat.lt_of_lt_of_le hEnv hLe)
  · exact finished_keeps (evalAtom_keeps h)

/-! ## Numbers and lists -/

/-- The refusal of an argument is something that programs bring about. -/
theorem EvalError.OfArguments.ordinary {procedure : String} {e : EvalError}
    (h : e.OfArguments procedure) : e.breaksContract = false := by
  cases h with
  | @mistyped kind text hKind =>
    cases kind with
    | environment => exact absurd rfl hKind
    | _ => rfl
  | _ => rfl

/-- What is computed without the machine obeys. -/
theorem settled_keeps {procedure : String} {x : Except EvalError Value}
    (h : Except.Settled procedure Value.IsConstant x) :
    Keeps r made (Value.Obeys r) (Eval.ofExcept x) (Eval.ofExcept x) := by
  cases h with
  | error h => exact .ordinary h.ordinary
  | ok h => cases h <;> exact .value (.atom _)

/-- Lists that obey are appended to one that obeys, whatever is put before it. -/
theorem appendOnto_keeps (procedure : String) (h : v.Obeys r made) (hs : AllObey r made vs) :
    Keeps r made (Value.Obeys r) (Operation.appendOnto procedure v vs)
      (Operation.appendOnto procedure v vs) := by
  induction vs generalizing v made with
  | nil => exact .value h
  | cons w before ih =>
    obtain ⟨hLast, hBefore⟩ := List.forall_mem_cons.mp hs
    unfold Operation.appendOnto
    cases hList : w.toList? with
    | none => exact .ordinary rfl
    | some items =>
      refine (makeChain_keeps (hLast.of_toList? hList) h).bind fun made' tail hLe hTail => ?_
      exact ih hTail (AllObey.mono hBefore hLe)

section Parts
variable {guarded plain : Runner}
  (hRun : ∀ made t, t.Obeys r made → Keeps r made (Value.Obeys r) (guarded t) (plain t))
  {k : Contracts} (hk : k.FollowFrom r) (alarm : EvalError)
include hRun

/-! ## Several expressions -/

/-- The expressions of a body are evaluated in turn and its last one is left to the loop; a body
without any breaks a contract. -/
theorem expressions_keep (hEnv : env < made) (h : v.Obeys r made)
    (hBody : v.isBody ∨ ∀ e, r.failure e) :
    Keeps r made (Outcome.Obeys r) (evalBody guarded env v) (evalBody plain env v) := by
  -- Along the rest of the body; each expression may have made more frames.
  induction v generalizing made with
  | pair s first rest ihFirst ihRest =>
    cases h with
    | pair hFirst hRest =>
      by_cases hNil : rest = .nil
      · subst hNil
        exact evalTail_keeps hFirst hEnv
      · -- What is left of a list after one of several expressions is a body again.
        have hBody' : rest.isBody ∨ ∀ e, r.failure e := by
          refine hBody.imp_left fun hList => ?_
          exact isBody_of_isList hList hNil
        rw [evalBody, evalBody]
        · refine (hRun _ _ (.eval hFirst hEnv)).bind fun made' _ hLe _ => ?_
          exact ihRest (Nat.lt_of_lt_of_le hEnv hLe) (hRest.mono hLe) hBody'
        all_goals exact hNil
  | _ =>
    obtain hList | hFailure := hBody
    · cases hList
    · exact .fail (hFailure _)

/-- A body that the contract allows is run under guard. -/
theorem evalBody_keeps (hEnv : env < made) (h : v.Obeys r made)
    (hBody : v.isBody ∨ ∀ e, r.failure e) (hKept : k.body v) :
    Keeps r made (Outcome.Obeys r) (Guarded.evalBody k alarm guarded env v)
      (evalBody plain env v) :=
  (expressions_keep hRun hEnv h hBody).guard hKept alarm

include hk in
/-- A list that has been checked is run as a body. -/
theorem checkedBody_keeps (hEnv : env < made) (h : v.Obeys r made) (hIsBody : v.isBody) :
    Keeps r made (Outcome.Obeys r) (Guarded.evalBody k alarm guarded env v)
      (evalBody plain env v) :=
  evalBody_keeps hRun alarm hEnv h (.inl hIsBody) (hk.body_of_list hIsBody)

/-- The values of expressions that obey do, too. -/
theorem evalEach_keeps (hEnv : env < made) (hs : AllObey r made vs) :
    Keeps r made (AllObey r) (evalEach guarded env vs) (evalEach plain env vs) := by
  -- The induction needs whatever values have been found before.
  suffices h : ∀ values, AllObey r made values →
      Keeps r made (AllObey r) (evalEachOnto guarded env values vs)
        (evalEachOnto plain env values vs) from h [] nofun
  induction vs generalizing made with
  | nil =>
    intro values hValues
    refine .pure fun made' hLe v hMem => ?_
    exact (hValues v (List.mem_reverse.mp hMem)).mono hLe
  | cons expr exprs ih =>
    intro values hValues
    obtain ⟨hExpr, hExprs⟩ := List.forall_mem_cons.mp hs
    refine (hRun _ _ (.eval hExpr hEnv)).bind fun made' v hLe hValue => ?_
    refine ih (Nat.lt_of_lt_of_le hEnv hLe) (AllObey.mono hExprs hLe) (v :: values) ?_
    exact List.forall_mem_cons.mpr ⟨hValue, hValues.mono hLe⟩

/-! ## Templates -/

include hk in
/-- **A template that obeys is copied to a value that obeys.** On the way the level stays
positive, and each unquoted part is evaluated under guard. -/
theorem expandTemplate_keeps {level : Nat} (hLevel : 1 ≤ level) (hEnv : env < made)
    (h : v.Obeys r made) :
    Keeps r made (Value.Obeys r) (Guarded.expandTemplate k alarm guarded env level v)
      (expandTemplate plain env level v) := by
  -- The level and the count of frames are not fixed: both grow inside.
  induction v generalizing level made with
  | pair s first rest ihFirst ihRest =>
    cases h with
    | pair hFirst hRest =>
      unfold Guarded.expandTemplate
      refine Keeps.guard ?_ (hk.level hLevel) alarm
      dsimp only
      split
      · match level with
        | 0 => cases hLevel
        | 1 =>
          refine (onlyOperand_keeps .unquote hRest).bind fun made' operand hLe hOperand => ?_
          exact hRun _ _ (.eval hOperand (Nat.lt_of_lt_of_le hEnv hLe))
        | outer + 2 =>
          refine (ihRest (Nat.le_add_left 1 outer) hEnv hRest).bind fun made' rest hLe hRest => ?_
          exact makePair_keeps (hFirst.mono hLe) hRest
      · refine (ihRest (Nat.le_succ_of_le hLevel) hEnv hRest).bind fun made' rest hLe hRest => ?_
        exact makePair_keeps (hFirst.mono hLe) hRest
      · rename_i hUnquote hQuasiquote
        split
        · rename_i operands hSome
          rw [expandTemplate_spliced hSome]
          have hOperands : operands.Obeys r made := hFirst.of_spliced hSome
          refine (onlyOperand_keeps .unquoteSplicing hOperands).bind ?_
          intro made₁ operand hLe₁ hOperand
          have hEnv₁ : env < made₁ := Nat.lt_of_lt_of_le hEnv hLe₁
          refine (hRun _ _ (.eval hOperand hEnv₁)).bind fun made₂ value hLe₂ hValue => ?_
          have hEnv₂ : env < made₂ := Nat.lt_of_lt_of_le hEnv₁ hLe₂
          cases hList : value.toList? with
          | none => exact .ordinary rfl
          | some items =>
            refine (ihRest hLevel hEnv₂ ((hRest.mono hLe₁).mono hLe₂)).bind ?_
            intro made₃ rest hLe₃ hRest
            exact makeChain_keeps ((hValue.of_toList? hList).mono hLe₃) hRest
        · rename_i hElement
          rw [expandTemplate_element hUnquote hQuasiquote]
          · refine (ihFirst hLevel hEnv hFirst).bind fun made₁ first hLe₁ hFirst => ?_
            have hEnv₁ : env < made₁ := Nat.lt_of_lt_of_le hEnv hLe₁
            refine (ihRest hLevel hEnv₁ (hRest.mono hLe₁)).bind fun made₂ rest hLe₂ hRest => ?_
            exact makePair_keeps (hFirst.mono hLe₂) hRest
          · intro hOne
            exact Option.eq_none_iff_forall_ne_some.mpr fun operands hSome =>
              hElement operands hOne hSome
  | _ =>
    unfold Guarded.expandTemplate expandTemplate
    exact Keeps.guard (.value h) (hk.level hLevel) alarm

/-! ## Binding names -/

include hk in
omit hRun in
/-- The contract on new procedures is kept, and the procedure obeys. -/
theorem makeProcedure_guarded_keeps {kind : CompoundKind} {formals : Formals}
    (hKind : kind.Within made) (hNodup : formals.names.Nodup) (hBody : v.isBody)
    (h : v.Obeys r made) :
    Keeps r made (Value.Obeys r) (Guarded.makeProcedure k alarm kind formals v)
      (makeProcedure kind formals v) := by
  refine Keeps.guard ?_ (hk.procedure hNodup hBody h) alarm
  exact makeProcedure_keeps hKind (r.procedure_of_made hNodup hBody) h

include hk in
omit hRun in
/-- A name is bound to a new procedure. -/
theorem defineProcedure_keeps {body : Value} (form : Form) {kind : CompoundKind}
    (hKind : kind.Within made) (name : String) (hIsBody : body.isBody)
    (hBody : body.Obeys r made) :
    Keeps r made (Value.Obeys r)
      (do
        let formals ← Eval.ofExcept (parseFormals form v)
        let procedure ← Guarded.makeProcedure k alarm kind formals body
        Eval.define env name procedure
        return .symbol name)
      (do
        let formals ← Eval.ofExcept (parseFormals form v)
        let procedure ← Eval.makeProcedure kind formals body
        Eval.define env name procedure
        return .symbol name) := by
  refine (parseFormals_keeps form).bind fun made₁ formals hLe₁ hNodup => ?_
  refine (makeProcedure_guarded_keeps hk alarm (hKind.mono hLe₁) hNodup hIsBody
    (hBody.mono hLe₁)).bind fun made₂ procedure hLe₂ hProcedure => ?_
  exact (define_keeps hProcedure).bind fun _ _ _ _ => .value (.atom _)

include hk in
/-- What a `define` binds obeys: the value of an expression, or a procedure whose names are
different and whose body is one. -/
theorem evalDefine_keeps (h : v.Obeys r made) (hEnv : env < made) :
    Keeps r made (Value.Obeys r) (Guarded.evalDefine k alarm guarded v env)
      (evalDefine plain v env) := by
  unfold Guarded.evalDefine evalDefine
  refine (checkOperands_keeps .define h 2 none).bind ?_
  rintro made₁ items hLe₁ ⟨hItems, hOk⟩
  have hEnv₁ : env < made₁ := Nat.lt_of_lt_of_le hEnv hLe₁
  cases h with
  | @pair s first body hFirst hBody =>
    cases first with
    | atom a =>
      cases a with
      | symbol name =>
        -- Besides the name there must be one expression and no more.
        rcases items with _ | ⟨first, _ | ⟨expr, _ | ⟨more, items⟩⟩⟩
        · exact .ordinary rfl
        · exact .ordinary rfl
        · have hExpr : expr.Obeys r made₁ := hItems expr (by simp)
          refine (hRun _ _ (.eval hExpr hEnv₁)).bind fun made₂ value hLe₂ hValue => ?_
          exact (define_keeps hValue).bind fun _ _ _ _ => .value (.atom _)
        · exact .ordinary rfl
      | _ => exact .ordinary rfl
    | pair s' head parameters =>
      cases head with
      | atom a =>
        cases a with
        | symbol name =>
          -- at least one expression follows the name and the parameters
          have hIsBody := checkOperands_isBody_rest hOk (Nat.le_refl 2)
          have hKind : (CompoundKind.lambda env).Within made₁ := hEnv₁
          exact defineProcedure_keeps hk alarm .define hKind name hIsBody (hBody.mono hLe₁)
        | _ => exact .ordinary rfl
      | _ => exact .ordinary rfl
    | _ => exact .ordinary rfl
  | _ => exact .ordinary rfl

include hk in
omit hRun in
/-- The transformer that a `define-macro` binds obeys. -/
theorem evalDefineMacro_keeps (h : v.Obeys r made) :
    Keeps r made (Value.Obeys r) (Guarded.evalDefineMacro k alarm v env)
      (evalDefineMacro v env) := by
  unfold Guarded.evalDefineMacro evalDefineMacro
  refine (checkOperands_keeps .defineMacro h 2 none).bind ?_
  rintro made₁ items hLe₁ ⟨-, hOk⟩
  -- Only a name with parameters is a transformer by its name.
  cases h with
  | @pair s first body hFirst hBody =>
    cases first with
    | pair s' head parameters =>
      cases head with
      | atom a =>
        cases a with
        | symbol name =>
          have hIsBody := checkOperands_isBody_rest hOk (Nat.le_refl 2)
          have hKind : CompoundKind.transformer.Within made₁ := trivial
          exact defineProcedure_keeps hk alarm .defineMacro hKind name hIsBody (hBody.mono hLe₁)
        | _ => exact .ordinary rfl
      | _ => exact .ordinary rfl
    | _ => exact .ordinary rfl
  | _ => exact .ordinary rfl

/-- The value that a `set!` assigns obeys. -/
theorem evalAssignment_keeps (h : v.Obeys r made) (hEnv : env < made) :
    Keeps r made (Value.Obeys r) (evalAssignment guarded v env) (evalAssignment plain v env) := by
  unfold evalAssignment
  refine (checkOperands_keeps .assignment h 2 (some 2)).bind ?_
  rintro made₁ items hLe₁ ⟨hItems, -⟩
  split
  · rename_i name expr more
    have hExpr : expr.Obeys r made₁ := hItems expr (by simp)
    have hEnv₁ : env < made₁ := Nat.lt_of_lt_of_le hEnv hLe₁
    refine (hRun _ _ (.eval hExpr hEnv₁)).bind fun made₂ value hLe₂ hValue => ?_
    exact (assign_keeps hValue).bind fun _ _ _ _ => .value .undefined
  all_goals exact .ordinary rfl

/-- The values found for the bindings of a `let` obey, whatever the names are. -/
theorem evalBindings_keeps {bindings : List Value} (hEnv : env < made)
    (hs : AllObey r made bindings) (names : List String) (hValues : AllObey r made vs) :
    Keeps r made (fun made' found => AllObey r made' found.2)
      (evalBindings guarded env names vs bindings) (evalBindings plain env names vs bindings) := by
  -- The values found so far obey, so the induction is for any that do.
  induction bindings generalizing made names vs with
  | nil =>
    refine .pure fun made' hLe v hMem => ?_
    exact (hValues v (List.mem_reverse.mp hMem)).mono hLe
  | cons binding bindings ih =>
    obtain ⟨hBinding, hBindings⟩ := List.forall_mem_cons.mp hs
    unfold evalBindings
    refine (checkOperands_keeps .binding hBinding 2 (some 2)).bind ?_
    rintro made₁ items hLe₁ ⟨hItems, -⟩
    split
    · rename_i name expr more
      have hExpr : expr.Obeys r made₁ := hItems expr (by simp)
      have hEnv₁ : env < made₁ := Nat.lt_of_lt_of_le hEnv hLe₁
      refine (hRun _ _ (.eval hExpr hEnv₁)).bind fun made₂ value hLe₂ hValue => ?_
      have hLe : made ≤ made₂ := Nat.le_trans hLe₁ hLe₂
      refine ih (Nat.lt_of_lt_of_le hEnv hLe) (AllObey.mono hBindings hLe) (name :: names) ?_
      exact List.forall_mem_cons.mpr ⟨hValue, hValues.mono hLe⟩
    all_goals exact .ordinary rfl

omit hRun in
/-- Names that cannot be parameters are an error of the form. -/
theorem ofNames_keeps (names : List String) :
    Keeps r made (fun _ _ => True)
      (Eval.ofExcept
        ((Formals.ofNames names).mapError fun e => .invalidForm .binding (.parameters e)))
      (Eval.ofExcept
        ((Formals.ofNames names).mapError fun e => .invalidForm .binding (.parameters e))) := by
  cases Formals.ofNames names with
  | error e => exact .ordinary rfl
  | ok formals => exact .pure fun _ _ => trivial

include hk in
/-- A `let` makes its frame with values that obey, and its body is one. -/
theorem evalLet_keeps (h : v.Obeys r made) (hEnv : env < made) :
    Keeps r made (Outcome.Obeys r) (Guarded.evalLet k alarm guarded v env)
      (evalLet plain v env) := by
  unfold Guarded.evalLet evalLet
  refine (checkOperands_keeps .binding h 2 none).bind ?_
  rintro made₁ items hLe₁ ⟨-, hOk⟩
  have hEnv₁ : env < made₁ := Nat.lt_of_lt_of_le hEnv hLe₁
  cases h with
  | @pair s first body hFirst hBody =>
    cases hList : first.toList? with
    | none =>
      simp only [hList]
      exact .ordinary rfl
    | some bindings =>
      simp only [hList]
      have hBindings := (hFirst.mono hLe₁).of_toList? hList
      -- The values may have been found in a machine with more frames than there were before.
      refine (evalBindings_keeps hRun hEnv₁ hBindings [] (List.forall_mem_nil _)).bind ?_
      intro made₂ found hLe₂ hValues
      refine (ofNames_keeps found.1).bind fun made₃ formals hLe₃ _ => ?_
      have hEnv₃ : env < made₃ := Nat.lt_of_lt_of_le hEnv₁ (Nat.le_trans hLe₂ hLe₃)
      refine (makeChildFrame_keeps hEnv₃ formals (hValues.mono hLe₃)).bind ?_
      intro made₄ frame hLe₄ hFrame
      -- That there is a body has been checked before the bindings were evaluated.
      have hIsBody := checkOperands_isBody_rest hOk (Nat.le_refl 2)
      have hBody₄ : body.Obeys r made₄ :=
        hBody.mono (Nat.le_trans hLe₁ (Nat.le_trans hLe₂ (Nat.le_trans hLe₃ hLe₄)))
      exact checkedBody_keeps hRun hk alarm hFrame hBody₄ hIsBody
  | _ => exact .ordinary rfl

/-! ## Making procedures -/

include hk in
omit hRun in
/-- The procedure that a `lambda` or a `mu` makes obeys. -/
theorem evalProcedure_keeps (form : Form) {kind : CompoundKind}
    (hKind : kind.Within made) (h : v.Obeys r made) :
    Keeps r made (Value.Obeys r) (Guarded.evalProcedure k alarm form kind v)
      (evalProcedure form kind v) := by
  unfold Guarded.evalProcedure evalProcedure
  refine (checkOperands_keeps form h 2 none).bind ?_
  rintro made₁ items hLe₁ ⟨-, hOk⟩
  cases h with
  | pair hParameters hBody =>
    refine (parseFormals_keeps form).bind fun made₂ formals hLe₂ hNodup => ?_
    have hLe : made ≤ made₂ := Nat.le_trans hLe₁ hLe₂
    have hIsBody := checkOperands_isBody_rest hOk (Nat.le_refl 2)
    exact makeProcedure_guarded_keeps hk alarm (hKind.mono hLe) hNodup hIsBody (hBody.mono hLe)
  | _ => exact .ordinary rfl

/-! ## Control -/

/-- An `if` leaves the branch that is taken to the loop. -/
theorem evalBranch_keeps (h : v.Obeys r made) (hEnv : env < made) :
    Keeps r made (Outcome.Obeys r) (evalBranch guarded v env) (evalBranch plain v env) := by
  unfold evalBranch
  refine (checkOperands_keeps .branch h 2 (some 3)).bind ?_
  rintro made₁ items hLe₁ ⟨hItems, -⟩
  split
  · rename_i test consequent alternative
    have hEnv₁ : env < made₁ := Nat.lt_of_lt_of_le hEnv hLe₁
    have hTest : test.Obeys r made₁ := hItems test (by simp)
    refine (hRun _ _ (.eval hTest hEnv₁)).bind fun made₂ value hLe₂ hValue => ?_
    have hEnv₂ : env < made₂ := Nat.lt_of_lt_of_le hEnv₁ hLe₂
    split
    · exact evalTail_keeps ((hItems consequent (by simp)).mono hLe₂) hEnv₂
    · cases alternative with
      | nil => exact .pure fun _ _ => .done .undefined
      | cons other more => exact evalTail_keeps ((hItems other (by simp)).mono hLe₂) hEnv₂
  · exact .ordinary rfl

/-- The value of a test obeys; that of an `else` is a constant. -/
theorem evalTest_keeps (h : v.Obeys r made) (hEnv : env < made) (later : List Value) :
    Keeps r made (Value.Obeys r) (evalTest guarded env v later) (evalTest plain env v later) := by
  unfold evalTest
  split
  · exact .value (.atom _)
  · exact .ordinary rfl
  · exact hRun _ _ (.eval h hEnv)

include hk in
/-- A `cond` ends with the value of a test, or leaves a body that has passed the check. -/
theorem evalClauses_keeps (hEnv : env < made) (hs : AllObey r made vs) :
    Keeps r made (Outcome.Obeys r) (Guarded.evalClauses k alarm guarded env vs)
      (evalClauses plain env vs) := by
  -- Clause by clause, with more and more frames made by the tests before.
  induction vs generalizing made with
  | nil => exact .pure fun _ _ => .done .undefined
  | cons clause clauses ih =>
    obtain ⟨hClause, hClauses⟩ := List.forall_mem_cons.mp hs
    unfold Guarded.evalClauses evalClauses
    refine (checkOperands_keeps .cond hClause 1 none).bind ?_
    rintro made₁ items hLe₁ ⟨-, hOk⟩
    have hEnv₁ : env < made₁ := Nat.lt_of_lt_of_le hEnv hLe₁
    cases hClause with
    | @pair s test body hTest hBody =>
      refine (evalTest_keeps hRun (hTest.mono hLe₁) hEnv₁ clauses).bind ?_
      intro made₂ value hLe₂ hValue
      have hEnv₂ : env < made₂ := Nat.lt_of_lt_of_le hEnv₁ hLe₂
      have hLe : made ≤ made₂ := Nat.le_trans hLe₁ hLe₂
      split
      · -- a clause without a body has the value of its test
        by_cases hNil : body = .nil
        · subst hNil
          exact .pure fun _ hLe => .done (hValue.mono hLe)
        · have hIsBody := checkOperands_isBody_of_ne_nil hOk hNil
          have hKeeps := checkedBody_keeps hRun hk alarm hEnv₂ (hBody.mono hLe) hIsBody
          cases body with
          | pair s' first rest => exact hKeeps
          | _ => cases hIsBody
      · exact ih hEnv₂ (AllObey.mono hClauses hLe)
    | _ => exact .ordinary rfl

/-- An `and` leaves its last operand to the loop. -/
theorem evalConjuncts_keeps (hEnv : env < made) (hs : AllObey r made vs) :
    Keeps r made (Outcome.Obeys r) (evalConjuncts guarded env vs) (evalConjuncts plain env vs) := by
  induction vs generalizing made with
  | nil => exact .pure fun _ _ => .done (.atom _)
  | cons expr exprs ih =>
    obtain ⟨hExpr, hExprs⟩ := List.forall_mem_cons.mp hs
    cases exprs with
    | nil => exact evalTail_keeps hExpr hEnv
    | cons next exprs =>
      unfold evalConjuncts
      refine (hRun _ _ (.eval hExpr hEnv)).bind fun made' value hLe hValue => ?_
      split
      · exact ih (Nat.lt_of_lt_of_le hEnv hLe) (AllObey.mono hExprs hLe)
      · exact .pure fun _ hLe => .done (hValue.mono hLe)

/-- An `or` leaves its last operand to the loop. -/
theorem evalDisjuncts_keeps (hEnv : env < made) (hs : AllObey r made vs) :
    Keeps r made (Outcome.Obeys r) (evalDisjuncts guarded env vs) (evalDisjuncts plain env vs) := by
  induction vs generalizing made with
  | nil => exact .pure fun _ _ => .done (.atom _)
  | cons expr exprs ih =>
    obtain ⟨hExpr, hExprs⟩ := List.forall_mem_cons.mp hs
    cases exprs with
    | nil => exact evalTail_keeps hExpr hEnv
    | cons next exprs =>
      unfold evalDisjuncts
      refine (hRun _ _ (.eval hExpr hEnv)).bind fun made' value hLe hValue => ?_
      split
      · exact .pure fun _ hLe => .done (hValue.mono hLe)
      · exact ih (Nat.lt_of_lt_of_le hEnv hLe) (AllObey.mono hExprs hLe)

include hk in
/-- **One form.** What a form makes of operands that obey obeys, under guard as without. -/
theorem evalForm_keeps (form : Form) (h : v.Obeys r made) (hEnv : env < made) :
    Keeps r made (Outcome.Obeys r) (Guarded.evalForm k alarm guarded form v env)
      (form.eval plain v env) := by
  have hLater : ∀ {made'}, made ≤ made' → env < made' := fun hLe => Nat.lt_of_lt_of_le hEnv hLe
  have hLambda : (CompoundKind.lambda env).Within made := hEnv
  have hMu : CompoundKind.mu.Within made := trivial
  -- Only forms that make procedures or run bodies can break a contract; what they make has been
  -- checked.
  cases form with
  | conjunction =>
    exact (checkOperands_keeps .conjunction h 0 none).bind fun _ _ hLe hItems =>
      evalConjuncts_keeps hRun (hLater hLe) hItems.1
  | sequence =>
    refine (checkOperands_keeps .sequence h 1 none).bind fun made' _ hLe hItems => ?_
    have hIsBody := checkOperands_isBody hItems.2 (Nat.le_refl 1)
    exact checkedBody_keeps hRun hk alarm (hLater hLe) (h.mono hLe) hIsBody
  | cond =>
    exact (checkOperands_keeps .cond h 0 none).bind fun _ _ hLe hItems =>
      evalClauses_keeps hRun hk alarm (hLater hLe) hItems.1
  | define => exact finished_keeps (evalDefine_keeps hRun hk alarm h hEnv)
  | defineMacro => exact finished_keeps (evalDefineMacro_keeps hk alarm h)
  | branch => exact evalBranch_keeps hRun h hEnv
  | lambda => exact finished_keeps (evalProcedure_keeps hk alarm .lambda hLambda h)
  | binding => exact evalLet_keeps hRun hk alarm h hEnv
  | mu => exact finished_keeps (evalProcedure_keeps hk alarm .mu hMu h)
  | disjunction =>
    exact (checkOperands_keeps .disjunction h 0 none).bind fun _ _ hLe hItems =>
      evalDisjuncts_keeps hRun (hLater hLe) hItems.1
  | quasiquote =>
    refine (onlyOperand_keeps .quasiquote h).bind fun made' template hLe hTemplate => ?_
    exact finished_keeps
      (expandTemplate_keeps hRun hk alarm (Nat.le_refl 1) (hLater hLe) hTemplate)
  | quote => exact finished_keeps (onlyOperand_keeps .quote h)
  | assignment => exact finished_keeps (evalAssignment_keeps hRun h hEnv)
  | unquote => exact .ordinary rfl
  | unquoteSplicing => exact .ordinary rfl

/-! ## Built-in procedures -/

/-- `apply` calls what obeys on the items of what obeys. -/
theorem performApply_keeps {f operands : Value} (procedure : String) (h : f.Obeys r made)
    (hOperands : operands.Obeys r made) (hEnv : env < made) :
    Keeps r made (Value.Obeys r)
      (Operation.perform guarded procedure .apply (f :: operands :: .environment env :: vs))
      (Operation.perform plain procedure .apply (f :: operands :: .environment env :: vs)) := by
  simp only [Operation.perform]
  cases hList : operands.toList? with
  | none => exact .ordinary rfl
  | some args => exact hRun _ _ (.call h (hOperands.of_toList? hList) hEnv)

/-- With arguments that obey, an operation that looks at no more of them than there
are keeps the regime; so does any operation where it may fail as it likes. -/
theorem perform_keeps (procedure : String) (op : Operation) (hs : AllObey r made vs)
    (hReads : (∀ e, r.failure e) ∨ op ≠ .evaluate ∧ op ≠ .apply ∧ op.reads ≤ vs.length) :
    Keeps r made (Value.Obeys r) (op.perform guarded procedure vs)
      (op.perform plain procedure vs) := by
  obtain ⟨p, hPerform, hKind⟩ := op.performs procedure vs
  rw [hPerform guarded, hPerform plain]
  cases hKind with
  | missing hShort =>
    -- an argument is missing only where that is allowed
    obtain hFailure | ⟨-, -, hEnough⟩ := hReads
    · exact .fail (hFailure _)
    · exact absurd hEnough (Nat.not_le_of_lt hShort)
  | misplaced hOp text =>
    -- and so is the environment
    obtain hFailure | ⟨hNotEvaluate, hNotApply, -⟩ := hReads
    · exact .fail (hFailure _)
    · obtain hEvaluate | hApply := hOp
      · exact absurd hEvaluate hNotEvaluate
      · exact absurd hApply hNotApply
  | settled hSettled => exact settled_keeps hSettled
  | part hPair hPart =>
    cases hs _ hPair with
    | pair hFirst hRest =>
      obtain rfl | rfl := hPart
      · exact .value hFirst
      · exact .value hRest
  | pair hFirst hRest => exact makePair_keeps (hs _ hFirst) (hs _ hRest)
  | list => exact makeList_keeps hs
  | appended hTail hBefore =>
    exact appendOnto_keeps procedure (hs _ hTail) fun v hMem => hs v (hBefore v hMem)
  | displayed text => exact display_keeps
  | evaluated hExpr hEnv =>
    cases hs _ hEnv with
    | environment hAllowed hFrame => exact hRun _ _ (.eval (hs _ hExpr) hFrame)
  | applied hProcedure hOperands hList hEnv =>
    cases hs _ hEnv with
    | environment hAllowed hFrame =>
      exact hRun _ _ (.call (hs _ hProcedure) ((hs _ hOperands).of_toList? hList) hFrame)

include hk in
/-- The contract on built-in procedures is kept. The environment that some are given
is a value as any other where environments are; elsewhere it is used up at once. -/
theorem callBuiltin_keeps {b : Builtin} (hBuiltin : r.builtin b) (hs : AllObey r made vs)
    (hEnv : env < made) :
    Keeps r made (Value.Obeys r) (Guarded.callBuiltin k alarm guarded b vs env)
      (callBuiltin plain b vs env) := by
  unfold Guarded.callBuiltin callBuiltin
  split
  · rename_i hAccepts
    refine Keeps.guard ?_ (hk.builtin hBuiltin hs hAccepts) alarm
    -- Some are given the frame of the caller; whether that may be kept depends on the regime.
    by_cases hTakes : b.takesEnvironment = true
    · obtain ⟨hAllowed, hFailure⟩ | ⟨-, hStandard⟩ := r.free_or_safe
      · have hAll : AllObey r made (b.allArguments vs env) := by
          rw [Builtin.allArguments, if_pos hTakes]
          exact List.forall_mem_append.mpr
            ⟨hs, List.forall_mem_singleton.mpr (.environment hAllowed hEnv)⟩
        exact perform_keeps hRun b.name b.operation hAll (.inl hFailure)
      · have hShape := Builtin.args_of_reflective (hStandard hBuiltin) hTakes hAccepts
        rw [Builtin.allArguments, if_pos hTakes]
        obtain ⟨hOperation, expr, rfl⟩ | ⟨hOperation, f, operands, rfl⟩ := hShape
        · rw [hOperation]
          exact hRun _ _ (.eval (hs expr (by simp)) hEnv)
        · rw [hOperation]
          exact performApply_keeps hRun b.name (hs f (by simp)) (hs operands (by simp)) hEnv
    · rw [Builtin.allArguments, if_neg hTakes] at hAccepts ⊢
      refine perform_keeps hRun b.name b.operation hs ?_
      refine r.free_or_safe.imp (fun hFree => hFree.2) fun hSafe => ?_
      have hStandard := hSafe.2 hBuiltin
      obtain ⟨hEvaluate, hApply⟩ :=
        Builtin.plain_of_standard hStandard (Bool.eq_false_iff.mpr hTakes)
      exact ⟨hEvaluate, hApply, Builtin.reads_le_of_standard hStandard hAccepts⟩
  · exact .ordinary rfl

/-! ## Calls -/

include hk in
/-- **One call.** A procedure that obeys, with arguments that obey, is called under guard
as without. -/
theorem call_keeps (h : v.Obeys r made) (hs : AllObey r made vs) (hEnv : env < made) :
    Keeps r made (Outcome.Obeys r) (Guarded.call k alarm guarded v vs env)
      (call plain v vs env) := by
  cases h with
  | builtin hBuiltin => exact finished_keeps (callBuiltin_keeps hRun hk alarm hBuiltin hs hEnv)
  | @compound s kind formals body hKind hProcedure hBody =>
    -- the frame that the procedure was made in, or that of the caller
    have hParent : kind.parent env < made := by
      cases kind with
      | lambda home => exact hKind
      | _ => exact hEnv
    simp only [Guarded.call, Guarded.callCompound, call, callCompound]
    refine Keeps.guard ?_ (hk.call hs) alarm
    split
    · refine (makeChildFrame_keeps hParent formals hs).bind fun made' frame hLe hFrame => ?_
      -- Where a body may be anything, it may also fail to be one.
      have hIsBody : body.isBody ∨ ∀ e, r.failure e :=
        r.free_or_safe.symm.imp (fun hSafe => hSafe.1 hProcedure) fun hFree => hFree.2
      exact evalBody_keeps hRun alarm hFrame (hBody.mono hLe) hIsBody
        (hk.body_of_procedure hProcedure)
    · exact .ordinary rfl
  | _ => exact .ordinary rfl

/-! ## Steps and runs -/

include hk in
/-- A combination whose parts obey is evaluated under guard as without. -/
theorem stepCombination_keeps (h : v.Obeys r made) (hs : AllObey r made vs) (hEnv : env < made) :
    Keeps r made (Outcome.Obeys r) (Guarded.stepCombination k alarm guarded v vs env)
      (stepCombination plain v vs env) := by
  -- with whatever operator the operands are evaluated and passed
  have hOperator : ∀ made' operator, made ≤ made' → operator.Obeys r made' →
      Keeps r made' (Outcome.Obeys r)
        (evalEach guarded env vs >>= fun args => Guarded.call k alarm guarded operator args env)
        (evalEach plain env vs >>= fun args => call plain operator args env) := by
    intro made₁ operator hLe₁ hOperator
    have hEnv₁ : env < made₁ := Nat.lt_of_lt_of_le hEnv hLe₁
    refine (evalEach_keeps hRun hEnv₁ (hs.mono hLe₁)).bind fun made₂ args hLe₂ hArgs => ?_
    exact call_keeps hRun hk alarm (hOperator.mono hLe₂) hArgs (Nat.lt_of_lt_of_le hEnv₁ hLe₂)
  have hHead := (hRun _ _ (.eval h hEnv)).bind hOperator
  cases h with
  | atom a =>
    cases a with
    | symbol name =>
      refine lookup_keeps.bind fun made₁ operator hLe₁ hValue => ?_
      split
      · -- a transformer is called with the operands as they are
        have hEnv₁ : env < made₁ := Nat.lt_of_lt_of_le hEnv hLe₁
        refine (hRun _ _ (.call hValue (hs.mono hLe₁) hEnv₁)).bind ?_
        intro made₂ expansion hLe₂ hExpansion
        refine .pure fun made₃ hLe₃ => .pending (hExpansion.mono hLe₃) ?_
        exact Nat.lt_of_lt_of_le hEnv₁ (Nat.le_trans hLe₂ hLe₃)
      · exact hOperator made₁ operator hLe₁ hValue
    | _ => exact hHead
  | _ => exact hHead

include hk in
/-- **One step.** What a task that obeys comes to obeys, and the guarded step is the same. -/
theorem step_keeps (forms : FormTable) {t : Task} (h : t.Obeys r made) :
    Keeps r made (Outcome.Obeys r) (Guarded.step k alarm forms guarded t)
      (t.step forms plain) := by
  cases h with
  | call h hs hEnv => exact call_keeps hRun hk alarm h hs hEnv
  | @eval expr env h hEnv =>
    have hAtom : Keeps r made (Outcome.Obeys r) (finished (evalAtom expr env))
        (finished (evalAtom expr env)) := finished_keeps (evalAtom_keeps h)
    cases h with
    | @pair s head rest hHead hRest =>
      simp only [Guarded.step, Task.step, step]
      cases hList : rest.toList? with
      | none => exact .ordinary rfl
      | some operands =>
        have hCombination :=
          stepCombination_keeps hRun hk alarm hHead (hRest.of_toList? hList) hEnv
        -- A symbol at the head may name a form; any other head is an operator.
        cases head with
        | atom a =>
          cases a with
          | symbol name =>
            simp only
            cases forms.lookup name with
            | none => exact hCombination
            | some form => exact evalForm_keeps hRun hk alarm form hRest hEnv
          | _ => exact hCombination
        | _ => exact hCombination
    | _ => exact hAtom

end Parts

/-- A whole run keeps the machine within the regime, and guarded evaluation gives the
same answer. -/
theorem runTask_keeps {k : Contracts} (hk : k.FollowFrom r) (alarm : EvalError) (forms : FormTable)
    (fuel : Nat) {t : Task} (h : t.Obeys r made) :
    Keeps r made (Value.Obeys r) (Guarded.runTask k alarm forms fuel t)
      (runTask forms fuel t) := by
  -- All that a step leaves to other runs is left to runs with less fuel.
  induction fuel generalizing made t with
  | zero => exact fun _ _ _ => ⟨rfl, .outOfFuel⟩
  | succ fuel ih =>
    have hRun : ∀ made t, t.Obeys r made → Keeps r made (Value.Obeys r)
        (Guarded.runTask k alarm forms fuel t) (runTask forms fuel t) := fun _ _ h => ih h
    have hKeeps : Keeps r made (Value.Obeys r)
        (Guarded.step k alarm forms (Guarded.runTask k alarm forms fuel) t >>=
          Guarded.complete k alarm (Guarded.runTask k alarm forms fuel))
        (t.step forms (runTask forms fuel) >>= complete (runTask forms fuel)) := by
      refine (step_keeps hRun hk alarm forms h).bind fun made' outcome hLe hOutcome => ?_
      cases hOutcome with
      | done h => exact Keeps.guard (.value h) (hk.value h) alarm
      | pending h hEnv => exact hRun _ _ (.eval h hEnv)
    rw [runTask_succ]
    intro m hm hMade
    have hStep : k.step t m := hk.step hm (h.mono hMade)
    exact hKeeps.guard hStep alarm m hm hMade

/-- A run from a machine within the regime. -/
theorem runTask_obeys {k : Contracts} (hk : k.FollowFrom r) (alarm : EvalError) (forms : FormTable)
    (fuel : Nat) {t : Task} {m : Machine} (hm : m.Obeys r) (h : t.Obeys r m.frames.size) :
    Guarded.runTask k alarm forms fuel t m = runTask forms fuel t m ∧
      (runTask forms fuel t m).Keeps r m (Value.Obeys r) :=
  runTask_keeps hk alarm forms fuel h m hm (Nat.le_refl _)

end MiniScheme
