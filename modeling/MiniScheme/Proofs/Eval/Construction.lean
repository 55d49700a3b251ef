import MiniScheme.Proofs.Eval.Conditionals
import MiniScheme.Proofs.Eval.Reflection
import MiniScheme.Proofs.Eval.Template

/-!
# Templates written out

A template in which there is no other quasiquote can be written with `quote`, `cons` and `append`:
what is no pair is quoted, an operand stands for itself, a spliced operand is put before the rest by
`append`, and any other pair is put together by `cons`. Where these two names keep standing for the
built-in procedures, and what is spliced is always a list, this expression has the answers of the
quasiquote, down to the stamps of the new pairs.

* `comesTo_bind_congr`, `comesTo_succ_iff` — what has the same answers;
* `Value.isFlat` — templates without another quasiquote, in which each operand is the only one of
  its form;
* `Value.BuiltBy` — the expression that makes what the template asks for;
* `Value.Orderly` — what is asked of the machines on which the parts of a template are copied;
* `copied_iff_built` — the same answers, one case for each kind of template;
* `quasiquote_is_construction` — a quasiquote and the expression.
-/

namespace MiniScheme

open Value Eval

/-! ## The same answers -/

section Answers
variable {α β : Type} {m : Machine}

theorem comesTo_congr {x y : Nat → Eval α} {a : Answer α} (h : ∀ fuel, x fuel m = y fuel m) :
    ComesTo x m a ↔ ComesTo y m a := by
  simp only [ComesTo, h]

/-- A first step that has no answer by itself makes no difference. -/
theorem comesTo_succ_iff {x : Nat → Eval α} {a : Answer α} (h : x 0 m = .outOfFuel) :
    ComesTo x m a ↔ ComesTo (fun fuel => x (fuel + 1)) m a := by
  refine and_congr_right fun ha => ⟨?_, fun ⟨fuel, hFuel⟩ => ⟨fuel + 1, hFuel⟩⟩
  rintro ⟨fuel, hFuel⟩
  cases fuel with
  | zero => exact absurd (hFuel.symm.trans h) ha
  | succ fuel => exact ⟨fuel, hFuel⟩

/-- Computations that begin with the same answers have the same answers if they go on with the same
answers. -/
theorem comesTo_bind_congr {x y : Nat → Eval α} {f g : α → Nat → Eval β} (hx : Steady x)
    (hy : Steady y) (hf : ∀ v, Steady (f v)) (hg : ∀ v, Steady (g v))
    (hFirst : ∀ b, ComesTo x m b ↔ ComesTo y m b)
    (hNext : ∀ v n, ComesTo x m (.value v n) → ∀ a, ComesTo (f v) n a ↔ ComesTo (g v) n a)
    (a : Answer β) :
    ComesTo (fun fuel => x fuel >>= fun v => f v fuel) m a ↔
      ComesTo (fun fuel => y fuel >>= fun v => g v fuel) m a := by
  rw [comesTo_bind_iff hx hf, comesTo_bind_iff hy hg]
  refine exists_congr fun b => ?_
  rw [← hFirst b]
  refine and_congr_right fun hb => ?_
  cases b with
  | value v n => exact hNext v n hb a
  | _ => exact Iff.rfl

/-- What is done afterwards may need no fuel. -/
theorem Eval.Steady.bind {x : Nat → Eval α} (hx : Steady x) (f : α → Eval β) :
    Steady fun fuel => x fuel >>= f :=
  fun h => Eval.le_congruence.bind (hx h) fun v => Eval.le_congruence.refl (f v)

/-- What comes after may be put behind any computation with the same answers. -/
theorem comesTo_bind_congr_left {x y : Nat → Eval α} (hx : Steady x) (hy : Steady y)
    (hFirst : ∀ b, ComesTo x m b ↔ ComesTo y m b) (f : α → Eval β) (a : Answer β) :
    ComesTo (fun fuel => x fuel >>= f) m a ↔ ComesTo (fun fuel => y fuel >>= f) m a :=
  comesTo_bind_congr hx hy (fun v _ _ _ => Eval.le_congruence.refl (f v))
    (fun v _ _ _ => Eval.le_congruence.refl (f v)) hFirst (fun _ _ _ _ => Iff.rfl) a

end Answers

/-! ## Templates and what builds them -/

/-- An element of a template that is neither a mark nor spliced. -/
structure Value.IsElement (v : Value) : Prop where
  not_unquote : v ≠ .symbol "unquote"
  not_quasiquote : v ≠ .symbol "quasiquote"
  not_spliced : splicedOperands? v = none

/-- Is there no other quasiquote, and only one operand in each form? Operands are not looked
into. -/
def Value.isFlat : Value → Bool
  | .pair _ first rest =>
    match first.mark? with
    | some .quasiquote => false
    | some .unquote => rest.only?.isSome
    | _ =>
      match splicedOperands? first with
      | some operands => operands.only?.isSome && rest.isFlat
      | none => first.isFlat && rest.isFlat
  | _ => true

/-- The expression makes what the template asks for. -/
inductive Value.BuiltBy : Value → Value → Prop
  /-- What is no pair is quoted. -/
  | leaf {v expr : Value} (hLeaf : ∀ s first rest, v ≠ .pair s first rest) (h : expr.Quotes v) :
      BuiltBy v expr
  | unquote (s t : Stamp) (expr : Value) :
      BuiltBy (.pair s (.symbol "unquote") (.pair t expr .nil)) expr
  | splice (s t u : Stamp) (expr : Value) {rest d : Value} (hRest : BuiltBy rest d)
      (s' t' u' : Stamp) :
      BuiltBy (.pair s (.pair t (.symbol "unquote-splicing") (.pair u expr .nil)) rest)
        (.pair s' (.symbol "append") (.pair t' expr (.pair u' d .nil)))
  | element (s : Stamp) {first rest d d' : Value} (h : first.IsElement) (hFirst : BuiltBy first d)
      (hRest : BuiltBy rest d') (s' t' u' : Stamp) :
      BuiltBy (.pair s first rest) (.pair s' (.symbol "cons") (.pair t' d (.pair u' d' .nil)))

/-- Copies a template at the first level. -/
def copying (forms : FormTable) (env : FrameId) (template : Value) (fuel : Nat) : Eval Value :=
  expandTemplate (runTask forms fuel) env 1 template

/-- While the template is copied, `cons` and `append` stand for the built-in procedures wherever a
pair is put together or a list is put before the rest, and everything that is spliced is a list. -/
inductive Value.Orderly (forms : FormTable) (env : FrameId) : Value → Machine → Prop
  | leaf {v : Value} (m : Machine) (hLeaf : ∀ s first rest, v ≠ .pair s first rest) :
      Orderly forms env v m
  | unquote (s t : Stamp) (expr : Value) (m : Machine) :
      Orderly forms env (.pair s (.symbol "unquote") (.pair t expr .nil)) m
  | splice (s t u : Stamp) {expr rest : Value} {m : Machine} (h : m.Installed env "append")
      (hList : ∀ v n, ComesTo (fun fuel => evaluate forms fuel expr env) m (.value v n) → v.isList)
      (hRest : ∀ v n, ComesTo (fun fuel => evaluate forms fuel expr env) m (.value v n) →
        Orderly forms env rest n) :
      Orderly forms env (.pair s (.pair t (.symbol "unquote-splicing") (.pair u expr .nil)) rest) m
  | element (s : Stamp) {first rest : Value} {m : Machine} (hElement : first.IsElement)
      (h : m.Installed env "cons") (hFirst : Orderly forms env first m)
      (hRest : ∀ v n, ComesTo (copying forms env first) m (.value v n) →
        Orderly forms env rest n) :
      Orderly forms env (.pair s first rest) m

/-! ## Steps -/

section Steps
variable {forms : FormTable} {env : FrameId} {first rest d d' expr v : Value} {m : Machine}
  {s t u : Stamp}

/-- More fuel does not change the copy of a template. -/
theorem copying_steady (forms : FormTable) (env : FrameId) (template : Value) :
    Steady (copying forms env template) :=
  fun h => expandTemplate_rel Eval.le_congruence (runTask_le_of_le h) env 1 template

/-- Whatever is no pair is copied as it is. -/
theorem copying_leaf (hLeaf : ∀ s first rest, v ≠ .pair s first rest) (fuel : Nat) :
    copying forms env v fuel = pure v := by
  cases v with
  | pair s first rest => exact absurd rfl (hLeaf s first rest)
  | _ => rfl

/-- An unquoted expression is evaluated. -/
theorem copying_unquote (fuel : Nat) :
    copying forms env (.pair s (.symbol "unquote") (.pair t expr .nil)) fuel =
      evaluate forms fuel expr env :=
  rfl

/-- A spliced expression is evaluated to a list, which goes before the copy of the rest. -/
theorem copying_splice (fuel : Nat) :
    copying forms env (.pair s (.pair t (.symbol "unquote-splicing") (.pair u expr .nil)) rest)
        fuel =
      (evaluate forms fuel expr env >>= fun v =>
        match v.toList? with
        | none => Eval.fail (.typeMismatch Form.unquoteSplicing.keyword .list v.text)
        | some items => copying forms env rest fuel >>= fun w => Eval.makeChain items w) := by
  have hSpliced : splicedOperands? (.pair t (.symbol "unquote-splicing") (.pair u expr .nil)) =
      some (.pair u expr .nil) := rfl
  rw [copying, expandTemplate_spliced hSpliced]
  rfl

/-- Any other pair is copied part by part. -/
theorem copying_element (h : first.IsElement) (fuel : Nat) :
    copying forms env (.pair s first rest) fuel =
      (copying forms env first fuel >>= fun v =>
        copying forms env rest fuel >>= fun w => Eval.makePair v w) :=
  expandTemplate_element h.not_unquote h.not_quasiquote (fun _ => h.not_spliced) s rest

/-- A call of `cons` by its name. -/
theorem evaluate_cons (hCons : forms.lookup "cons" = none) (h : m.Installed env "cons")
    (fuel : Nat) :
    evaluate forms (fuel + 1) (.pair s (.symbol "cons") (.pair t d (.pair u d' .nil))) env m =
      (evaluate forms fuel d env >>= fun v =>
        evaluate forms fuel d' env >>= fun w => Eval.makePair v w) m := by
  refine (evaluate_builtin (b := .plain "cons" (.exactly 2) .cons) (by decide +kernel) hCons h rfl
    fuel s).trans ?_
  exact congrFun (evalEach_two_bind (runTask forms fuel) env d d' _) m

/-- Two lists put together. -/
def appendTwo (v w : Value) : Eval Value :=
  match v.toList? with
  | none => Eval.fail (.typeMismatch "append" .list v.text)
  | some items => Eval.makeChain items w

/-- A call of `append` by its name. -/
theorem evaluate_append (hAppend : forms.lookup "append" = none) (h : m.Installed env "append")
    (fuel : Nat) :
    evaluate forms (fuel + 1) (.pair s (.symbol "append") (.pair t d (.pair u d' .nil))) env m =
      (evaluate forms fuel d env >>= fun v =>
        evaluate forms fuel d' env >>= fun w => appendTwo v w) m := by
  have hCall : ∀ v w, callBuiltin (runTask forms fuel) (.plain "append" (.atLeast 0) .append)
      [v, w] env = appendTwo v w := by
    intro v w
    show Operation.appendOnto "append" w [v] = _
    rw [Operation.appendOnto, appendTwo]
    cases v.toList? with
    | none => rfl
    | some items => exact bind_pure (Eval.makeChain items w)
  refine (evaluate_builtin (b := .plain "append" (.atLeast 0) .append) (by decide +kernel) hAppend
    h rfl fuel s).trans ?_
  refine (congrFun (evalEach_two_bind (runTask forms fuel) env d d' _) m).trans ?_
  simp only [hCall]
  rfl

end Steps

/-! ## The same answers for every template -/

/-- A template is copied as the expression that it is built by is evaluated. -/
theorem copied_iff_built {forms : FormTable} (hForms : forms.IsComplete)
    (hCons : forms.lookup "cons" = none) (hAppend : forms.lookup "append" = none) {env : FrameId}
    {template expr : Value} (hBuilt : template.BuiltBy expr) {m : Machine}
    (h : template.Orderly forms env m) (a : Answer Value) :
    ComesTo (copying forms env template) m a ↔
      ComesTo (fun fuel => evaluate forms fuel expr env) m a := by
  -- The machine is not fixed: the rest of a pair is copied where its first part has left it.
  induction hBuilt generalizing m a with
  | @leaf v expr hLeaf hQuotes =>
    rw [comesTo_succ_iff (x := fun fuel => evaluate forms fuel expr env) rfl]
    refine comesTo_congr fun fuel => ?_
    rw [copying_leaf hLeaf, evaluate_quote hForms hQuotes]
  | unquote s t expr => exact comesTo_congr fun fuel => congrFun (copying_unquote fuel) m
  | @splice s t u expr rest d hBuilt s' t' u' ih =>
    cases h with
    | leaf m hLeaf => exact absurd rfl (hLeaf s _ rest)
    | element s hElement h hFirst hRest => cases hElement.not_spliced
    | splice s t u h hList hRest =>
      rw [comesTo_succ_iff
          (x := fun fuel => evaluate forms fuel (.pair s' (.symbol "append") _) env) rfl,
        comesTo_congr fun fuel => evaluate_append hAppend h fuel,
        comesTo_congr fun fuel => congrFun (copying_splice fuel) m]
      refine comesTo_bind_congr (evaluate_steady expr) (evaluate_steady expr) ?_
        (fun v => Steady.bind (evaluate_steady d) (appendTwo v)) (fun b => Iff.rfl) ?_ a
      · intro v
        cases v.toList? with
        | none => exact fun _ => Eval.le_congruence.refl _
        | some items => exact Steady.bind (copying_steady forms env rest) _
      · intro v n hValue b
        have hItems : v.toList? = some v.items := toList?_of_isList (hList v n hValue)
        have hAppendTwo : appendTwo v = Eval.makeChain v.items := by
          funext w
          rw [appendTwo, hItems]
        simp only [hItems, hAppendTwo]
        exact comesTo_bind_congr_left (copying_steady forms env rest) (evaluate_steady d)
          (fun c => ih (hRest v n hValue) c) (Eval.makeChain v.items) b
  | @element s first rest d d' hElement hBuilt hBuilt' s' t' u' ihFirst ihRest =>
    cases h with
    | leaf m hLeaf => exact absurd rfl (hLeaf s first rest)
    | unquote => exact absurd rfl hElement.not_unquote
    | splice => cases hElement.not_spliced
    | element s hElement h hFirst hRest =>
      rw [comesTo_succ_iff
          (x := fun fuel => evaluate forms fuel (.pair s' (.symbol "cons") _) env) rfl,
        comesTo_congr fun fuel => evaluate_cons hCons h fuel,
        comesTo_congr fun fuel => congrFun (copying_element hElement fuel) m]
      refine comesTo_bind_congr (copying_steady forms env first) (evaluate_steady d)
        (fun v => Steady.bind (copying_steady forms env rest) (Eval.makePair v))
        (fun v => Steady.bind (evaluate_steady d') (Eval.makePair v))
        (fun b => ihFirst hFirst b) ?_ a
      intro v n hValue b
      exact comesTo_bind_congr_left (copying_steady forms env rest) (evaluate_steady d')
        (fun c => ihRest (hRest v n hValue) c) (Eval.makePair v) b

/-! ## Flat templates -/

/-- A value with a single item is a pair of it and the empty list. -/
theorem Value.eq_of_only? {v item : Value} (h : v.only? = some item) :
    ∃ s, v = .pair s item .nil := by
  unfold only? at h
  split at h
  · cases h
    exact ⟨_, rfl⟩
  · cases h

/-- A value with spliced operands is `unquote-splicing` before them. -/
theorem Value.eq_of_splicedOperands? {v operands : Value}
    (h : splicedOperands? v = some operands) :
    ∃ s, v = .pair s (.symbol "unquote-splicing") operands := by
  unfold splicedOperands? at h
  split at h
  · cases h
    exact ⟨_, rfl⟩
  · cases h

/-- What begins with another mark than a quasiquote or an unquote, or with none. -/
theorem Value.isFlat_element {s : Stamp} {first rest : Value}
    (hUnquote : first.mark? ≠ some .unquote) (h : (pair s first rest).isFlat) :
    (∃ operands, splicedOperands? first = some operands ∧ operands.only?.isSome ∧ rest.isFlat) ∨
      (first.IsElement ∧ first.isFlat ∧ rest.isFlat) := by
  unfold isFlat at h
  split at h
  · cases h
  · rename_i hMark
    exact absurd hMark hUnquote
  · rename_i hQuasiquote hNot
    -- An element that is spliced has one operand; any other one is flat itself.
    cases hSpliced : splicedOperands? first with
    | some operands =>
      rw [hSpliced] at h
      obtain ⟨hOnly, hRest⟩ := Bool.and_eq_true_iff.mp h
      exact .inl ⟨operands, rfl, hOnly, hRest⟩
    | none =>
      rw [hSpliced] at h
      obtain ⟨hFirst, hRest⟩ := Bool.and_eq_true_iff.mp h
      refine .inr ⟨⟨?_, ?_, hSpliced⟩, hFirst, hRest⟩
      · rintro rfl
        exact hUnquote rfl
      · rintro rfl
        exact hQuasiquote rfl

/-- An element is read as it is: its mark, if it has one, does not change the level. -/
theorem Value.IsElement.read_eq {s : Stamp} {first rest : Value} {t t' : Template}
    (h : first.IsElement) (hFirst : Template.read LevelMark.changeMade 1 first = some t)
    (hRest : Template.read LevelMark.changeMade 1 rest = some t') :
    Template.read LevelMark.changeMade 1 (.pair s first rest) = some (.pair t t') := by
  cases hMark : first.mark? with
  | none =>
    rw [Template.read_element hMark fun _ => h.not_spliced, hFirst, hRest, Option.map₂_some_some]
  | some mark =>
    cases eq_symbol_of_mark? hMark
    cases mark with
    | quasiquote => exact absurd rfl h.not_quasiquote
    | unquote => exact absurd rfl h.not_unquote
    | unquoteSplicing =>
      cases hFirst
      have hKept : LevelMark.unquoteSplicing = .unquote → (1 : Int) ≠ 1 := nofun
      rw [Template.read_kept hKept, LevelMark.changeMade, Int.add_zero, hRest]
      rfl

/-- Every flat template is built by some expression, and is read as a template. -/
theorem Value.exists_builtBy {template : Value} (h : template.isFlat) :
    (∃ expr, template.BuiltBy expr) ∧
      ∃ t, Template.read LevelMark.changeMade 1 template = some t := by
  -- Along the template: what builds it and how it is read are found together.
  induction template with
  | pair s first rest ihFirst ihRest =>
    by_cases hUnquote : first.mark? = some .unquote
    · cases eq_symbol_of_mark? hUnquote
      obtain ⟨expr, hOnly⟩ := Option.isSome_iff_exists.mp h
      obtain ⟨t, rfl⟩ := eq_of_only? hOnly
      exact ⟨⟨expr, .unquote s t expr⟩, .hole expr, rfl⟩
    · obtain ⟨operands, hSpliced, hOnly, hRest⟩ | ⟨hElement, hFirst, hRest⟩ :=
        isFlat_element hUnquote h
      · obtain ⟨expr, hOnly⟩ := Option.isSome_iff_exists.mp hOnly
        obtain ⟨t, rfl⟩ := eq_of_splicedOperands? hSpliced
        obtain ⟨u, rfl⟩ := eq_of_only? hOnly
        obtain ⟨⟨d, hBuilt⟩, t', hRead⟩ := ihRest hRest
        refine ⟨⟨_, .splice s t u expr hBuilt 0 0 0⟩, .splice expr t', ?_⟩
        rw [Template.read_spliced rfl hSpliced, hRead]
        rfl
      · obtain ⟨⟨d, hBuilt⟩, t, hRead⟩ := ihFirst hFirst
        obtain ⟨⟨d', hBuilt'⟩, t', hRead'⟩ := ihRest hRest
        exact ⟨⟨_, .element s hElement hBuilt hBuilt' 0 0 0⟩, .pair t t',
          hElement.read_eq hRead hRead'⟩
  | _ => exact ⟨⟨_, .leaf nofun ⟨0, 0, rfl⟩⟩, _, rfl⟩

/-! ## A quasiquote and the expression -/

/-- **List construction.** In a flat template there is no other quasiquote, and each operand is the
only one of its form. It is built by an expression made with `quote`, `cons` and `append`. As long
as `cons` and `append` stand for the built-in procedures wherever a part of the template is copied,
and everything that is spliced is a list, the quasiquote comes to the same answers as the
expression: the same value or error on the same machine, or to none as it does. The operands of the
template are evaluated from left to right, once each. -/
theorem quasiquote_is_construction {forms : FormTable} (hForms : forms.IsComplete)
    (hCons : forms.lookup "cons" = none) (hAppend : forms.lookup "append" = none)
    {template : Value} (hFlat : template.isFlat) :
    (∃ expr, template.BuiltBy expr) ∧
    (∀ expr env m s s', template.BuiltBy expr → template.Orderly forms env m → ∀ a,
      ComesTo (fun fuel => evaluate forms fuel
          (.pair s (.symbol "quasiquote") (.pair s' template .nil)) env) m a ↔
        ComesTo (fun fuel => evaluate forms fuel expr env) m a) ∧
    ∃ t, Template.read LevelMark.changeMade 1 template = some t ∧ ∀ env m s s' fuel,
      ∃ found, InTurn (runTask forms fuel) env t.operands m found ∧ t.Filled found
        (evaluate forms (fuel + 1)
          (.pair s (.symbol "quasiquote") (.pair s' template .nil)) env m) := by
  have hQuasiquote : ∀ env s s' fuel, evaluate forms (fuel + 1)
      (.pair s (.symbol "quasiquote") (.pair s' template .nil)) env =
        copying forms env template fuel :=
    fun env s s' fuel => evaluate_quasiquote (hForms .quasiquote) fuel s s'
  obtain ⟨hBuilt, t, hRead⟩ := exists_builtBy hFlat
  refine ⟨hBuilt, ?_, t, hRead, ?_⟩
  -- One more unit of fuel is for the quasiquote itself.
  · intro expr env m s s' hExpr hOrderly a
    rw [comesTo_succ_iff (x := fun fuel => evaluate forms fuel
      (.pair s (.symbol "quasiquote") (.pair s' template .nil)) env) rfl]
    simp only [hQuasiquote]
    exact copied_iff_built hForms hCons hAppend hExpr hOrderly a
  · intro env m s s' fuel
    rw [hQuasiquote, copying, Template.expandTemplate_eq_expand (Nat.le_refl 1) hRead]
    exact Template.expand_filled m

/-- The template of `(,#t ,@())` has one item left, as has `(cons #t (append () (quote ())))`. -/
theorem quasiquote_is_construction_spliced :
    let template : Value :=
      .pair 5 (.pair 4 (.symbol "unquote") (.pair 3 (.boolean true) .nil))
        (.pair 2 (.pair 1 (.symbol "unquote-splicing") (.pair 0 .nil .nil)) .nil)
    let rest : Value := .pair 9 (.symbol "append")
      (.pair 10 .nil (.pair 11 (Form.quote.use 12 (.pair 13 .nil .nil)) .nil))
    let expr : Value :=
      .pair 6 (.symbol "cons") (.pair 7 (.boolean true) (.pair 8 rest .nil))
    template.isFlat ∧ template.BuiltBy expr ∧ template.Orderly .standard 0 .populated ∧
      (∀ a, ComesTo (fun fuel => evaluate .standard fuel
          (.pair 15 (.symbol "quasiquote") (.pair 14 template .nil)) 0) .populated a ↔
        ComesTo (fun fuel => evaluate .standard fuel expr 0) .populated a) ∧
      ∃ v n, evaluate .standard 4 expr 0 .populated = .value v n ∧ v.items.length = 1 := by
  intro template rest expr
  have hElement : (Value.pair 4 (.symbol "unquote") (.pair 3 (.boolean true) .nil)).IsElement :=
    ⟨nofun, nofun, rfl⟩
  have hNil : ∀ s first rest, Value.nil ≠ .pair s first rest := nofun
  have hBuilt : template.BuiltBy expr :=
    .element 5 hElement (.unquote 4 3 _) (.splice 2 1 0 .nil (.leaf hNil ⟨12, 13, rfl⟩) 9 10 11)
      6 7 8
  have hInstalled : Machine.populated.Installed 0 "append" :=
    ⟨_, .plain "append" (.atLeast 0) .append, by decide +kernel, rfl, rfl⟩
  have hOrderly : template.Orderly .standard 0 .populated := by
    refine .element 5 hElement
      ⟨_, .plain "cons" (.exactly 2) .cons, by decide +kernel, rfl, rfl⟩ (.unquote 4 3 _ _) ?_
    -- the first operand is evaluated to itself
    rintro v n ⟨-, fuel, hFirst⟩
    cases fuel with
    | zero => cases hFirst
    | succ fuel =>
      cases hFirst
      refine .splice 2 1 0 hInstalled ?_ fun v n _ => .leaf n hNil
      rintro v n ⟨-, fuel, hValue⟩
      cases fuel with
      | zero => cases hValue
      | succ fuel =>
        cases hValue
        rfl
  have hFlat : template.isFlat := rfl
  obtain ⟨-, hSame, -⟩ :=
    quasiquote_is_construction FormTable.standard_isComplete rfl rfl hFlat
  exact ⟨hFlat, hBuilt, hOrderly, hSame expr 0 .populated 15 14 hBuilt hOrderly, _, _, rfl, rfl⟩

end MiniScheme
