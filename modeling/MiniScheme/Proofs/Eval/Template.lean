import MiniScheme.Proofs.Eval.History
import Mathlib.Data.Option.NAry

/-!
# Templates

A template is a value in which quasiquotes open levels and unquotes close them. What is
unquoted at the first level is an operand: its value takes its place, or the items of its
value if it is spliced. Everything else is copied.

* `Template.read` — what a value asks for as a template;
* `InTurn`, `Template.Filled` — its operands are evaluated from left to right,
  and what comes of that;
* `Template.expandTemplate_eq_expand` — a quasiquote does so, except that an unquote-splicing which
  is kept does not close a level;
* `quasiquote_fills_template` — hence it does what the template asks for, as long as no
  unquote-splicing that is kept has marks in it.
-/

namespace MiniScheme

open Value Eval

/-! ## Marks and levels -/

/-- What opens and closes levels. -/
inductive LevelMark where
  | quasiquote
  | unquote
  | unquoteSplicing
  deriving DecidableEq

/-- The symbol of a mark. -/
def LevelMark.keyword : LevelMark → String
  | quasiquote => "quasiquote"
  | unquote => "unquote"
  | unquoteSplicing => "unquote-splicing"

/-- The change of level within a form: a quasiquote opens a level and the others close one. -/
def LevelMark.change : LevelMark → Int
  | quasiquote => 1
  | unquote => -1
  | unquoteSplicing => -1

/-- The change of level that is made: none within an unquote-splicing that is kept. -/
def LevelMark.changeMade : LevelMark → Int
  | quasiquote => 1
  | unquote => -1
  | unquoteSplicing => 0

namespace Value

/-- The mark that a symbol stands for. -/
def mark? : Value → Option LevelMark
  | symbol "quasiquote" => some .quasiquote
  | symbol "unquote" => some .unquote
  | symbol "unquote-splicing" => some .unquoteSplicing
  | _ => none

theorem mark?_keyword (mark : LevelMark) : (symbol mark.keyword).mark? = some mark := by
  cases mark <;> rfl

theorem eq_symbol_of_mark? {v : Value} {mark : LevelMark} (h : v.mark? = some mark) :
    v = symbol mark.keyword := by
  unfold mark? at h
  split at h <;> cases h <;> rfl

theorem ne_symbol_of_mark? {v : Value} (h : v.mark? = none) (mark : LevelMark) :
    v ≠ symbol mark.keyword := by
  rintro rfl
  rw [mark?_keyword] at h
  cases h

/-- Does some form in the value begin with a mark? -/
def hasMarks : Value → Bool
  | pair _ first rest => first.mark?.isSome || first.hasMarks || rest.hasMarks
  | _ => false

/-- The item of a list with one item. -/
def only? : Value → Option Value
  | pair _ item nil => some item
  | _ => none

end Value

/-! ## Reading templates -/

/-- An expression to be evaluated, for its value or for the items of its value. -/
structure Operand where
  expr : Value
  spliced : Bool

/-- What a value asks for as a template. -/
inductive Template where
  | kept (v : Value)
  | hole (expr : Value)
  | pair (first rest : Template)
  | splice (expr : Value) (rest : Template)

namespace Template

/-- The operands, from left to right. -/
def operands : Template → List Operand
  | kept _ => []
  | hole expr => [⟨expr, false⟩]
  | pair first rest => first.operands ++ rest.operands
  | splice expr rest => ⟨expr, true⟩ :: rest.operands

/-- The value with nothing to be evaluated. -/
def copy : Value → Template
  | .pair _ first rest => pair (copy first) (copy rest)
  | v => kept v

/-- The template that a value is at a level. An operand must be the only one of its form. -/
def read (change : LevelMark → Int) (level : Int) : Value → Option Template
  | .pair _ first rest =>
    match first.mark? with
    | some mark =>
      if mark = .unquote ∧ level = 1 then rest.only?.map hole
      else (read change (level + change mark) rest).map (pair (kept first))
    | none =>
      match if level = 1 then splicedOperands? first else none with
      | some operands => Option.map₂ splice operands.only? (read change level rest)
      | none => Option.map₂ pair (read change level first) (read change level rest)
  | v => some (kept v)

section Equations
variable {change : LevelMark → Int} {level : Int} {s : Stamp} {first rest operands : Value}

/-- A form that is kept. -/
theorem read_kept {mark : LevelMark} (h : mark = .unquote → level ≠ 1) :
    read change level (.pair s (.symbol mark.keyword) rest) =
      (read change (level + change mark) rest).map (pair (kept (.symbol mark.keyword))) := by
  rw [read, mark?_keyword]
  exact if_neg fun hUnquote => h hUnquote.1 hUnquote.2

/-- A spliced element outside of inner templates is read as a splice before the rest. -/
theorem read_spliced (hMark : first.mark? = none) (hSome : splicedOperands? first = some operands) :
    read change 1 (.pair s first rest) =
      Option.map₂ splice operands.only? (read change 1 rest) := by
  simp only [read, hMark, if_true, hSome]

/-- Any other element is read part by part. -/
theorem read_element (hMark : first.mark? = none)
    (h : level = 1 → splicedOperands? first = none) :
    read change level (.pair s first rest) =
      Option.map₂ pair (read change level first) (read change level rest) := by
  have hNone : (if level = 1 then splicedOperands? first else none) = none := by
    split
    · exact h ‹_›
    · rfl
  simp only [read, hMark, hNone]

end Equations

/-- Do the unquote-splicings that are kept have no marks in them? -/
def splicesPlainly (level : Int) : Value → Bool
  | .pair _ first rest =>
    match first.mark? with
    | some .unquoteSplicing => !rest.hasMarks
    | some mark => (mark = .unquote && level = 1) || splicesPlainly (level + mark.change) rest
    | none =>
      ((level = 1 && (splicedOperands? first).isSome) || splicesPlainly level first) &&
        splicesPlainly level rest
  | _ => true

end Template

/-! ## Filling templates -/

/-- The value of an operand. What is spliced must be a list. -/
def Operand.eval (run : Runner) (env : FrameId) (operand : Operand) : Eval Value := do
  let v ← run (.eval operand.expr env)
  if operand.spliced && !v.isList then
    Eval.fail (.typeMismatch Form.unquoteSplicing.keyword .list v.text)
  else return v

/-- Nothing but stamps has been given out. -/
def Machine.StampsTo (m n : Machine) : Prop :=
  m.nextStamp ≤ n.nextStamp ∧ n = { m with nextStamp := n.nextStamp }

/-- What is done with a value. -/
def Answer.map {α β : Type} (f : α → β) : Answer α → Answer β
  | .value a m => .value (f a) m
  | .failure e m => .failure e m
  | .outOfFuel => .outOfFuel

theorem Answer.map_nil_append {α : Type} (a : Answer (List α)) : a.map ([] ++ ·) = a := by
  cases a <;> rfl

theorem Answer.map_cons_append {α : Type} (x : α) (xs : List α) (a : Answer (List α)) :
    a.map (x :: xs ++ ·) = (a.map (xs ++ ·)).map (x :: ·) := by
  cases a <;> rfl

/-- The operands are evaluated in turn, and nothing else is done but making pairs. The
values are those up to the first failure. -/
inductive InTurn (run : Runner) (env : FrameId) :
    List Operand → Machine → Answer (List Value) → Prop
  | done {m n : Machine} (h : m.StampsTo n) : InTurn run env [] m (.value [] n)
  | value {operand : Operand} {operands : List Operand} {m m₁ m₂ : Machine} {v : Value}
      {found : Answer (List Value)} (h : m.StampsTo m₁)
      (hOne : operand.eval run env m₁ = .value v m₂) (hMore : InTurn run env operands m₂ found) :
      InTurn run env (operand :: operands) m (found.map (v :: ·))
  | failure {operand : Operand} {operands : List Operand} {m m₁ n : Machine} {e : EvalError}
      (h : m.StampsTo m₁) (hOne : operand.eval run env m₁ = .failure e n) :
      InTurn run env (operand :: operands) m (.failure e n)
  | outOfFuel {operand : Operand} {operands : List Operand} {m m₁ : Machine}
      (h : m.StampsTo m₁) (hOne : operand.eval run env m₁ = .outOfFuel) :
      InTurn run env (operand :: operands) m .outOfFuel

namespace Template

/-- The value is the template with the values of its operands put in. Its pairs are new. -/
inductive Fills : Template → List Value → Value → Prop
  | kept (v : Value) : Fills (kept v) [] v
  | hole (expr v : Value) : Fills (hole expr) [v] v
  | pair {first rest : Template} {vs ws : List Value} {v w : Value} (hFirst : Fills first vs v)
      (hRest : Fills rest ws w) (s : Stamp) : Fills (pair first rest) (vs ++ ws) (.pair s v w)
  | splice {rest : Template} {ws : List Value} {w : Value} (expr v : Value)
      (hRest : Fills rest ws w) (s : Stamp) :
      Fills (splice expr rest) (v :: ws) (.chain s v.items w)

/-- The template is filled with the values of its operands, unless there has been a failure. -/
inductive Filled (t : Template) : Answer (List Value) → Answer Value → Prop
  | value {vs : List Value} {v : Value} {m : Machine} (h : t.Fills vs v) :
      Filled t (.value vs m) (.value v m)
  | failure {e : EvalError} {m : Machine} : Filled t (.failure e m) (.failure e m)
  | outOfFuel : Filled t .outOfFuel .outOfFuel

/-- Makes the value that a template asks for. -/
def expand (run : Runner) (env : FrameId) : Template → Eval Value
  | kept v => pure v
  | hole expr => Operand.eval run env ⟨expr, false⟩
  | pair first rest => do
    let first ← first.expand run env
    let rest ← rest.expand run env
    Eval.makePair first rest
  | splice expr rest => do
    let v ← Operand.eval run env ⟨expr, true⟩
    let rest ← rest.expand run env
    Eval.makeChain v.items rest

end Template

/-! ## Levels -/

variable {v operands : Value} {t : Template} {run : Runner} {env : FrameId}

theorem splicedOperands?_of_no_marks (h : v.hasMarks = false) : splicedOperands? v = none := by
  unfold splicedOperands?
  split
  · cases h
  · rfl

namespace Template

/-- Without marks there is nothing to be evaluated, at whatever level. -/
theorem read_of_no_marks (change : LevelMark → Int) (level : Int) (h : v.hasMarks = false) :
    read change level v = some (copy v) := by
  induction v with
  | pair s first rest ihFirst ihRest =>
    simp only [hasMarks, Bool.or_eq_false_iff, Option.isSome_eq_false_iff,
      Option.isNone_iff_eq_none] at h
    obtain ⟨⟨hMark, hFirst⟩, hRest⟩ := h
    rw [read_element hMark fun _ => splicedOperands?_of_no_marks hFirst, ihFirst hFirst,
      ihRest hRest]
    rfl
  | _ => rfl

/-- The levels that are counted are those that are asked for, as long as no
unquote-splicing that is kept has marks in it. -/
theorem read_changeMade {level : Int} (h : splicesPlainly level v) :
    read LevelMark.changeMade level v = read LevelMark.change level v := by
  -- The level is not fixed: what stands in a form is at another one.
  induction v generalizing level with
  | pair s first rest ihFirst ihRest =>
    unfold splicesPlainly at h
    cases hMark : first.mark? with
    | some mark =>
      rw [hMark] at h
      cases eq_symbol_of_mark? hMark
      by_cases hUnquoted : mark = .unquote ∧ level = 1
      · -- the operand is not looked into
        obtain ⟨rfl, rfl⟩ := hUnquoted
        rfl
      · have hKept : mark = .unquote → level ≠ 1 := fun hMark hLevel => hUnquoted ⟨hMark, hLevel⟩
        rw [read_kept hKept, read_kept hKept]
        cases mark with
        | unquoteSplicing =>
          -- there is nothing to be evaluated in it
          have hRest : rest.hasMarks = false := by simpa using h
          rw [read_of_no_marks _ _ hRest, read_of_no_marks _ _ hRest]
        | quasiquote =>
          have hRest : splicesPlainly (level + 1) rest = true := by simpa [LevelMark.change] using h
          exact congrArg _ (ihRest hRest)
        | unquote =>
          have hRest : splicesPlainly (level + -1) rest = true := by
            simpa [LevelMark.change, hKept rfl] using h
          exact congrArg _ (ihRest hRest)
    | none =>
      rw [hMark] at h
      obtain ⟨hFirst, hRest⟩ := Bool.and_eq_true_iff.mp h
      by_cases hSplice : level = 1 ∧ splicedOperands? first ≠ none
      · obtain ⟨rfl, hSome⟩ := hSplice
        obtain ⟨operands, hSome⟩ := Option.ne_none_iff_exists'.mp hSome
        rw [read_spliced hMark hSome, read_spliced hMark hSome, ihRest hRest]
      · have hElement : level = 1 → splicedOperands? first = none :=
          fun hOne => by_contra fun hSome => hSplice ⟨hOne, hSome⟩
        have hFirst : splicesPlainly level first = true := by
          obtain hSome | hFirst := Bool.or_eq_true_iff.mp hFirst
          · obtain ⟨hOne, hSome⟩ := Bool.and_eq_true_iff.mp hSome
            rw [hElement (of_decide_eq_true hOne)] at hSome
            cases hSome
          · exact hFirst
        rw [read_element hMark hElement, read_element hMark hElement, ihFirst hFirst, ihRest hRest]
  | _ => rfl

end Template

/-! ## Expanding templates -/

/-- A single operand is the only one. -/
theorem onlyOperand_of_only? (form : Form) (h : operands.only? = some v) :
    onlyOperand form operands = .ok v := by
  unfold only? at h
  split at h
  · cases h
    rfl
  · cases h

namespace Template

theorem expand_hole (expr : Value) : (hole expr).expand run env = run (.eval expr env) := by
  funext m
  simp only [expand, Operand.eval, Bind.bind, Eval.bind, Bool.false_and]
  cases run (.eval expr env) m <;> rfl

/-- A splice is evaluated to a list, which goes before what the rest expands to. -/
theorem expand_splice (expr : Value) (rest : Template) :
    (splice expr rest).expand run env = (do
      let v ← run (.eval expr env)
      match v.toList? with
      | none => Eval.fail (.typeMismatch Form.unquoteSplicing.keyword .list v.text)
      | some items => do
        let rest ← rest.expand run env
        Eval.makeChain items rest) := by
  simp only [expand, Operand.eval, bind_assoc]
  congr 1
  funext v
  cases hList : v.isList with
  | true => simp [toList?, hList]
  | false =>
    simp [toList?, hList]
    rfl

/-- A quasiquote makes the value that the template asks for, by the levels it counts. -/
theorem expandTemplate_eq_expand {level : Nat} (hLevel : 1 ≤ level)
    (h : read LevelMark.changeMade level v = some t) :
    expandTemplate run env level v = t.expand run env := by
  -- From the first level on the count is never below one, as an unquote at the first level is
  -- evaluated and not looked into.
  induction v generalizing level t with
  | pair s first rest ihFirst ihRest =>
    cases hMark : first.mark? with
    | some mark =>
      cases eq_symbol_of_mark? hMark
      by_cases hUnquoted : mark = .unquote ∧ level = 1
      · obtain ⟨rfl, rfl⟩ := hUnquoted
        obtain ⟨expr, hOnly, rfl⟩ := Option.map_eq_some_iff.mp h
        rw [expand_hole]
        show (Eval.ofExcept (onlyOperand .unquote rest) >>= fun operand => _) = _
        rw [onlyOperand_of_only? _ hOnly]
        rfl
      · have hKept : mark = .unquote → (level : Int) ≠ 1 := by
          rintro rfl hOne
          exact hUnquoted ⟨rfl, by omega⟩
        rw [read_kept hKept] at h
        -- the form is kept, and what stands in it is at the level that the mark makes
        obtain ⟨t, hRead, rfl⟩ := Option.map_eq_some_iff.mp h
        have hPair : (pair (kept (symbol mark.keyword)) t).expand run env =
            t.expand run env >>= fun rest => Eval.makePair (symbol mark.keyword) rest := rfl
        rw [hPair]
        cases mark with
        | quasiquote =>
          rw [← ihRest (Nat.le_add_left 1 level) hRead]
          rfl
        | unquote =>
          match level with
          | 1 => exact absurd rfl (hKept rfl)
          | outer + 2 =>
            have hLess : ((outer + 2 : Nat) : Int) + LevelMark.changeMade .unquote =
                ((outer + 1 : Nat) : Int) := by
              simp only [LevelMark.changeMade]
              omega
            rw [hLess] at hRead
            rw [← ihRest (Nat.le_add_left 1 outer) hRead]
            rfl
        | unquoteSplicing =>
          -- its symbol is copied as any other element of a list is
          rw [LevelMark.changeMade, Int.add_zero] at hRead
          rw [← ihRest hLevel hRead, expandTemplate_element]
          · rfl
          · decide
          · decide
          · exact fun _ => rfl
    | none =>
      by_cases hSplice : level = 1 ∧ splicedOperands? first ≠ none
      · obtain ⟨rfl, hSome⟩ := hSplice
        obtain ⟨operands, hSome⟩ := Option.ne_none_iff_exists'.mp hSome
        replace h : read LevelMark.changeMade 1 (.pair s first rest) = some t := h
        rw [read_spliced hMark hSome] at h
        obtain ⟨expr, rest', hOnly, hRest, rfl⟩ := Option.map₂_eq_some_iff.mp h
        rw [expandTemplate_spliced hSome, onlyOperand_of_only? _ hOnly, expand_splice,
          ihRest hLevel hRest]
        rfl
      · have hElement : level = 1 → splicedOperands? first = none :=
          fun hOne => by_contra fun hSome => hSplice ⟨hOne, hSome⟩
        rw [read_element hMark fun hOne => hElement (by omega)] at h
        obtain ⟨first', rest', hFirst, hRest, rfl⟩ := Option.map₂_eq_some_iff.mp h
        rw [expandTemplate_element (ne_symbol_of_mark? hMark .unquote)
          (ne_symbol_of_mark? hMark .quasiquote) hElement, ihFirst hLevel hFirst,
          ihRest hLevel hRest]
        rfl
  | _ =>
    cases h
    rfl

end Template

/-! ## Filling templates in turn -/

namespace Machine.StampsTo

variable {m n k : Machine}

theorem refl (m : Machine) : m.StampsTo m := ⟨Nat.le_refl _, rfl⟩

theorem trans (h : m.StampsTo n) (h' : n.StampsTo k) : m.StampsTo k := by
  refine ⟨Nat.le_trans h.1 h'.1, ?_⟩
  rw [h'.2, h.2]

theorem chain (m : Machine) (vs : List Value) (tail : Value) : m.StampsTo (m.chain vs tail).2 :=
  ⟨Nat.le_add_right _ _, rfl⟩

end Machine.StampsTo

namespace InTurn

variable {before after : List Operand} {m n k : Machine} {vs : List Value}
  {found : Answer (List Value)}

/-- The operands are found in turn also when other stamps have been taken before. -/
theorem of_stamps (hStamps : m.StampsTo n) (h : InTurn run env after n found) :
    InTurn run env after m found := by
  cases h with
  | done h => exact .done (hStamps.trans h)
  | value h hOne hMore => exact .value (hStamps.trans h) hOne hMore
  | failure h hOne => exact .failure (hStamps.trans h) hOne
  | outOfFuel h hOne => exact .outOfFuel (hStamps.trans h) hOne

/-- More operands after those that give values. -/
theorem append (h : InTurn run env before m (.value vs n)) (h' : InTurn run env after n found) :
    InTurn run env (before ++ after) m (found.map (vs ++ ·)) := by
  generalize hFound : Answer.value vs n = answer at h
  induction h generalizing vs with
  | done hStamps =>
    cases hFound
    rw [Answer.map_nil_append]
    exact h'.of_stamps hStamps
  | @value operand operands m m₁ m₂ v found₁ hStamps hOne hMore ih =>
    cases found₁ with
    | value ws k =>
      cases hFound
      rw [Answer.map_cons_append]
      exact .value hStamps hOne (ih rfl)
    | _ => cases hFound
  | failure hStamps hOne => cases hFound
  | outOfFuel hStamps hOne => cases hFound

/-- No operands count after one that gives no value. -/
theorem stopped (h : InTurn run env before m found) (hStop : ∀ vs n, found ≠ .value vs n) :
    InTurn run env (before ++ after) m found := by
  induction h with
  | done hStamps => exact absurd rfl (hStop _ _)
  | @value operand operands m m₁ m₂ v found₁ hStamps hOne hMore ih =>
    refine .value hStamps hOne (ih ?_)
    rintro vs n rfl
    exact hStop _ _ rfl
  | failure hStamps hOne => exact .failure hStamps hOne
  | outOfFuel hStamps hOne => exact .outOfFuel hStamps hOne

/-- Pairs may be made afterwards. -/
theorem stamped (h : InTurn run env before m (.value vs n)) (hStamps : n.StampsTo k) :
    InTurn run env before m (.value vs k) := by
  have hEnd := h.append (.done hStamps)
  rwa [List.append_nil, Answer.map, List.append_nil] at hEnd

/-- Where all the operands have values, the first has one, and the others have theirs after it. -/
theorem first_value {operand : Operand} (h : InTurn run env (operand :: after) m (.value vs n)) :
    ∃ v m₁ m₂ ws, operand.eval run env m₁ = .value v m₂ ∧ vs = v :: ws := by
  generalize hFound : Answer.value vs n = found at h
  cases h with
  | @value _ _ _ m₁ m₂ v found hStamps hOne hMore =>
    cases found with
    | value ws k =>
      cases hFound
      exact ⟨v, m₁, m₂, ws, hOne, rfl⟩
    | _ => cases hFound
  | failure hStamps hOne => cases hFound
  | outOfFuel hStamps hOne => cases hFound

end InTurn

/-- What a template asks for is made in turn. -/
theorem Template.expand_filled (m : Machine) :
    ∃ found, InTurn run env t.operands m found ∧ t.Filled found (t.expand run env m) := by
  -- The machine is not fixed: the rest is made where the first part has left it.
  induction t generalizing m with
  | kept v => exact ⟨.value [] m, .done (.refl m), .value (.kept v)⟩
  | hole expr =>
    simp only [expand]
    cases hOne : Operand.eval run env ⟨expr, false⟩ m with
    | value v n =>
      exact ⟨.value [v] n, .value (.refl m) hOne (.done (.refl n)), .value (.hole expr v)⟩
    | failure e n => exact ⟨.failure e n, .failure (.refl m) hOne, .failure⟩
    | outOfFuel => exact ⟨.outOfFuel, .outOfFuel (.refl m) hOne, .outOfFuel⟩
  | pair first rest ihFirst ihRest =>
    simp only [expand, Bind.bind, Eval.bind]
    obtain ⟨found, hTurn, hFilled⟩ := ihFirst m
    generalize first.expand run env m = answer at hFilled
    cases hFilled with
    | @value vs v n hFills =>
      obtain ⟨found, hTurn', hFilled⟩ := ihRest n
      have hBoth := hTurn.append hTurn'
      dsimp only
      generalize rest.expand run env n = answer at hFilled
      cases hFilled with
      | @value ws w k hFills' =>
        exact ⟨.value (vs ++ ws) _, hBoth.stamped (.chain k [v] w), .value (.pair hFills hFills' _)⟩
      | failure => exact ⟨_, hBoth, .failure⟩
      | outOfFuel => exact ⟨_, hBoth, .outOfFuel⟩
    | failure => exact ⟨_, hTurn.stopped (by simp), .failure⟩
    | outOfFuel => exact ⟨_, hTurn.stopped (by simp), .outOfFuel⟩
  | splice expr rest ihRest =>
    simp only [expand, Bind.bind, Eval.bind]
    cases hOne : Operand.eval run env ⟨expr, true⟩ m with
    | value v n =>
      obtain ⟨found, hTurn, hFilled⟩ := ihRest n
      have hBoth : InTurn run env (splice expr rest).operands m (found.map (v :: ·)) :=
        .value (.refl m) hOne hTurn
      dsimp only
      generalize rest.expand run env n = answer at hFilled
      cases hFilled with
      | @value ws w k hFills =>
        exact ⟨.value (v :: ws) _, hBoth.stamped (.chain k v.items w),
          .value (.splice expr v hFills _)⟩
      | failure => exact ⟨_, hBoth, .failure⟩
      | outOfFuel => exact ⟨_, hBoth, .outOfFuel⟩
    | failure e n => exact ⟨.failure e n, .failure (.refl m) hOne, .failure⟩
    | outOfFuel => exact ⟨.outOfFuel, .outOfFuel (.refl m) hOne, .outOfFuel⟩

/-- A quasiquote copies its template at the first level. -/
theorem evaluate_quasiquote {forms : FormTable}
    (hForm : forms.lookup "quasiquote" = some .quasiquote) (fuel : Nat) (s s' : Stamp) :
    evaluate forms (fuel + 1) (.pair s (.symbol "quasiquote") (.pair s' v .nil)) env =
      expandTemplate (runTask forms fuel) env 1 v := by
  funext m
  have hStep : Task.step forms (runTask forms fuel)
      (.eval (.pair s (.symbol "quasiquote") (.pair s' v .nil)) env) =
        finished (expandTemplate (runTask forms fuel) env 1 v) := by
    simp only [Task.step, step, toList?, isList, hForm]
    rfl
  rw [evaluate, runTask_succ, hStep]
  simp only [finished, Bind.bind, Eval.bind]
  cases expandTemplate (runTask forms fuel) env 1 v m <;> rfl

/-- **Quasiquotation.** The operands at the first level of a template are evaluated from
left to right, once each. Their values, or the items of their values, take their places in
a copy of the template. The level of a form is one more than there are quasiquotes around
it, less the unquotes and unquote-splicings, as long as no unquote-splicing that is kept has
marks in it. -/
theorem quasiquote_fills_template {forms : FormTable}
    (hForm : forms.lookup "quasiquote" = some .quasiquote) {v : Value} {t : Template}
    (hRead : Template.read LevelMark.change 1 v = some t) (hPlain : Template.splicesPlainly 1 v)
    (fuel : Nat) (env : FrameId) (m : Machine) (s s' : Stamp) :
    ∃ found, InTurn (runTask forms fuel) env t.operands m found ∧ t.Filled found
      (evaluate forms (fuel + 1) (.pair s (.symbol "quasiquote") (.pair s' v .nil)) env m) := by
  rw [← Template.read_changeMade hPlain] at hRead
  rw [evaluate_quasiquote hForm, Template.expandTemplate_eq_expand (Nat.le_refl 1) hRead]
  exact Template.expand_filled m

/-- In `` (,#t `(a ,(b ,#f)) ,@()) `` there are three operands. The second one is in an unquote
that is kept, which closes the level that the inner quasiquote opens. -/
theorem quasiquote_fills_template_nested :
    let unquoted : Datum → Datum := fun d => .ofList [.symbol "unquote", d] .nil
    let kept : Datum := unquoted (.ofList [.symbol "b", unquoted (.atom (.boolean false))] .nil)
    let d : Datum := .ofList [unquoted (.atom (.boolean true)),
      .ofList [.symbol "quasiquote", .ofList [.symbol "a", kept] .nil] .nil,
      .ofList [.symbol "unquote-splicing", .nil] .nil] .nil
    let v := (Machine.populated.load d).1
    let m := (Machine.populated.load d).2
    FormTable.standard.lookup "quasiquote" = some .quasiquote ∧ Template.splicesPlainly 1 v ∧
      ∃ t, Template.read LevelMark.change 1 v = some t ∧
        t.operands = [⟨.boolean true, false⟩, ⟨.boolean false, false⟩, ⟨.nil, true⟩] ∧
        (∃ w n, evaluate .standard 4 (.pair 1 (.symbol "quasiquote") (.pair 0 v .nil)) 0 m =
          .value w n ∧ w.text = "(#t (quasiquote (a (unquote (b #f)))))") ∧
        ∃ found, InTurn (runTask .standard 3) 0 t.operands m found ∧ t.Filled found
          (evaluate .standard 4 (.pair 1 (.symbol "quasiquote") (.pair 0 v .nil)) 0 m) := by
  intro unquoted kept d v m
  have hPlain : Template.splicesPlainly 1 v := by decide
  obtain ⟨t, hRead, hOperands⟩ : ∃ t, Template.read LevelMark.change 1 v = some t ∧
      t.operands = [⟨.boolean true, false⟩, ⟨.boolean false, false⟩, ⟨.nil, true⟩] := ⟨_, rfl, rfl⟩
  refine ⟨rfl, hPlain, t, hRead, hOperands, ⟨_, _, rfl, rfl⟩, ?_⟩
  exact quasiquote_fills_template rfl hRead hPlain 3 0 m 1 0

/-- In `` `,@,'a `` as a template the operand `'a` is at the first level, as there are two marks
within the quasiquote. It is not evaluated: the level is lowered by one of the two only. -/
theorem quasiquote_leaves_operand :
    let v : Value :=
      .pair 9 (.symbol "quasiquote") (.pair 8
        (.pair 7 (.symbol "unquote-splicing") (.pair 6
          (.pair 5 (.symbol "unquote") (.pair 4
            (.pair 3 (.symbol "quote") (.pair 2 (.symbol "a") .nil)) .nil)) .nil)) .nil)
    ∃ t, Template.read LevelMark.change 1 v = some t ∧
      ¬ ∃ found, InTurn (runTask .standard 3) 0 t.operands .populated found ∧ t.Filled found
        (evaluate .standard 4 (.pair 1 (.symbol "quasiquote") (.pair 0 v .nil)) 0 .populated) := by
  intro v
  refine ⟨_, rfl, ?_⟩
  rintro ⟨found, hTurn, hFilled⟩
  -- the form of the operand is still there
  obtain ⟨s₁, s₂, s₃, s₄, s₅, rest, n, hEnd⟩ : ∃ s₁ s₂ s₃ s₄ s₅ rest n,
      evaluate .standard 4 (.pair 1 (.symbol "quasiquote") (.pair 0 v .nil)) 0 .populated =
        .value (.pair s₁ (.symbol "quasiquote") (.pair s₂
          (.pair s₃ (.symbol "unquote-splicing") (.pair s₄
            (.pair s₅ (.symbol "unquote") rest) .nil)) .nil)) n :=
    ⟨_, _, _, _, _, _, _, rfl⟩
  rw [hEnd] at hFilled
  cases hFilled with
  | value hFills =>
    cases hFills with
    | pair hHead hRest =>
    cases hRest with
    | pair hForm hNil =>
    cases hForm with
    | pair hHead' hRest =>
    cases hRest with
    | pair hHole hNil' =>
    cases hHead
    cases hHead'
    cases hHole
    obtain ⟨v, m₁, m₂, vs, hOne, hValues⟩ := hTurn.first_value
    -- but the value of the operand is the symbol
    cases hValues
    cases hOne

end MiniScheme
