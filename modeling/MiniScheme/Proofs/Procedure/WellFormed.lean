import MiniScheme.Eval.Special
import MiniScheme.Eval.Operation
import Mathlib.Data.List.Nodup

/-!
# Well-formed procedures

What the checks on the operands of a form, on a parameter list and on a count of
arguments leave for later to rely on.

* `Formals.parse_nodup` — the names of a parameter list that is read are different;
* `Value.isBody` — a list of expressions that is not empty, and
  `checkOperands_isBody`, `checkOperands_isBody_rest` — the operands of a form that
  must have some, and what follows the first of two;
* `Operation.reads` — how many arguments an operation looks at, and
  `Builtin.reads_le_of_standard` — the arities in the table of built-in procedures see
  to it that they are there;
* `Builtin.args_of_reflective` — those that take the environment leave no room for it
  to be anything else than the last argument.
-/

namespace MiniScheme

/-! ## Parameter lists -/

namespace Formals

variable {f g : Formals} {name : String}

/-- Declaring a name keeps the names different: one that is there already is refused. -/
theorem declare_nodup {seenMarker seenMarker' : Bool}
    (h : f.declare seenMarker name = .ok (g, seenMarker')) (hf : f.names.Nodup) :
    g.names.Nodup := by
  -- A name that is added stands somewhere among the others, and is not one of them.
  have hAdded : ∀ before after : List String, f.names = before ++ after → name ∉ f.names →
      (before ++ [name] ++ after).Nodup := by
    intro before after hEq hNew
    rw [List.append_assoc, List.singleton_append, List.nodup_middle, ← hEq]
    exact List.nodup_cons.mpr ⟨hNew, hf⟩
  -- The marker, which adds no name; then a required and an optional parameter.
  unfold declare at h
  split at h
  · split at h
    · cases h
    · cases h
      exact hf
  · split at h
    · cases h
    · rename_i hNew
      split at h
      · cases h
        have hNodup := hAdded (f.required ++ f.optional) f.rest.toList rfl hNew
        simpa [names, positional] using hNodup
      · cases h
        have hEq : f.names = f.required ++ (f.optional ++ f.rest.toList) := by
          simp [names, positional]
        have hNodup := hAdded f.required (f.optional ++ f.rest.toList) hEq hNew
        simpa [names, positional] using hNodup

/-- Declaring the rest parameter keeps the names different. -/
theorem declareRest_nodup (h : f.declareRest name = .ok g) (hf : f.names.Nodup) :
    g.names.Nodup := by
  unfold declareRest at h
  split at h
  · cases h
  · rename_i hNew
    cases h
    have hPositional : f.positional.Nodup := (List.nodup_append.mp hf).1
    have hNot : name ∉ f.positional := fun hMem => hNew (List.mem_append_left _ hMem)
    show (f.positional ++ [name]).Nodup
    rw [List.nodup_middle, List.append_nil]
    exact List.nodup_cons.mpr ⟨hNot, hPositional⟩

/-- Parsing on keeps the names different. -/
theorem parseOnto_nodup {v : Value} (f : Formals) (seenMarker : Bool) (hf : f.names.Nodup)
    (h : f.parseOnto seenMarker v = .ok g) : g.names.Nodup := by
  fun_induction parseOnto f seenMarker v with
  | case1 f seenMarker =>
    cases h
    exact hf
  | case2 f seenMarker name => exact declareRest_nodup h hf
  | case3 f seenMarker stamp name rest next seenMarker' hDeclare ih =>
    exact ih (declare_nodup hDeclare hf) h
  | case4 f seenMarker stamp name rest e hDeclare => cases h
  | case5 => cases h
  | case6 => cases h

/-- The names of a parameter list that is read are different from each other. -/
theorem parse_nodup {v : Value} (h : parse v = .ok f) : f.names.Nodup :=
  parseOnto_nodup .empty false List.nodup_nil h

end Formals

/-! ## Bodies -/

namespace Value

/-- A list of expressions that is not empty. -/
def isBody : Value → Bool
  | pair _ _ rest => rest.isList
  | _ => false

/-- Collecting items puts them behind those collected. -/
theorem itemsOnto_eq (v : Value) (collected : List Value) :
    v.itemsOnto collected = collected.reverse ++ v.items := by
  induction v generalizing collected with
  | pair stamp first rest ihFirst ihRest =>
    rw [items, itemsOnto, itemsOnto, ihRest, ihRest [first]]
    simp
  | _ => simp [items, itemsOnto]

theorem items_pair (stamp : Stamp) (first rest : Value) :
    (pair stamp first rest).items = first :: rest.items := by
  rw [items, itemsOnto, itemsOnto_eq]
  rfl

/-- A list that is not empty is a body. -/
theorem isBody_of_isList {v : Value} (hList : v.isList) (hSome : v ≠ nil) : v.isBody := by
  cases v with
  | pair stamp first rest => exact hList
  | atom a =>
    cases a with
    | nil => exact absurd rfl hSome
    | _ => cases hList
  | _ => cases hList

theorem isBody_of_items {v : Value} (hList : v.isList) (hSome : 1 ≤ v.items.length) : v.isBody := by
  cases v with
  | pair stamp first rest => exact hList
  | _ => simp [items, itemsOnto] at hSome

end Value

section Operands
variable {form : Form} {operands : Value} {min : Nat} {max : Option Nat} {items : List Value}

/-- Operands that pass the check are the items of a list, and enough of them. -/
theorem checkOperands_eq_ok (h : checkOperands form operands min max = .ok items) :
    operands.isList ∧ items = operands.items ∧ min ≤ items.length := by
  unfold checkOperands Value.toList? at h
  by_cases hList : operands.isList
  · simp only [hList, if_true] at h
    split at h
    · cases h
    · rename_i hEnough
      split at h
      · cases h
      · cases h
        exact ⟨hList, rfl, Nat.le_of_not_lt hEnough⟩
  · simp [hList] at h

/-- Operands of which there is at least one are a body. -/
theorem checkOperands_isBody (h : checkOperands form operands min max = .ok items)
    (hMin : 1 ≤ min) : operands.isBody := by
  obtain ⟨hList, rfl, hEnough⟩ := checkOperands_eq_ok h
  exact Value.isBody_of_items hList (Nat.le_trans hMin hEnough)

/-- Operands after the first are a body, if there are at least two in all. -/
theorem checkOperands_isBody_rest {stamp : Stamp} {first rest : Value}
    (h : checkOperands form (.pair stamp first rest) min max = .ok items) (hMin : 2 ≤ min) :
    rest.isBody := by
  obtain ⟨hList, rfl, hEnough⟩ := checkOperands_eq_ok h
  rw [Value.items_pair, List.length_cons] at hEnough
  exact Value.isBody_of_items hList (by omega)

/-- Operands after the first are a body, unless there are none. -/
theorem checkOperands_isBody_of_ne_nil {stamp : Stamp} {first rest : Value}
    (h : checkOperands form (.pair stamp first rest) min max = .ok items) (hSome : rest ≠ .nil) :
    rest.isBody := by
  obtain ⟨hList, -, -⟩ := checkOperands_eq_ok h
  exact Value.isBody_of_isList hList hSome

end Operands

/-! ## Built-in procedures -/

/-- How many arguments an operation looks at, at least. -/
def Operation.reads : Operation → Nat
  | add | multiply | compare _ | list | append | newline | raise => 0
  | subtract | divide | absolute | isZero | ask _ | first | rest | length | display | print => 1
  | quotient | remainder | modulo | identical | equal | cons | evaluate => 2
  | apply => 3

/-- The least count of arguments that is accepted. -/
def Arity.least : Arity → Nat
  | exactly n => n
  | atLeast n => n
  | between min _ => min

/-- A count that is accepted is at least the least. -/
theorem Arity.least_le {arity : Arity} {count : Nat} (h : arity.accepts count) :
    arity.least ≤ count := by
  cases arity with
  | exactly n => exact Nat.le_of_eq (of_decide_eq_true h).symm
  | atLeast n => exact of_decide_eq_true h
  | between min max =>
    rw [Arity.accepts, Bool.and_eq_true, decide_eq_true_eq] at h
    exact h.1

namespace Builtin

variable {b : Builtin}

/-- A procedure of the table accepts no count that is too small for its operation. -/
theorem reads_le_of_standard (h : b ∈ standard) {count : Nat} (hCount : b.arity.accepts count) :
    b.operation.reads ≤ count := by
  have hAll : ∀ b ∈ standard, b.operation.reads ≤ b.arity.least := by decide
  exact Nat.le_trans (hAll b h) (Arity.least_le hCount)

/-- A procedure of the table that does not take the environment does not use it. -/
theorem plain_of_standard (h : b ∈ standard) (hPlain : b.takesEnvironment = false) :
    b.operation ≠ .evaluate ∧ b.operation ≠ .apply := by
  have hAll : ∀ b ∈ standard, b.takesEnvironment = false →
      b.operation ≠ .evaluate ∧ b.operation ≠ .apply := by
    decide
  exact hAll b h hPlain

/-- A procedure of the table that takes the environment is one of two, and accepts
exactly one count. -/
theorem reflective_of_standard (h : b ∈ standard) (hTakes : b.takesEnvironment = true) :
    (b.operation = .evaluate ∧ b.arity = .exactly 2) ∨
      (b.operation = .apply ∧ b.arity = .exactly 3) := by
  have hAll : ∀ b ∈ standard, b.takesEnvironment = true →
      (b.operation = .evaluate ∧ b.arity = .exactly 2) ∨
        (b.operation = .apply ∧ b.arity = .exactly 3) := by
    decide
  exact hAll b h hTakes

/-- With the environment as the last argument, the arguments that come before it
are one expression, or a procedure and a list of arguments. -/
theorem args_of_reflective (h : b ∈ standard) (hTakes : b.takesEnvironment = true)
    {args : List Value} {env : FrameId}
    (hCount : b.arity.accepts (b.allArguments args env).length) :
    (b.operation = .evaluate ∧ ∃ expr, args = [expr]) ∨
      (b.operation = .apply ∧ ∃ procedure operands, args = [procedure, operands]) := by
  rw [allArguments, if_pos hTakes, List.length_append, List.length_singleton] at hCount
  obtain ⟨hOperation, hArity⟩ | ⟨hOperation, hArity⟩ := reflective_of_standard h hTakes
  · rw [hArity] at hCount
    have hLength : args.length + 1 = 2 := of_decide_eq_true hCount
    exact .inl ⟨hOperation, List.length_eq_one_iff.mp (by omega)⟩
  · rw [hArity] at hCount
    have hLength : args.length + 1 = 3 := of_decide_eq_true hCount
    exact .inr ⟨hOperation, List.length_eq_two.mp (by omega)⟩

end Builtin
end MiniScheme
