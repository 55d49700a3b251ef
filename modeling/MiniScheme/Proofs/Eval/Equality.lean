import MiniScheme.Proofs.Eval.OneWorld
import MiniScheme.Proofs.Value.Sharing

/-!
# Equality in a session

The values of a session have their places in one world. So what has been found about
equality and sharing in one world is true of all of them, wherever a program asks:

* `equality_structural_but_of_nan` — equality is that of the structure, except that a
  pair which holds a NaN is equal to itself;
* `shared_nan_equal` — such a pair, and a copy of it that is not equal to it.
-/

namespace MiniScheme

open Value (AllIn)

/-- **Equality does not depend on sharing, but for a NaN.** All that a session has made is
in one world. There two values have the same structure exactly if they are equal and hold no
NaN. So where one of them holds none, equality is equality of the structure; and between
copies that share no pair it always is. -/
theorem equality_structural_but_of_nan {m : Machine} {vs : List Value} (h : History m vs) :
    ∃ w, m.In w ∧ AllIn w vs ∧ ∀ v u : Value, v.In w → u.In w →
      v.structural u = (v.equal u && !v.holdsNaN) ∧
      (v.holdsNaN = false ∨ u.holdsNaN = false → v.equal u = v.structural u) ∧
      ∀ v' u', v.Rebuilt v' → u.Rebuilt u' → (∀ s ∈ v'.pairStamps, s ∉ u'.pairStamps) →
        v'.equal u' = v.structural u := by
  obtain ⟨w, -, hMachine, hValues⟩ := h.exists_world
  refine ⟨w, hMachine, hValues, fun v u hv hu => ⟨?_, ?_, ?_⟩⟩
  · exact Value.structural_eq hv hu
  · exact Value.equal_of_numbers hv hu
  · intro v' u' hv' hu' hApart
    exact Value.equal_of_rebuilt hv' hu' hApart

/-- `(a)` is read twice. The two lists have no pair in common, and they are equal. -/
theorem equality_structural_but_of_nan_read :
    let first : Value := .pair 38 (.symbol "a") .nil
    let second : Value := .pair 39 (.symbol "a") .nil
    ∃ m, History m [second, first] ∧ first.equal second = first.structural second ∧
      first.structural second = true := by
  intro first second
  let d : Datum := .pair (.atom (.symbol "a")) (.atom .nil)
  have h : History _ [second, first] := (History.start.read d).read d
  obtain ⟨w, -, hValues, hAll⟩ := equality_structural_but_of_nan h
  have hFirst : first.In w := hValues first (by simp)
  have hSecond : second.In w := hValues second (by simp)
  exact ⟨_, h, (hAll first second hFirst hSecond).2.1 (.inl rfl), by decide⟩

/-- `(list (- inf inf))` comes to a list that is equal to itself, though it has not the
structure of itself. The same expression once more comes to a copy of the list, and that is
not equal to it. -/
theorem shared_nan_equal :
    let nan : Value := .number (0.0 / 0.0)
    let list : Value := .pair 43 nan .nil
    let copy : Value := .pair 49 nan .nil
    (∃ m vs, History m vs ∧ list ∈ vs ∧ copy ∈ vs) ∧ list.Rebuilt copy ∧
      list.equal list = true ∧ list.structural list = false ∧ copy.equal list = false := by
  intro nan list copy
  let infinity : Datum := .atom (.number (1.0 / 0.0))
  let difference : Datum :=
    .pair (.atom (.symbol "-")) (.pair infinity (.pair infinity (.atom .nil)))
  let expr : Datum := .pair (.atom (.symbol "list")) (.pair difference (.atom .nil))
  let loaded := Machine.populated.load expr
  let before : Machine := { loaded.2 with nextStamp := 44 }
  let again := before.load expr
  -- The same expression twice: two lists with a NaN each, which are not the same pair.
  have hRun : evaluate .standard 4 loaded.1 0 loaded.2 = .value list before := rfl
  have hRun' : evaluate .standard 4 again.1 0 again.2 =
      .value copy { again.2 with nextStamp := 50 } := rfl
  have hList := (History.start.read expr).evaluated List.mem_cons_self (by decide) hRun
  have hCopy := (hList.read expr).evaluated List.mem_cons_self (by decide) hRun'
  refine ⟨⟨_, _, hCopy, by simp, by simp⟩, ?_, rfl, rfl, rfl⟩
  exact .pair (.refl nan) (.refl .nil)

end MiniScheme
