import MiniScheme.Proofs.Eval.TwoRuns
import MiniScheme.Proofs.Machine.World

/-!
# A run that is ahead

When one of two runs makes something that the other one does without, it is ahead of it by some
stamps from then on. Nothing else tells the two machines apart, and so whatever both do next
they do alike. The two may still report the same mistake in different words.

* `Correspondence.ahead` — the stamps that belong together when one run is ahead;
* `Value.In.alike_ahead`, `Machine.In.matches_ahead` — what was there before is the same;
* `Answer.AgreesBut`, `Eval.AgreesBut` — the same end, or related errors on machines that match;
* `AgreesBut.bind` — one computation after another.
-/

namespace MiniScheme

open Value (AllIn AllAlike)

/-! ## Some stamps ahead -/

/-- The second run has given out so many stamps more, and `next` was the first of them. -/
def Correspondence.ahead (next : Stamp) (count : Nat) : Correspondence where
  frame _ := True
  stamp s t := s < next ∧ t = s ∨ next ≤ s ∧ t = s + count
  stamp_iff := by
    intro s t s' t' h h'
    simp only [Stamp] at *
    omega

/-- What has been given out comes before what has not. -/
theorem World.FreeFrom.lt_of_holder {w : World} {next s : Stamp} {v : Value}
    (h : w.FreeFrom next) (hHolder : w.holder s = some v) : s < next := by
  by_contra hNot
  rw [h s (Nat.le_of_not_lt hNot)] at hHolder
  cases hHolder

section Ahead
variable {w : World} {v : Value} {vs : List Value} {next : Stamp}

/-- A value of the world corresponds to itself, however many stamps one run is ahead: none of its
stamps is free. -/
theorem Value.In.alike_ahead (h : v.In w) (hFree : w.FreeFrom next) (count : Nat) :
    v.Alike (.ahead next count) v := by
  have hOld : ∀ {s u}, w.holder s = some u → (Correspondence.ahead next count).stamp s s :=
    fun hHolder => .inl ⟨hFree.lt_of_holder hHolder, rfl⟩
  have hKind : ∀ kind, (Correspondence.ahead next count).Sees kind := by
    intro kind
    cases kind <;> trivial
  induction h with
  | atom h => exact .atom _
  | undefined => exact .undefined
  | pair hHolder hFirst hRest ihFirst ihRest => exact .pair (hOld hHolder) ihFirst ihRest
  | builtin hHolder => exact .builtin (hOld hHolder) _
  | compound hHolder hNames hBody ih => exact .compound (hOld hHolder) (hKind _) ih
  | environment id => exact .environment trivial

theorem Value.AllIn.alike_ahead (h : AllIn w vs) (hFree : w.FreeFrom next) (count : Nat) :
    AllAlike (.ahead next count) vs vs :=
  List.forall₂_same.mpr fun v hMem => (h v hMem).alike_ahead hFree count

/-- A machine matches the one that has given out some stamps more. -/
theorem Machine.In.matches_ahead {m : Machine} (h : m.In w) (count : Nat) :
    m.Matches (.ahead m.nextStamp count) { m with nextStamp := m.nextStamp + count } where
  size_eq := rfl
  output_eq := rfl
  stamps := by
    intro k
    refine .inr ⟨Nat.le_add_right _ _, ?_⟩
    exact Nat.add_right_comm m.nextStamp count k
  unmade_seen _ _ := trivial
  frames := by
    intro id _
    cases hFrame : m.frame? id with
    | none => exact .inl ⟨rfl, hFrame⟩
    | some f =>
      refine .inr ⟨f, f, rfl, hFrame, rfl, fun _ _ => trivial, ?_⟩
      -- what is bound was made before, so its stamps come before the next one
      refine List.forall₂_same.mpr fun b hMem => ⟨rfl, ?_⟩
      exact (h.bound id f hFrame b.1 b.2 hMem).2.alike_ahead h.free count

end Ahead

/-! ## The same end but for the words -/

variable {c : Correspondence} {α β α' β' : Type}

/-- The answers agree, or they are errors that may differ so, on machines that match. -/
inductive Answer.AgreesBut (c : Correspondence) (r : α → β → Prop)
    (differ : EvalError → EvalError → Prop) (m : Machine) : Answer α → Answer β → Prop
  | same {a : Answer α} {b : Answer β} (h : a.Agrees c r m b) : AgreesBut c r differ m a b
  | differ {e e' : EvalError} {n n' : Machine} (h : differ e e') (hMatches : n.Matches c n')
      (hKeeps : m.Keeps c n) : AgreesBut c r differ m (.failure e n) (.failure e' n')

namespace Eval

/-- On machines that match the computations have the same answer but for errors that may
differ so. -/
def AgreesBut (c : Correspondence) (r : α → β → Prop) (differ : EvalError → EvalError → Prop)
    (x : Eval α) (y : Eval β) : Prop :=
  ∀ m m', m.Matches c m' → (x m).AgreesBut c r differ m (y m')

variable {r : α → β → Prop} {r' : α' → β' → Prop} {differ : EvalError → EvalError → Prop}
  {x : Eval α} {y : Eval β} {f : α → Eval α'} {g : β → Eval β'}

theorem Agrees.but (h : Agrees c r x y) : AgreesBut c r differ x y :=
  fun m m' hm => .same (h m m' hm)

/-- Computations that agree but for some errors, followed by such, agree but for these errors one
after the other. -/
theorem AgreesBut.bind (hx : AgreesBut c r differ x y)
    (hf : ∀ a b, r a b → AgreesBut c r' differ (f a) (g b)) :
    AgreesBut c r' differ (x >>= f) (y >>= g) := by
  intro m m' hm
  have hFirst := hx m m' hm
  simp only [Bind.bind, Eval.bind]
  generalize x m = a, y m' = b at hFirst
  -- Only after two values is there anything left to do.
  cases hFirst with
  | differ h hMatches hKeeps => exact .differ h hMatches hKeeps
  | same hSame =>
    cases hSame with
    | failure e hMatches hKeeps => exact .same (.failure e hMatches hKeeps)
    | outOfFuel => exact .same .outOfFuel
    | @value a b n n' hValue hMatches hKeeps =>
      have hSecond := hf a b hValue n n' hMatches
      simp only
      generalize f a n = a', g b n' = b' at hSecond
      cases hSecond with
      | differ h hMatches' hKeeps' => exact .differ h hMatches' (hKeeps.trans hKeeps')
      | same hSame =>
        cases hSame with
        | value hValue' hMatches' hKeeps' =>
          exact .same (.value hValue' hMatches' (hKeeps.trans hKeeps'))
        | failure e hMatches' hKeeps' => exact .same (.failure e hMatches' (hKeeps.trans hKeeps'))
        | outOfFuel => exact .same .outOfFuel

/-- What is known of the values of one of two computations that agree is known of the pairs. -/
theorem Agrees.and_of_value {p : α → Prop} (h : Agrees c r x y)
    (hx : ∀ m a n, x m = .value a n → p a) : Agrees c (fun a b => r a b ∧ p a) x y := by
  intro m m' hm
  have hBoth := h m m' hm
  have hValue := hx m
  generalize x m = a, y m' = b at hBoth hValue
  cases hBoth with
  | value hr hMatches hKeeps => exact .value ⟨hr, hValue _ _ rfl⟩ hMatches hKeeps
  | failure e hMatches hKeeps => exact .failure e hMatches hKeeps
  | outOfFuel => exact .outOfFuel

end Eval
end MiniScheme
