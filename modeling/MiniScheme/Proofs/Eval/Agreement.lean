import MiniScheme.Eval.Task
import MiniScheme.Proofs.Machine.Matching

/-!
# Computations that agree

Two computations agree if on machines that match they end in the same way: both
with values that correspond, or both with the same error, or both out of fuel. The
machines then match again, and what was out of sight of the first is as it was.

* `Answer.Agrees`, `Eval.Agrees` — the relation;
* `Agrees.bind` — one computation after another;
* `lookup_agrees`, `makeChildFrame_agrees`, … — the steps that evaluation is
  made of.
-/

namespace MiniScheme

open Machine Value

variable {c : Correspondence}

/-- The answers of two runs are the same one, as far as both can tell; `m` is the
machine that the first began with. -/
inductive Answer.Agrees {α β : Type} (c : Correspondence) (r : α → β → Prop) (m : Machine) :
    Answer α → Answer β → Prop
  | value {a : α} {b : β} {n n' : Machine} (hValue : r a b) (hMatches : Matches c n n')
      (hKeeps : Keeps c m n) : Agrees c r m (.value a n) (.value b n')
  | failure {n n' : Machine} (e : EvalError) (hMatches : Matches c n n') (hKeeps : Keeps c m n) :
      Agrees c r m (.failure e n) (.failure e n')
  | outOfFuel : Agrees c r m .outOfFuel .outOfFuel

/-- The results are related, or both are the same error. -/
inductive Except.Agrees {α β : Type} (r : α → β → Prop) :
    Except EvalError α → Except EvalError β → Prop
  | ok {a : α} {b : β} (h : r a b) : Agrees r (.ok a) (.ok b)
  | error (e : EvalError) : Agrees r (.error e) (.error e)

/-- The outcomes correspond: values, or the same expression in a frame that is
seen. -/
inductive Outcome.Alike (c : Correspondence) : Outcome → Outcome → Prop
  | done {v w : Value} (h : v.Alike c w) : Alike c (.done v) (.done w)
  | pending {v w : Value} {env : FrameId} (h : v.Alike c w) (hEnv : c.frame env) :
      Alike c (.pending v env) (.pending w env)

/-- The tasks correspond. -/
inductive Task.Alike (c : Correspondence) : Task → Task → Prop
  | eval {v w : Value} {env : FrameId} (h : v.Alike c w) (hEnv : c.frame env) :
      Alike c (.eval v env) (.eval w env)
  | call {v w : Value} {vs ws : List Value} {env : FrameId} (h : v.Alike c w)
      (hs : AllAlike c vs ws) (hEnv : c.frame env) : Alike c (.call v vs env) (.call w ws env)

/-- The same frame, which is seen. -/
def Correspondence.SameFrame (c : Correspondence) (id id' : FrameId) : Prop :=
  id = id' ∧ c.frame id

namespace Eval

/-- On machines that match the computations have the same answer. -/
def Agrees {α β : Type} (c : Correspondence) (r : α → β → Prop) (x : Eval α) (y : Eval β) : Prop :=
  ∀ m m', Matches c m m' → (x m).Agrees c r m (y m')

namespace Agrees

variable {α β α' β' : Type} {r : α → β → Prop} {r' : α' → β' → Prop}

protected theorem pure {a : α} {b : β} (h : r a b) : Agrees c r (pure a) (pure b) :=
  fun m _ hm => .value h hm (.refl m)

theorem fail (e : EvalError) : Agrees c r (Eval.fail e) (Eval.fail e) :=
  fun m _ hm => .failure e hm (.refl m)

theorem ofExcept {x : Except EvalError α} {y : Except EvalError β} (h : Except.Agrees r x y) :
    Agrees c r (Eval.ofExcept x) (Eval.ofExcept y) := by
  cases h with
  | ok h => exact .pure h
  | error e => exact fail e

/-- What does not depend on the machine at all agrees with itself. -/
theorem same (x : Except EvalError α) : Agrees c Eq (Eval.ofExcept x) (Eval.ofExcept x) := by
  cases x with
  | ok a => exact .pure rfl
  | error e => exact fail e

/-- Computations that agree, followed by such, agree one after the other. -/
theorem bind {x : Eval α} {y : Eval β} {f : α → Eval α'} {g : β → Eval β'}
    (hx : Agrees c r x y) (hf : ∀ a b, r a b → Agrees c r' (f a) (g b)) :
    Agrees c r' (x >>= f) (y >>= g) := by
  intro m m' hm
  -- Either the first computation ends both, or it leaves machines that match for the second.
  have hFirst := hx m m' hm
  simp only [Bind.bind, Eval.bind]
  generalize x m = a, y m' = b at hFirst
  cases hFirst with
  | @value a b n n' hValue hMatches hKeeps =>
    have hSecond := hf a b hValue n n' hMatches
    simp only
    generalize f a n = a', g b n' = b' at hSecond
    cases hSecond with
    | value hValue' hMatches' hKeeps' => exact .value hValue' hMatches' (hKeeps.trans hKeeps')
    | failure e hMatches' hKeeps' => exact .failure e hMatches' (hKeeps.trans hKeeps')
    | outOfFuel => exact .outOfFuel
  | failure e hMatches hKeeps => exact .failure e hMatches hKeeps
  | outOfFuel => exact .outOfFuel

end Agrees

/-! ## Steps -/

variable {v w : Value} {vs ws : List Value} {env : FrameId}

/-- A name is bound to corresponding values in a frame that both see, or to nothing in either. -/
theorem lookup_agrees (hEnv : c.frame env) (name : String) :
    Agrees c (Value.Alike c) (lookup env name) (lookup env name) := by
  intro m m' hm
  unfold lookup Machine.get?
  rcases hm.find? name hEnv with ⟨hNone, hNone'⟩ | ⟨holder, v, w, hSome, hSome', -, hValue⟩
  · rw [hNone, hNone']
    exact .failure _ hm (.refl m)
  · rw [hSome, hSome']
    exact .value hValue hm (.refl m)

theorem define_agrees (hEnv : c.frame env) (name : String) (h : v.Alike c w) :
    Agrees c Eq (define env name v) (define env name w) :=
  fun m _ hm => .value rfl (hm.define env name h) (keeps_define m hEnv name v)

/-- Corresponding values are assigned to a name alike, and an unbound name is the same error. -/
theorem assign_agrees (hEnv : c.frame env) (name : String) (h : v.Alike c w) :
    Agrees c Eq (assign env name v) (assign env name w) := by
  intro m m' hm
  unfold assign Machine.set?
  -- The frame that holds the name is seen, and so nothing out of sight is changed.
  rcases hm.find? name hEnv with ⟨hNone, hNone'⟩ | ⟨holder, _, _, hSome, hSome', hHolder, -⟩
  · rw [hNone, hNone']
    exact .failure _ hm (.refl m)
  · rw [hSome, hSome']
    exact .value rfl (hm.define holder name h) (keeps_define m hHolder name v)

theorem display_agrees (text : String) :
    Agrees c (Value.Alike c) (display text) (display text) :=
  fun m _ hm => .value .undefined (hm.write text) (.refl m)

/-- Chains of corresponding values correspond. -/
theorem makeChain_agrees (hs : AllAlike c vs ws) (h : v.Alike c w) :
    Agrees c (Value.Alike c) (makeChain vs v) (makeChain ws w) := by
  intro m m' hm
  refine .value (.chain hm.stamps hs h) ?_ (.refl m)
  have hMatches := hm.useStamps vs.length
  rwa [hs.length_eq] at hMatches ⊢

theorem makeList_agrees (hs : AllAlike c vs ws) :
    Agrees c (Value.Alike c) (makeList vs) (makeList ws) :=
  makeChain_agrees hs (.atom .nil)

theorem makePair_agrees {v' w' : Value} (h : v.Alike c w) (h' : v'.Alike c w') :
    Agrees c (Value.Alike c) (makePair v v') (makePair w w') :=
  makeChain_agrees (.cons h .nil) h'

/-- Procedures with corresponding bodies correspond, where both see the frame that they keep. -/
theorem makeProcedure_agrees {kind : CompoundKind} (hKind : c.Sees kind) (formals : Formals)
    (h : v.Alike c w) :
    Agrees c (Value.Alike c) (makeProcedure kind formals v) (makeProcedure kind formals w) :=
  fun m _ hm => .value (.compound (hm.stamps 0) hKind h) (hm.useStamps 1) (.refl m)

/-- Both runs give the new frame the same number. -/
theorem makeFrame_agrees {f g : Frame} (h : f.Alike c g) :
    Agrees c c.SameFrame (makeFrame f) (makeFrame g) := by
  intro m m' hm
  have hSeen : c.frame m.frames.size := hm.unmade_seen _ Nat.le.refl
  exact .value ⟨hm.size_eq, hSeen⟩ (hm.addFrame h) (keeps_addFrame hm.unmade_seen f)

/-! ## The frame of a call -/

/-- With corresponding arguments both make the same frame below one that they see, or refuse
them alike. -/
theorem makeChildFrame_agrees (hEnv : c.frame env) (formals : Formals) (hs : AllAlike c vs ws) :
    Agrees c c.SameFrame (makeChildFrame env formals vs) (makeChildFrame env formals ws) := by
  have hParent : ∀ id, some env = some id → c.frame id := by
    rintro id ⟨⟩
    exact hEnv
  have hBindings := formals.bindings_alike hs
  unfold makeChildFrame
  -- As many arguments, so both calls have enough of them or neither has.
  rw [hs.length_eq]
  split
  · cases formals.rest with
    | none => exact makeFrame_agrees ⟨rfl, hParent, hBindings⟩
    | some rest =>
      refine (makeList_agrees (List.forall₂_drop _ hs)).bind fun v w h => ?_
      exact makeFrame_agrees ⟨rfl, hParent, .cons ⟨rfl, h⟩ hBindings⟩
  · exact .fail _

end Eval
end MiniScheme
