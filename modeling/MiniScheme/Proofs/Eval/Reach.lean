import MiniScheme.Proofs.Eval.TwoRuns

/-!
# What an evaluation can reach

An evaluation begins with an expression and a frame. From these it can reach the
parents of frames, the frames that procedures and environments in its values
keep, and whatever the bindings of such frames hold. The other frames it leaves
as they are, and nothing that it does depends on them.

* `Value.Captures`, `Machine.Reaches` — the frames that can be reached;
* `Machine.DiffersOutside` — machines that differ only in the frames that cannot;
* `evaluate_within_reach` — evaluation neither changes nor reads those.

Frames made on the way can be reached too. The invariant of a run is therefore
that whatever is in sight holds only what is in sight, where in sight are the
frames that could be reached at the beginning and all frames made later.
-/

namespace MiniScheme

/-! ## Reachable frames -/

/-- The frame is kept somewhere in the value: by a procedure that was made in
it, or as a value by itself. -/
inductive Value.Captures : Value → FrameId → Prop
  | environment (id : FrameId) : Captures (.environment id) id
  | home {s : Stamp} {id : FrameId} {formals : Formals} {body : Value} :
      Captures (.compound s (.lambda id) formals body) id
  | body {s : Stamp} {kind : CompoundKind} {formals : Formals} {body : Value} {id : FrameId}
      (h : Captures body id) : Captures (.compound s kind formals body) id
  | first {s : Stamp} {first rest : Value} {id : FrameId} (h : Captures first id) :
      Captures (.pair s first rest) id
  | rest {s : Stamp} {first rest : Value} {id : FrameId} (h : Captures rest id) :
      Captures (.pair s first rest) id

@[simp] theorem Value.not_captures_atom (a : Atom) (id : FrameId) : ¬ (atom a).Captures id :=
  nofun

@[simp] theorem Value.captures_pair {s : Stamp} {first rest : Value} {id : FrameId} :
    (pair s first rest).Captures id ↔ first.Captures id ∨ rest.Captures id := by
  constructor
  · rintro (_ | _ | _ | h | h)
    · exact .inl h
    · exact .inr h
  · rintro (h | h)
    · exact .first h
    · exact .rest h

namespace Machine

/-- The frame can be reached by an evaluation of the expression in the frame
`env`. -/
inductive Reaches (m : Machine) (expr : Value) (env : FrameId) : FrameId → Prop
  | start : Reaches m expr env env
  | captured {id : FrameId} (h : expr.Captures id) : Reaches m expr env id
  | parent {id up : FrameId} {f : Frame} (h : Reaches m expr env id) (hFrame : m.frame? id = some f)
      (hParent : f.parent = some up) : Reaches m expr env up
  | bound {id kept : FrameId} {f : Frame} {name : String} {v : Value} (h : Reaches m expr env id)
      (hFrame : m.frame? id = some f) (hBound : (name, v) ∈ f.bindings)
      (hKept : v.Captures kept) : Reaches m expr env kept

/-- The machines differ at most in what the frames out of reach are. -/
structure DiffersOutside (m other : Machine) (expr : Value) (env : FrameId) : Prop where
  size_eq : m.frames.size = other.frames.size
  nextStamp_eq : m.nextStamp = other.nextStamp
  output_eq : m.output = other.output
  frame_eq : ∀ id, m.Reaches expr env id → m.frame? id = other.frame? id

/-- A machine differs nowhere from itself. -/
theorem DiffersOutside.refl (m : Machine) (expr : Value) (env : FrameId) :
    DiffersOutside m m expr env :=
  ⟨rfl, rfl, rfl, fun _ _ => rfl⟩

/-! ## What is in sight -/

/-- In sight are the frames that can be reached and those that are not made yet.
Stamps are the same in both runs. -/
def sight (m : Machine) (expr : Value) (env : FrameId) : Correspondence where
  frame id := m.Reaches expr env id ∨ m.frames.size ≤ id
  stamp := Eq
  stamp_iff := by
    rintro s _ s' _ rfl rfl
    rfl

variable {m other : Machine} {expr : Value} {env : FrameId}

/-- A value is alike to itself if all it keeps is in sight. -/
theorem alike_self {v : Value} (h : ∀ id, v.Captures id → m.Reaches expr env id) :
    v.Alike (m.sight expr env) v := by
  induction v with
  | atom a => exact .atom a
  | undefined => exact .undefined
  | pair stamp first rest ihFirst ihRest =>
    exact .pair rfl (ihFirst fun id hid => h id (.first hid))
      (ihRest fun id hid => h id (.rest hid))
  | builtin stamp b => exact .builtin rfl b
  | compound stamp kind formals body ih =>
    refine .compound rfl ?_ (ih fun id hid => h id (.body hid))
    cases kind with
    | lambda home => exact .inl (h home .home)
    | _ => trivial
  | environment id => exact .environment (.inl (h id (.environment id)))

/-- Values that are alike are the same one. -/
theorem eq_of_alike {v w : Value} (h : v.Alike (m.sight expr env) w) : v = w := by
  induction h with
  | pair hStamp hFirst hRest ihFirst ihRest =>
    cases hStamp
    rw [ihFirst, ihRest]
  | builtin hStamp b =>
    cases hStamp
    rfl
  | compound hStamp hKind hBody ih =>
    cases hStamp
    rw [ih]
  | _ => rfl

theorem frame?_eq_none (m : Machine) {id : FrameId} (h : m.frames.size ≤ id) :
    m.frame? id = none :=
  Array.getElem?_eq_none h

/-- A frame that can be reached holds only what can be reached. -/
theorem frame_alike_self {id : FrameId} {f : Frame} (h : m.Reaches expr env id)
    (hFrame : m.frame? id = some f) : f.Alike (m.sight expr env) f where
  parent_eq := rfl
  parent_seen _ hParent := .inl (h.parent hFrame hParent)
  bindings := List.forall₂_same.mpr fun _ hBound =>
    ⟨rfl, alike_self fun _ hKept => h.bound hFrame hBound hKept⟩

/-- Machines that differ outside of what is in sight match in what is seen. -/
theorem DiffersOutside.matches (h : DiffersOutside m other expr env) :
    Matches (m.sight expr env) m other where
  size_eq := h.size_eq
  output_eq := h.output_eq
  stamps k := congrArg (· + k) h.nextStamp_eq
  unmade_seen _ hid := .inr hid
  frames := by
    -- A frame in sight can be reached, and is the same one in both, or it is not made yet.
    rintro id (hid | hid)
    · rw [← h.frame_eq id hid]
      cases hFrame : m.frame? id with
      | none => exact .inl ⟨rfl, rfl⟩
      | some f => exact .inr ⟨f, f, rfl, rfl, frame_alike_self hid hFrame⟩
    · exact .inl ⟨m.frame?_eq_none hid, other.frame?_eq_none (h.size_eq ▸ hid)⟩

end Machine

/-! ## Evaluation -/

/-- How a computation ends and the machine it leaves, unless it runs out of fuel. -/
def Answer.ending? {α : Type} : Answer α → Option (Except EvalError α × Machine)
  | value a m => some (.ok a, m)
  | failure e m => some (.error e, m)
  | outOfFuel => none

/-- How a computation ends and what has been displayed. -/
def Answer.shown? {α : Type} (a : Answer α) : Option (Except EvalError α × String) :=
  a.ending?.map fun (result, m) => (result, m.output)

/-- Wherever an answer that agrees ends, the machine has kept what is not in sight. -/
theorem Answer.Agrees.keeps {α β : Type} {c : Correspondence} {r : α → β → Prop} {m n : Machine}
    {a : Answer α} {b : Answer β} (h : a.Agrees c r m b) {result : Except EvalError α}
    (hEnd : a.ending? = some (result, n)) : m.Keeps c n := by
  cases h <;> cases hEnd <;> assumption

/-- Answers that agree show the same text. -/
theorem Answer.Agrees.shown?_eq {α : Type} {c : Correspondence} {r : α → α → Prop} {m : Machine}
    {a b : Answer α} (h : a.Agrees c r m b) (hEq : ∀ x y, r x y → x = y) :
    a.shown? = b.shown? := by
  cases h with
  | value hValue hMatches hKeeps =>
    simp only [shown?, ending?, Option.map_some, hEq _ _ hValue, hMatches.output_eq]
  | failure e hMatches hKeeps => simp only [shown?, ending?, Option.map_some, hMatches.output_eq]
  | outOfFuel => rfl

/-- **Evaluation touches only what it can reach.** However it ends, a frame out of
reach is left as it was; and if such frames had been other ones, it would have
ended in the same way, with the same text displayed. -/
theorem evaluate_within_reach (forms : FormTable) (fuel : Nat) (expr : Value) (env : FrameId)
    (m : Machine) :
    (∀ result n, (evaluate forms fuel expr env m).ending? = some (result, n) →
      ∀ id < m.frames.size, ¬ m.Reaches expr env id → n.frame? id = m.frame? id) ∧
    (∀ other, m.DiffersOutside other expr env →
      (evaluate forms fuel expr env m).shown? = (evaluate forms fuel expr env other).shown?) := by
  -- Both statements are about two runs from machines that match, the first about a run and itself.
  have hAgrees : ∀ other, m.DiffersOutside other expr env →
      (evaluate forms fuel expr env m).Agrees (m.sight expr env) (Value.Alike (m.sight expr env)) m
        (evaluate forms fuel expr env other) := by
    intro other hOther
    have hExpr : expr.Alike (m.sight expr env) expr := Machine.alike_self fun _ h => .captured h
    exact runTask_agrees forms fuel (.eval hExpr (.inl .start)) m other hOther.matches
  constructor
  · -- a frame out of reach that has been made is out of sight
    intro result n hEnd id hMade hReach
    refine (hAgrees m (.refl m expr env)).keeps hEnd id ?_
    rintro (hReached | hUnmade)
    · exact hReach hReached
    · omega
  · -- stamps are the same in both runs, so that values that are alike are equal
    intro other hOther
    exact (hAgrees other hOther).shown?_eq fun _ _ h => Machine.eq_of_alike h

/-- `(set! x #f)` in the first of two frames, neither of which knows the other: the
second stays as it is, and if it had bound `y` to another value, nothing would
have been different. -/
theorem evaluate_within_reach_set :
    let expr : Value :=
      .pair 2 (.symbol "set!") (.pair 1 (.symbol "x") (.pair 0 (.boolean false) .nil))
    let m : Machine := ⟨#[⟨none, [("x", .nil)]⟩, ⟨none, [("y", .nil)]⟩], 3, ""⟩
    let other : Machine := ⟨#[⟨none, [("x", .nil)]⟩, ⟨none, [("y", .boolean true)]⟩], 3, ""⟩
    let n : Machine := ⟨#[⟨none, [("x", .boolean false)]⟩, ⟨none, [("y", .nil)]⟩], 3, ""⟩
    evaluate .standard 3 expr 0 m = .value .undefined n ∧ n.frame? 1 = m.frame? 1 ∧
      (evaluate .standard 3 expr 0 m).shown? = (evaluate .standard 3 expr 0 other).shown? := by
  intro expr m other n
  have hNone : ∀ id, ¬ expr.Captures id := by
    intro id
    simp [expr]
  have hReach : ∀ id, m.Reaches expr 0 id → id = 0 := by
    intro id h
    -- Nothing in sight leads away from the first frame.
    induction h with
    | start => rfl
    | captured h => exact (hNone _ h).elim
    | parent h hFrame hParent ih =>
      subst ih
      cases hFrame
      cases hParent
    | bound h hFrame hBound hKept ih =>
      subst ih
      cases hFrame
      cases List.mem_singleton.mp hBound
      cases hKept
  have hEnd : evaluate .standard 3 expr 0 m = .value .undefined n := rfl
  have hOther : m.DiffersOutside other expr 0 := by
    refine ⟨rfl, rfl, rfl, fun id hid => ?_⟩
    rw [hReach id hid]
    rfl
  refine ⟨hEnd, ?_, (evaluate_within_reach .standard 3 expr 0 m).2 other hOther⟩
  refine (evaluate_within_reach .standard 3 expr 0 m).1 (.ok .undefined) n ?_ 1 (by decide) ?_
  · rw [hEnd]
    rfl
  · intro hid
    cases hReach 1 hid

end MiniScheme
