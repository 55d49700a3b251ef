import MiniScheme.Proofs.Eval.Kept
import MiniScheme.Proofs.Eval.Reach
import Mathlib.Logic.Relation

/-!
# What frames keep

A session starts from a populated global frame. Then expressions are evaluated and
procedures called, with success or not; frames are made, also those of calls; names
are bound and assigned. Whatever happens, the frames form a forest that only grows:
the parent of a frame stays the same, and so do the names that are bound in it.

* `Machine.Event` — one thing that happens;
* `Event.keeps` — it keeps what is there, and parents older than their children;
* `frames_kept_by_events` — hence lookup and listing come to an end, from every
  frame, and what is bound once is found for ever.
-/

namespace MiniScheme

variable {r : Regime}

/-- Wherever a kept answer ends, its machine has only grown and obeys the regime. -/
theorem Answer.Keeps.ending {α : Type} {m n : Machine} {holds : Nat → α → Prop} {a : Answer α}
    (h : a.Keeps r m holds) {result : Except EvalError α} (hEnd : a.ending? = some (result, n)) :
    m.GrowsTo n ∧ n.Obeys r := by
  cases h with
  | value hGrows hObeys hValue =>
    cases hEnd
    exact ⟨hGrows, hObeys⟩
  | failure hGrows hObeys hFailure =>
    cases hEnd
    exact ⟨hGrows, hObeys⟩
  | outOfFuel => cases hEnd

namespace Machine

/-- The machine with a populated global frame, whose number is 0. -/
def populated : Machine := (empty.addGlobal Builtin.standard).2

/-- With its builtins allowed, the global frame obeys the regime. -/
theorem addGlobal_obeys {m : Machine} (h : m.Obeys r) {builtins : List Builtin}
    (hAll : ∀ b ∈ builtins, r.builtin b) : (m.addGlobal builtins).2.Obeys r := by
  have hStamped : Machine.Obeys r { m with nextStamp := m.nextStamp + builtins.length } :=
    h.of_frames_eq rfl
  refine hStamped.addFrame (f := ⟨none, _⟩) nofun ?_
  intro name v hMem
  obtain ⟨⟨b, i⟩, hIndexed, hEq⟩ := List.mem_map.mp hMem
  cases hEq
  exact .builtin (hAll b (List.fst_mem_of_mem_zipIdx hIndexed))

/-- The machine that a session begins with obeys a regime that allows the builtins. -/
theorem populated_obeys (hAll : ∀ b ∈ Builtin.standard, r.builtin b) : populated.Obeys r := by
  refine addGlobal_obeys ⟨?_, ?_⟩ hAll
  · intro id f up hFrame
    cases hFrame
  · intro id f hFrame
    cases hFrame

/-- What happens in a session. Frames are named only after they have been made. -/
inductive Event (m : Machine) : Machine → Prop
  /-- An expression is evaluated, or a procedure called. -/
  | run (forms : FormTable) (fuel : Nat) {t : Task} {result : Except EvalError Value} {n : Machine}
      (hTask : t.Obeys .free m.frames.size)
      (hEnd : (runTask forms fuel t m).ending? = some (result, n)) : Event m n
  /-- An empty frame is made, with or without a parent. -/
  | frame (parent : Option FrameId) (hParent : ∀ up, parent = some up → up < m.frames.size) :
      Event m (m.addFrame ⟨parent, []⟩).2
  /-- Another global frame is made and populated. -/
  | global (builtins : List Builtin) : Event m (m.addGlobal builtins).2
  /-- The frame of a call is made, if the arguments fit. -/
  | childFrame {parent : FrameId} (formals : Formals) {args : Value}
      {result : Except EvalError FrameId} {n : Machine} (hParent : parent < m.frames.size)
      (hArgs : args.Obeys .free m.frames.size)
      (hEnd : (Eval.makeChildFrameOn parent formals args m).ending? = some (result, n)) : Event m n
  | define (env : FrameId) (name : String) {v : Value} (hValue : v.Obeys .free m.frames.size) :
      Event m (m.define env name v)
  | set {env : FrameId} {name : String} {v : Value} {n : Machine}
      (hValue : v.Obeys .free m.frames.size) (hSet : m.set? env name v = some n) : Event m n
  /-- Data are read, or the text displayed so far is taken. -/
  | apart {n : Machine} (hFrames : n.frames = m.frames) : Event m n

variable {m n : Machine}

/-- Nothing that happens takes anything away from the frames. -/
theorem Event.keeps (h : m.Event n) (hm : m.Obeys .free) : m.GrowsTo n ∧ n.Obeys .free := by
  cases h with
  | run forms fuel hTask hEnd =>
    have hFollow := Contracts.none_followFrom .free
    have hRun := runTask_obeys hFollow .negativeLevel forms fuel hm hTask
    exact hRun.2.ending hEnd
  | frame parent hParent =>
    exact ⟨m.growsTo_addFrame _, hm.addFrame hParent nofun⟩
  | global builtins =>
    have hGrows : m.GrowsTo { m with nextStamp := m.nextStamp + builtins.length } :=
      .of_frames_eq rfl
    exact ⟨hGrows.trans (growsTo_addFrame _ _), addGlobal_obeys hm fun _ _ => trivial⟩
  | childFrame formals hParent hArgs hEnd =>
    have hKeeps := Eval.makeChildFrameOn_keeps hParent formals hArgs
    exact (hKeeps m hm (Nat.le_refl _)).2.ending hEnd
  | define env name hValue => exact ⟨m.growsTo_define env name _, hm.define env name hValue⟩
  | set hValue hSet =>
    obtain ⟨⟨holder, w⟩, -, rfl⟩ := Option.map_eq_some_iff.mp hSet
    exact ⟨m.growsTo_define holder _ _, hm.define holder _ hValue⟩
  | apart hFrames => exact ⟨.of_frames_eq hFrames, hm.of_frames_eq hFrames⟩

/-- Nor does a whole session. -/
theorem events_keep (h : Relation.ReflTransGen Event m n) (hm : m.Obeys .free) :
    m.GrowsTo n ∧ n.Obeys .free := by
  induction h with
  | refl => exact ⟨.refl m, hm⟩
  | tail hBefore hEvent ih =>
    obtain ⟨hGrows, hObeys⟩ := ih
    obtain ⟨hGrows', hObeys'⟩ := hEvent.keeps hObeys
    exact ⟨hGrows.trans hGrows', hObeys'⟩

end Machine

open Machine

/-- **Frames are kept.** At every point of a session the parents of every frame form
a finite row in which no frame comes twice and whose last has no parent; lookup and
listing are walks along that row. Later in the session every frame has the same
parent and its names, and a name that could be looked up from a frame still can. -/
theorem frames_kept_by_events {m n : Machine} (hm : Relation.ReflTransGen Event populated m)
    (hn : Relation.ReflTransGen Event m n) :
    (∀ id < m.frames.size, ∃ ids, m.Chain id ids ∧ ids.Nodup ∧
      (∀ name, m.find? id name = ids.findSome? (m.bindingIn name)) ∧
      m.visibleNames id = (ids.reverse.map m.namesIn).flatten) ∧
    (∀ id f, m.frame? id = some f → ∃ g, n.frame? id = some g ∧ g.parent = f.parent ∧
      ∀ name, (f.get? name).isSome → (g.get? name).isSome) ∧
    (∀ id < m.frames.size, ∀ name v, Eval.lookup id name m = .value v m →
      (∃ w, Eval.lookup id name n = .value w n) ∧ ∀ w, (n.set? id name w).isSome) := by
  -- What the first events have made is there when the others begin.
  obtain ⟨-, hObeys⟩ := events_keep hm (populated_obeys fun _ _ => trivial)
  obtain ⟨hGrows, hObeys'⟩ := events_keep hn hObeys
  refine ⟨?_, hGrows.frame, ?_⟩
  · intro id hMade
    obtain ⟨ids, hChain⟩ := exists_chain hObeys.parents_older hMade
    refine ⟨ids, hChain, hChain.nodup hObeys.parents_older, ?_, ?_⟩
    · exact hChain.find?_eq hObeys.parents_older
    · exact hChain.visibleNames_eq hObeys.parents_older
  · -- a lookup that succeeds has found a binding, and bindings stay
    intro id hMade name v hLookup
    have hBound : (m.get? id name).isSome := by
      cases hGet : m.get? id name with
      | some w => rfl
      | none =>
        rw [Eval.lookup, hGet] at hLookup
        cases hLookup
    have hBound' := hGrows.get?_isSome hObeys.parents_older hObeys'.parents_older hMade hBound
    constructor
    · obtain ⟨w, hGet⟩ := Option.isSome_iff_exists.mp hBound'
      refine ⟨w, ?_⟩
      rw [Eval.lookup, hGet]
    · intro w
      rw [set?, Option.isSome_map]
      rwa [get?, Option.isSome_map] at hBound'

/-- `(define car #f)` in a new frame under the global one: `car` could be looked up
from there before, and still can. -/
theorem frames_kept_by_events_shadowed :
    let expr : Value :=
      .pair 2 (.symbol "define") (.pair 1 (.symbol "car") (.pair 0 (.boolean false) .nil))
    let m : Machine := (populated.addFrame ⟨some 0, []⟩).2
    let n : Machine := m.define 1 "car" (.boolean false)
    Eval.lookup 1 "car" m = .value (.builtin 17 (.plain "car" (.exactly 1) .first)) m ∧
      evaluate .standard 3 expr 1 m = .value (.symbol "car") n ∧
      ∃ w, Eval.lookup 1 "car" n = .value w n := by
  intro expr m n
  have hLookup : Eval.lookup 1 "car" m =
      .value (.builtin 17 (.plain "car" (.exactly 1) .first)) m := rfl
  have hEnd : evaluate .standard 3 expr 1 m = .value (.symbol "car") n := rfl
  have hParent : ∀ up, some 0 = some up → up < populated.frames.size := by
    rintro up ⟨⟩
    decide
  have hExpr : expr.Obeys .free m.frames.size :=
    .pair (.atom _) (.pair (.atom _) (.pair (.atom _) (.atom _)))
  have hTask : (Task.eval expr 1).Obeys .free m.frames.size := .eval hExpr (by decide)
  have hm : Relation.ReflTransGen Event populated m := .single (.frame (some 0) hParent)
  have hn : Relation.ReflTransGen Event m n :=
    .single (.run .standard 3 hTask (congrArg Answer.ending? hEnd))
  exact ⟨hLookup, hEnd, ((frames_kept_by_events hm hn).2.2 1 (by decide) "car" _ hLookup).1⟩

end MiniScheme
