import MiniScheme.Machine.Basic
import MiniScheme.Proofs.Value.Alike

/-!
# Machines that match

The machines of two runs match if nothing that both runs see tells them apart:
as many frames, in the frames seen the same names with values that are alike, the
same text displayed, and stamps still to come that belong together. Frames not
made yet are seen.

* `Frame.Alike`, `Machine.Matches` — the relation;
* `Machine.Keeps` — the frames out of sight stay as they are;
* `Matches.find?` — a name is found in the same frame;
* `Matches.define`, `Matches.addFrame`, … — each change keeps the machines
  matching, and keeps what is out of sight.
-/

namespace MiniScheme

variable {c : Correspondence}

/-! ## Bindings and frames -/

/-- The same names with values that are alike, in the same order. -/
abbrev Bindings.Alike (c : Correspondence) : Bindings → Bindings → Prop :=
  List.Forall₂ fun b b' => b.1 = b'.1 ∧ b.2.Alike c b'.2

namespace Bindings.Alike

variable {bs bs' : Bindings} {v w : Value}

/-- A name is bound in neither, or in both to corresponding values. -/
theorem lookup (h : Bindings.Alike c bs bs') (name : String) :
    (bs.lookup name = none ∧ bs'.lookup name = none) ∨
      ∃ v w, bs.lookup name = some v ∧ bs'.lookup name = some w ∧ v.Alike c w := by
  induction h with
  | nil => exact .inl ⟨rfl, rfl⟩
  | @cons b b' bs bs' hFirst hRest ih =>
    obtain ⟨n, v⟩ := b
    obtain ⟨n', v'⟩ := b'
    obtain ⟨rfl, hValue⟩ := hFirst
    simp only [List.lookup_cons]
    cases name == n with
    | true => exact .inr ⟨v, v', rfl, rfl, hValue⟩
    | false => exact ih

/-- Replacing by corresponding values keeps the bindings alike. -/
theorem replace (h : Bindings.Alike c bs bs') (name : String) (hv : v.Alike c w) :
    Bindings.Alike c (bs.replace name v) (bs'.replace name w) := by
  induction h with
  | nil => exact .nil
  | @cons b b' bs bs' hFirst hRest ih =>
    obtain ⟨n, v'⟩ := b
    obtain ⟨n', w'⟩ := b'
    obtain ⟨rfl, hValue⟩ := hFirst
    refine .cons ?_ ih
    by_cases hName : n = name
    · simpa only [hName, if_true, true_and] using hv
    · simpa only [hName, if_false, true_and] using hValue

/-- Defining corresponding values keeps the bindings alike. -/
theorem define (h : Bindings.Alike c bs bs') (name : String) (hv : v.Alike c w) :
    Bindings.Alike c (bs.define name v) (bs'.define name w) := by
  unfold Bindings.define
  rcases h.lookup name with ⟨hNone, hNone'⟩ | ⟨v', w', hSome, hSome', -⟩
  · rw [hNone, hNone']
    exact .cons ⟨rfl, hv⟩ h
  · rw [hSome, hSome']
    exact h.replace name hv

/-- Names with values that are alike one by one. -/
theorem zip (names : List String) {vs ws : List Value} (h : Value.AllAlike c vs ws) :
    Bindings.Alike c (names.zip vs) (names.zip ws) := by
  induction h generalizing names with
  | nil => cases names <;> exact .nil
  | cons hFirst hRest ih =>
    cases names with
    | nil => exact .nil
    | cons name names => exact .cons ⟨rfl, hFirst⟩ (ih names)

end Bindings.Alike

/-- What a call binds the positional names to. -/
theorem Formals.bindings_alike (formals : Formals) {vs ws : List Value}
    (h : Value.AllAlike c vs ws) :
    Bindings.Alike c (formals.bindings vs) (formals.bindings ws) := by
  -- The names that no argument is left for are bound to nothing in both runs.
  refine .zip _ (List.rel_append h ?_)
  exact List.forall₂_same.mpr fun v hv => List.eq_of_mem_replicate hv ▸ .undefined

/-- The same parent, which is seen, and bindings that are alike. -/
structure Frame.Alike (c : Correspondence) (f g : Frame) : Prop where
  parent_eq : f.parent = g.parent
  parent_seen : ∀ id, f.parent = some id → c.frame id
  bindings : Bindings.Alike c f.bindings g.bindings

theorem Frame.Alike.define {f g : Frame} (h : f.Alike c g) (name : String) {v w : Value}
    (hv : v.Alike c w) : (f.define name v).Alike c (g.define name w) :=
  ⟨h.parent_eq, h.parent_seen, h.bindings.define name hv⟩

namespace Machine

/-! ## The relation -/

/-- Nothing that is seen tells the machines apart. -/
structure Matches (c : Correspondence) (m m' : Machine) : Prop where
  size_eq : m.frames.size = m'.frames.size
  output_eq : m.output = m'.output
  stamps : ∀ k, c.stamp (m.nextStamp + k) (m'.nextStamp + k)
  unmade_seen : ∀ id, m.frames.size ≤ id → c.frame id
  frames : ∀ id, c.frame id →
    (m.frame? id = none ∧ m'.frame? id = none) ∨
      ∃ f g, m.frame? id = some f ∧ m'.frame? id = some g ∧ f.Alike c g

/-- Frames out of sight stay as they are. -/
def Keeps (c : Correspondence) (m n : Machine) : Prop :=
  ∀ id, ¬ c.frame id → n.frame? id = m.frame? id

theorem Keeps.refl (m : Machine) : Keeps c m m :=
  fun _ _ => rfl

theorem Keeps.trans {m n o : Machine} (h : Keeps c m n) (h' : Keeps c n o) : Keeps c m o :=
  fun id hid => (h' id hid).trans (h id hid)

/-! ## Reading -/

variable {m m' : Machine}

namespace Matches

/-- **Lookups in step.** From a frame that is seen, the walks on both machines find nothing, or
corresponding values in the same frame. -/
theorem findWithin (h : Matches c m m') (name : String) (fuel : Nat) {id : FrameId}
    (hid : c.frame id) :
    (m.findWithin name fuel id = none ∧ m'.findWithin name fuel id = none) ∨
      ∃ holder v w, m.findWithin name fuel id = some (holder, v) ∧
        m'.findWithin name fuel id = some (holder, w) ∧ c.frame holder ∧ v.Alike c w := by
  -- Frame by frame upwards; both walks have the same fuel.
  induction fuel generalizing id with
  | zero => exact .inl ⟨rfl, rfl⟩
  | succ fuel ih =>
    rw [Machine.findWithin, Machine.findWithin]
    rcases h.frames id hid with ⟨hNone, hNone'⟩ | ⟨f, g, hSome, hSome', hFrame⟩
    · rw [hNone, hNone']
      exact .inl ⟨rfl, rfl⟩
    · rw [hSome, hSome']
      simp only [Frame.get?]
      rcases hFrame.bindings.lookup name with ⟨hFree, hFree'⟩ | ⟨v, w, hBound, hBound', hValue⟩
      -- A name not bound here is looked for in the parent, which is seen as well.
      · rw [hFree, hFree', ← hFrame.parent_eq]
        cases hParent : f.parent with
        | none => exact .inl ⟨rfl, rfl⟩
        | some parent => exact ih (hFrame.parent_seen parent hParent)
      · rw [hBound, hBound']
        exact .inr ⟨id, v, w, rfl, rfl, hid, hValue⟩

/-- A name is bound nearest in the same frame, to values that are alike. -/
theorem find? (h : Matches c m m') (name : String) {env : FrameId} (hEnv : c.frame env) :
    (m.find? env name = none ∧ m'.find? env name = none) ∨
      ∃ holder v w, m.find? env name = some (holder, v) ∧
        m'.find? env name = some (holder, w) ∧ c.frame holder ∧ v.Alike c w := by
  unfold Machine.find?
  -- The fuel is the number of frames, the same in both.
  rw [← h.size_eq]
  exact h.findWithin name _ hEnv

end Matches

/-! ## Changing -/

theorem frame?_updateFrame (m : Machine) (id : FrameId) (change : Frame → Frame) (other : FrameId) :
    (m.updateFrame id change).frame? other =
      if id = other then (m.frame? other).map change else m.frame? other :=
  Array.getElem?_modify

theorem frame?_addFrame (m : Machine) (f : Frame) (other : FrameId) :
    (m.addFrame f).2.frame? other =
      if other = m.frames.size then some f else m.frame? other :=
  Array.getElem?_push

namespace Matches

/-- Machines that match do so after corresponding changes to the same frame. -/
theorem updateFrame (h : Matches c m m') (id : FrameId) {change change' : Frame → Frame}
    (hChange : ∀ f g : Frame, f.Alike c g → (change f).Alike c (change' g)) :
    Matches c (m.updateFrame id change) (m'.updateFrame id change') where
  size_eq := by simpa [Machine.updateFrame] using h.size_eq
  output_eq := h.output_eq
  stamps := h.stamps
  unmade_seen := by simpa [Machine.updateFrame] using h.unmade_seen
  frames := by
    intro other hOther
    rw [frame?_updateFrame, frame?_updateFrame]
    rcases h.frames other hOther with ⟨hNone, hNone'⟩ | ⟨f, g, hSome, hSome', hFrame⟩
    · rw [hNone, hNone']
      exact .inl ⟨ite_self _, ite_self _⟩
    · rw [hSome, hSome']
      split
      · exact .inr ⟨_, _, rfl, rfl, hChange f g hFrame⟩
      · exact .inr ⟨f, g, rfl, rfl, hFrame⟩

theorem define (h : Matches c m m') (env : FrameId) (name : String) {v w : Value}
    (hv : v.Alike c w) : Matches c (m.define env name v) (m'.define env name w) :=
  h.updateFrame env fun _ _ hFrame => hFrame.define name hv

/-- Machines that match do so with corresponding new frames. -/
theorem addFrame (h : Matches c m m') {f g : Frame} (hFrame : f.Alike c g) :
    Matches c (m.addFrame f).2 (m'.addFrame g).2 where
  size_eq := by simpa [Machine.addFrame] using h.size_eq
  output_eq := h.output_eq
  stamps := h.stamps
  unmade_seen := by
    intro id hid
    refine h.unmade_seen id (Nat.le_of_succ_le ?_)
    simpa [Machine.addFrame] using hid
  frames := by
    intro other hOther
    -- as many frames before, so both new frames have the same number
    rw [frame?_addFrame, frame?_addFrame, ← h.size_eq]
    split
    · exact .inr ⟨f, g, rfl, rfl, hFrame⟩
    · exact h.frames other hOther

theorem write (h : Matches c m m') (text : String) : Matches c (m.write text) (m'.write text) where
  size_eq := h.size_eq
  output_eq := by rw [Machine.write, Machine.write, h.output_eq]
  stamps := h.stamps
  unmade_seen := h.unmade_seen
  frames := h.frames

/-- As many stamps are given out. -/
theorem useStamps (h : Matches c m m') (count : Nat) :
    Matches c { m with nextStamp := m.nextStamp + count }
      { m' with nextStamp := m'.nextStamp + count } where
  size_eq := h.size_eq
  output_eq := h.output_eq
  stamps := by
    intro k
    simp only [Nat.add_assoc]
    exact h.stamps (count + k)
  unmade_seen := h.unmade_seen
  frames := h.frames

end Matches

/-- Defining a name in a frame that is seen keeps what is not. -/
theorem keeps_define (m : Machine) {env : FrameId} (hEnv : c.frame env) (name : String)
    (v : Value) : Keeps c m (m.define env name v) := by
  intro id hid
  rw [define, frame?_updateFrame, if_neg]
  rintro rfl
  exact hid hEnv

/-- A new frame is seen, and what is not seen is kept. -/
theorem keeps_addFrame (h : ∀ id, m.frames.size ≤ id → c.frame id) (f : Frame) :
    Keeps c m (m.addFrame f).2 := by
  intro id hid
  rw [frame?_addFrame, if_neg]
  rintro rfl
  exact hid (h _ Nat.le.refl)

end Machine
end MiniScheme
