import MiniScheme.Proofs.Machine.Matching

/-!
# Chains of frames

A name is looked for in a frame, then in its parent, and so on. Where every parent
is older than its children, the frames on the way form a finite row in which none
comes twice; and as frames are only added, and names in them, what is found along
the row once is found for ever.

* `Machine.Chain` — the row of frames from one up to a frame without a parent;
* `Machine.ParentsOlder` — every parent has a smaller number than its children;
* `Machine.exists_chain`, `Chain.nodup` — then there is such a row, and no frame
  comes twice in it;
* `Chain.find?_eq`, `Chain.visibleNames_eq` — lookup and listing are walks along
  the whole row;
* `exists_frame_of_findWithin`, `exists_frame_of_define` — where what is found was
  bound, and what a definition leaves as it was;
* `Machine.GrowsTo` — frames keep their parents and their names;
* `GrowsTo.chain`, `GrowsTo.get?_isSome` — the rows stay the same, and what is
  bound from a frame stays bound.
-/

namespace MiniScheme

/-! ## Bindings -/

namespace Bindings

/-- Replacing changes the value of one name, if it is bound, and of no other. -/
theorem lookup_replace (bs : Bindings) (name : String) (v : Value) (other : String) :
    (bs.replace name v).lookup other =
      if other = name then (bs.lookup name).map fun _ => v else bs.lookup other := by
  induction bs with
  | nil => simp [replace]
  | cons b bs ih =>
    obtain ⟨n, w⟩ := b
    have hReplace : Bindings.replace name v ((n, w) :: bs) =
        (n, if n = name then v else w) :: Bindings.replace name v bs := by
      simp only [replace, List.map_cons]
      split <;> rfl
    rw [hReplace, List.lookup_cons, List.lookup_cons, List.lookup_cons, ih]
    -- the name asked for, the one given a value and the one at the front may be the same
    by_cases hOther : other = name
    · subst hOther
      by_cases hFront : other = n
      · simp [hFront]
      · simp [beq_eq_false_iff_ne.mpr hFront]
    · by_cases hFront : other = n
      · subst hFront
        simp [hOther]
      · simp [hOther, beq_eq_false_iff_ne.mpr hFront]

/-- A name that is bound has the value it was bound to last. -/
theorem lookup_define (bs : Bindings) (name : String) (v : Value) (other : String) :
    (bs.define name v).lookup other = if other = name then some v else bs.lookup other := by
  unfold define
  split
  · rename_i hBound
    obtain ⟨w, hw⟩ := Option.isSome_iff_exists.mp hBound
    rw [lookup_replace, hw, Option.map_some]
  · rw [List.lookup_cons]
    by_cases hOther : other = name
    · simp [hOther]
    · simp [hOther, beq_eq_false_iff_ne.mpr hOther]

theorem mem_of_lookup {bs : Bindings} {name : String} {v : Value}
    (h : bs.lookup name = some v) : (name, v) ∈ bs := by
  obtain ⟨before, after, rfl, -⟩ := List.lookup_eq_some_iff.mp h
  exact List.mem_append_right before List.mem_cons_self

/-- What is bound is what was bound to last, or was bound before. -/
theorem mem_define {bs : Bindings} {name : String} {v : Value} {b : String × Value}
    (h : b ∈ bs.define name v) : b = (name, v) ∨ b ∈ bs := by
  unfold define at h
  split at h
  · obtain ⟨⟨n, w⟩, hMem, rfl⟩ := List.mem_map.mp h
    dsimp only
    split
    · rename_i hName
      exact .inl (by rw [hName])
    · exact .inr hMem
  · exact List.mem_cons.mp h

end Bindings

/-- A name defined in a frame has its new value there, and the others keep theirs. -/
theorem Frame.get?_define (f : Frame) (name : String) (v : Value) (other : String) :
    (f.define name v).get? other = if other = name then some v else f.get? other :=
  f.bindings.lookup_define name v other

namespace Machine

/-! ## Rows of frames -/

/-- The frames from one on along its parents, up to one that has none. -/
inductive Chain (m : Machine) : FrameId → List FrameId → Prop
  | root {id : FrameId} {f : Frame} (hFrame : m.frame? id = some f) (hParent : f.parent = none) :
      Chain m id [id]
  | child {id up : FrameId} {f : Frame} {ids : List FrameId} (hFrame : m.frame? id = some f)
      (hParent : f.parent = some up) (h : Chain m up ids) : Chain m id (id :: ids)

/-- Every parent was made before its children. -/
def ParentsOlder (m : Machine) : Prop :=
  ∀ id f up, m.frame? id = some f → f.parent = some up → up < id

/-- There is a frame for each number below their count. -/
theorem frame?_isSome_iff (m : Machine) (id : FrameId) :
    (∃ f, m.frame? id = some f) ↔ id < m.frames.size := by
  constructor
  · rintro ⟨f, hFrame⟩
    exact (Array.getElem?_eq_some_iff.mp hFrame).1
  · intro hMade
    exact ⟨m.frames[id], Array.getElem?_eq_getElem hMade⟩

variable {m : Machine}

/-- From every frame the parents lead to a frame that has none. -/
theorem exists_chain (h : m.ParentsOlder) {id : FrameId} (hMade : id < m.frames.size) :
    ∃ ids, m.Chain id ids := by
  -- Parents have smaller numbers, so the way up cannot go on for ever.
  induction id using Nat.strongRecOn with
  | ind id ih =>
    obtain ⟨f, hFrame⟩ := (m.frame?_isSome_iff id).mpr hMade
    cases hParent : f.parent with
    | none => exact ⟨[id], .root hFrame hParent⟩
    | some up =>
      have hOlder : up < id := h id f up hFrame hParent
      obtain ⟨ids, hChain⟩ := ih up hOlder (Nat.lt_trans hOlder hMade)
      exact ⟨id :: ids, .child hFrame hParent hChain⟩

namespace Chain

variable {id : FrameId} {ids : List FrameId}

/-- No frame of a row is younger than the first one. -/
theorem le_of_mem (h : m.ParentsOlder) (hChain : m.Chain id ids) : ∀ other ∈ ids, other ≤ id := by
  -- Along the row: each frame is younger than its parent.
  induction hChain with
  | root hFrame hParent =>
    intro other hMem
    rw [List.mem_singleton] at hMem
    exact Nat.le_of_eq hMem
  | child hFrame hParent hChain ih =>
    intro other hMem
    have hOlder := h _ _ _ hFrame hParent
    obtain rfl | hMem := List.mem_cons.mp hMem
    · exact Nat.le_refl _
    · exact Nat.le_trans (ih other hMem) (Nat.le_of_lt hOlder)

/-- No frame is among its own parents. -/
theorem nodup (h : m.ParentsOlder) (hChain : m.Chain id ids) : ids.Nodup := by
  induction hChain with
  | root hFrame hParent => exact List.pairwise_singleton _ _
  | child hFrame hParent hChain ih =>
    refine List.nodup_cons.mpr ⟨?_, ih⟩
    intro hMem
    have hOlder := h _ _ _ hFrame hParent
    have hLe := hChain.le_of_mem h _ hMem
    exact Nat.not_le_of_lt hOlder hLe

/-- A row is no longer than its first frame is old. -/
theorem length_le (h : m.ParentsOlder) (hChain : m.Chain id ids) : ids.length ≤ id + 1 := by
  induction hChain with
  | root hFrame hParent => exact Nat.le_add_left 1 _
  | child hFrame hParent hChain ih =>
    have hOlder := h _ _ _ hFrame hParent
    rw [List.length_cons]
    exact Nat.succ_le_succ (Nat.le_trans ih hOlder)

theorem lt_size (hChain : m.Chain id ids) : id < m.frames.size := by
  cases hChain with
  | root hFrame hParent => exact (m.frame?_isSome_iff _).mp ⟨_, hFrame⟩
  | child hFrame hParent hChain => exact (m.frame?_isSome_iff _).mp ⟨_, hFrame⟩

/-- A row is no longer than there are frames. -/
theorem length_le_size (h : m.ParentsOlder) (hChain : m.Chain id ids) :
    ids.length ≤ m.frames.size :=
  Nat.le_trans (hChain.length_le h) hChain.lt_size

end Chain

/-! ## Walks along a row -/

/-- The frame with the value it binds the name to, if it binds it. -/
def bindingIn (m : Machine) (name : String) (id : FrameId) : Option (FrameId × Value) :=
  ((m.frame? id).bind (·.get? name)).map fun v => (id, v)

/-- The names that a frame binds. -/
def namesIn (m : Machine) (id : FrameId) : List String :=
  ((m.frame? id).map (·.bindings.names)).getD []

namespace Chain

variable {id : FrameId} {ids : List FrameId}

/-- With fuel for the row, the walk takes the first frame of it that binds the name. -/
theorem findWithin_eq (hChain : m.Chain id ids) (name : String) {fuel : Nat}
    (hFuel : ids.length ≤ fuel) :
    m.findWithin name fuel id = ids.findSome? (m.bindingIn name) := by
  -- Along the row: each frame takes one unit of fuel, and the walk stops where the name is bound.
  induction hChain generalizing fuel with
  | @root id f hFrame hParent =>
    obtain ⟨fuel, rfl⟩ := Nat.exists_eq_add_of_le' hFuel
    rw [List.length_singleton, findWithin, hFrame, List.findSome?_cons, bindingIn, hFrame]
    simp only [hParent, Option.bind_some]
    cases f.get? name <;> rfl
  | @child id up f ids hFrame hParent hChain ih =>
    obtain ⟨fuel, rfl⟩ := Nat.exists_eq_add_of_le' hFuel
    rw [List.length_cons] at hFuel ⊢
    rw [← Nat.add_assoc, findWithin, hFrame, List.findSome?_cons, bindingIn, hFrame]
    simp only [hParent, Option.bind_some]
    cases f.get? name with
    | none => exact ih (Nat.le_add_left _ _)
    | some v => rfl

/-- A lookup goes through the whole row and takes the first frame that binds the
name. -/
theorem find?_eq (h : m.ParentsOlder) (hChain : m.Chain id ids) (name : String) :
    m.find? id name = ids.findSome? (m.bindingIn name) :=
  hChain.findWithin_eq name (hChain.length_le_size h)

/-- With fuel for the row, the walk collects the names of all its frames, the outermost first. -/
theorem namesWithin_eq (hChain : m.Chain id ids) (collected : List String) {fuel : Nat}
    (hFuel : ids.length ≤ fuel) :
    m.namesWithin collected fuel id = (ids.reverse.map m.namesIn).flatten ++ collected := by
  -- The names of the frames before are already collected, so the induction is for any that are.
  induction hChain generalizing fuel collected with
  | root hFrame hParent =>
    obtain ⟨fuel, rfl⟩ := Nat.exists_eq_add_of_le' hFuel
    rw [List.length_singleton, namesWithin, hFrame]
    simp [hParent, namesIn, hFrame]
  | child hFrame hParent hChain ih =>
    obtain ⟨fuel, rfl⟩ := Nat.exists_eq_add_of_le' hFuel
    rw [List.length_cons, ← Nat.add_assoc, namesWithin, hFrame]
    simp only [hParent]
    rw [ih _ (Nat.le_add_left _ _)]
    simp [namesIn, hFrame]

/-- The visible names are those of all frames of the row. -/
theorem visibleNames_eq (h : m.ParentsOlder) (hChain : m.Chain id ids) :
    m.visibleNames id = (ids.reverse.map m.namesIn).flatten := by
  rw [visibleNames, hChain.namesWithin_eq [] (hChain.length_le_size h), List.append_nil]

end Chain

/-! ## Frames and their bindings -/

/-- A name that is found is bound in the frame where it is found. -/
theorem exists_frame_of_findWithin {name : String} {fuel : Nat} {id holder : FrameId} {v : Value}
    (h : m.findWithin name fuel id = some (holder, v)) :
    ∃ f, m.frame? holder = some f ∧ (name, v) ∈ f.bindings := by
  -- along the parents, for as many as there is fuel
  induction fuel generalizing id with
  | zero => cases h
  | succ fuel ih =>
    rw [findWithin] at h
    split at h
    · cases h
    · rename_i f hFrame
      split at h
      · rename_i w hBound
        cases h
        exact ⟨f, hFrame, Bindings.mem_of_lookup hBound⟩
      · split at h
        · exact ih h
        · cases h

/-- A name that is listed is bound in some frame. -/
theorem exists_frame_of_namesWithin {name : String} {collected : List String} {fuel : Nat}
    {id : FrameId} (h : name ∈ m.namesWithin collected fuel id) (hNew : name ∉ collected) :
    ∃ holder f v, m.frame? holder = some f ∧ (name, v) ∈ f.bindings := by
  induction fuel generalizing id collected with
  | zero => exact absurd h hNew
  | succ fuel ih =>
    rw [namesWithin] at h
    split at h
    · exact absurd h hNew
    · rename_i f hFrame
      dsimp only at h
      by_cases hHere : name ∈ f.bindings.names
      · obtain ⟨⟨n, v⟩, hBound, rfl⟩ := List.mem_map.mp hHere
        exact ⟨id, f, v, hFrame, hBound⟩
      · have hNotYet : name ∉ f.bindings.names ++ collected := by
          rw [List.mem_append, not_or]
          exact ⟨hHere, hNew⟩
        split at h
        · exact ih h hNotYet
        · exact absurd h hNotYet

/-- After a definition a frame is one from before, perhaps with the new value. -/
theorem exists_frame_of_define {env id : FrameId} {name : String} {v : Value} {g : Frame}
    (h : (m.define env name v).frame? id = some g) :
    ∃ f, m.frame? id = some f ∧ g.parent = f.parent ∧
      ∀ b ∈ g.bindings, b = (name, v) ∨ b ∈ f.bindings := by
  rw [define, frame?_updateFrame] at h
  split at h
  · obtain ⟨f, hFrame, rfl⟩ := Option.map_eq_some_iff.mp h
    exact ⟨f, hFrame, rfl, fun _ => Bindings.mem_define⟩
  · exact ⟨g, h, rfl, fun _ => .inr⟩

/-! ## Growth -/

/-- Every frame is still there, with the same parent and at least the same names. -/
structure GrowsTo (m n : Machine) : Prop where
  size_le : m.frames.size ≤ n.frames.size
  frame : ∀ id f, m.frame? id = some f → ∃ g, n.frame? id = some g ∧ g.parent = f.parent ∧
    ∀ name, (f.get? name).isSome → (g.get? name).isSome

namespace GrowsTo

variable {n o : Machine}

theorem refl (m : Machine) : m.GrowsTo m :=
  ⟨Nat.le_refl _, fun _ f hFrame => ⟨f, hFrame, rfl, fun _ h => h⟩⟩

/-- Growing further is growing. -/
theorem trans (h : m.GrowsTo n) (h' : n.GrowsTo o) : m.GrowsTo o where
  size_le := Nat.le_trans h.size_le h'.size_le
  frame := by
    intro id f hFrame
    obtain ⟨g, hFrame', hParent, hNames⟩ := h.frame id f hFrame
    obtain ⟨g', hFrame'', hParent', hNames'⟩ := h'.frame id g hFrame'
    refine ⟨g', hFrame'', hParent'.trans hParent, ?_⟩
    intro name hBound
    exact hNames' name (hNames name hBound)

/-- Only the frames count. -/
theorem of_frames_eq (h : n.frames = m.frames) : m.GrowsTo n where
  size_le := Nat.le_of_eq (by rw [h])
  frame := by
    intro id f hFrame
    refine ⟨f, ?_, rfl, fun _ h => h⟩
    rw [frame?, h]
    exact hFrame

/-- The row of a frame never changes. -/
theorem chain (h : m.GrowsTo n) {id : FrameId} {ids : List FrameId} (hChain : m.Chain id ids) :
    n.Chain id ids := by
  induction hChain with
  | root hFrame hParent =>
    obtain ⟨g, hFrame', hParent', -⟩ := h.frame _ _ hFrame
    exact .root hFrame' (hParent'.trans hParent)
  | child hFrame hParent hChain ih =>
    obtain ⟨g, hFrame', hParent', -⟩ := h.frame _ _ hFrame
    exact .child hFrame' (hParent'.trans hParent) ih

/-- A name that is bound from a frame stays bound from it. -/
theorem get?_isSome (h : m.GrowsTo n) (hOlder : m.ParentsOlder) (hOlder' : n.ParentsOlder)
    {env : FrameId} (hMade : env < m.frames.size) {name : String}
    (hBound : (m.get? env name).isSome) : (n.get? env name).isSome := by
  obtain ⟨ids, hChain⟩ := exists_chain hOlder hMade
  rw [get?, Option.isSome_map] at hBound ⊢
  rw [hChain.find?_eq hOlder, List.findSome?_isSome_iff] at hBound
  rw [(h.chain hChain).find?_eq hOlder', List.findSome?_isSome_iff]
  -- The frame that binds it in the one machine binds it in the other.
  obtain ⟨id, hMem, hHere⟩ := hBound
  refine ⟨id, hMem, ?_⟩
  rw [bindingIn, Option.isSome_map] at hHere ⊢
  cases hFrame : m.frame? id with
  | none => simp [hFrame] at hHere
  | some f =>
    obtain ⟨g, hFrame', -, hNames⟩ := h.frame id f hFrame
    rw [hFrame, Option.bind_some] at hHere
    rw [hFrame', Option.bind_some]
    exact hNames name hHere

end GrowsTo

/-! ## What makes machines grow -/

/-- A new frame makes the machine grow. -/
theorem growsTo_addFrame (m : Machine) (f : Frame) : m.GrowsTo (m.addFrame f).2 where
  size_le := by simp [addFrame]
  frame := by
    intro id g hFrame
    have hMade : id < m.frames.size := (m.frame?_isSome_iff id).mp ⟨g, hFrame⟩
    refine ⟨g, ?_, rfl, fun _ h => h⟩
    rw [frame?_addFrame, if_neg (Nat.ne_of_lt hMade), hFrame]

/-- Defining a name makes the machine grow: no frame loses its parent or a name. -/
theorem growsTo_define (m : Machine) (env : FrameId) (name : String) (v : Value) :
    m.GrowsTo (m.define env name v) where
  size_le := by simp [define, updateFrame]
  frame := by
    intro id f hFrame
    rw [define, frame?_updateFrame, hFrame]
    by_cases hHere : env = id
    · rw [if_pos hHere]
      refine ⟨f.define name v, rfl, rfl, ?_⟩
      intro other hBound
      rw [Frame.get?_define]
      split
      · rfl
      · exact hBound
    · rw [if_neg hHere]
      exact ⟨f, rfl, rfl, fun _ h => h⟩

end Machine
end MiniScheme
