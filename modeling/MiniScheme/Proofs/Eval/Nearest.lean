import MiniScheme.Proofs.Eval.History

/-!
# The nearest binding

Reading a name, giving it another value and listing the names are three walks along
the same row of frames. The first two stop at the first frame that binds the name,
and the third goes on to the end. What matters to a frame is therefore the nearest
frame that binds a name, and a change is seen from the frames for which the changed
binding is the nearest one, and from no others.

* `Machine.Unshadowed`, `Machine.Nearest` — no frame on the way binds the name, the
  frame there does;
* `Chain.set?_eq`, `Chain.mem_visibleNames_iff` — assignment as a walk of its own,
  listing against reading;
* `find?_of_frame` — one step of a lookup: in the frame itself, or else in its parent;
* `find?_eq_some_iff` — a lookup finds the nearest binding;
* `Machine.Shows`, `define_shows`, `set?_shows` — who sees a change;
* `lookup_assignment_listing_agree` — all this at every point of a session.
-/

namespace MiniScheme

/-! ## Names of bindings -/

namespace Bindings

/-- A name has a value if it is among the names. -/
theorem lookup_isSome_iff (bs : Bindings) (name : String) :
    (bs.lookup name).isSome ↔ name ∈ bs.names := by
  induction bs with
  | nil => simp [names]
  | cons b bs ih =>
    obtain ⟨n, w⟩ := b
    have hNames : Bindings.names ((n, w) :: bs) = n :: Bindings.names bs := rfl
    rw [List.lookup_cons, hNames, List.mem_cons, ← ih]
    by_cases hFront : name = n
    · simp [hFront]
    · simp [hFront, beq_eq_false_iff_ne.mpr hFront]

/-- A new value takes the place of the old one, and nothing else moves. -/
theorem names_replace (bs : Bindings) (name : String) (v : Value) :
    (bs.replace name v).names = bs.names := by
  have hSame : ∀ b : String × Value, (if b.1 = name then (b.1, v) else (b.1, b.2)).1 = b.1 := by
    intro b
    split <;> rfl
  simp only [names, replace, List.map_map]
  exact List.map_congr_left fun b _ => hSame b

/-- Defining a name that is bound replaces its value. -/
theorem define_of_bound {bs : Bindings} {name : String} (h : (bs.lookup name).isSome) (v : Value) :
    bs.define name v = bs.replace name v := by
  rw [define, if_pos h]

end Bindings

namespace Machine

/-! ## The nearest frame that binds a name -/

/-- From the first frame the parents lead to the second one, and no frame before that
one binds the name. -/
inductive Unshadowed (m : Machine) (name : String) : FrameId → FrameId → Prop
  | here {id : FrameId} {f : Frame} (hFrame : m.frame? id = some f) : Unshadowed m name id id
  | up {id up target : FrameId} {f : Frame} (hFrame : m.frame? id = some f)
      (hParent : f.parent = some up) (hUnbound : f.get? name = none)
      (h : Unshadowed m name up target) : Unshadowed m name id target

/-- The second frame binds the name to the value, and for the first one no binding of the
name is nearer. -/
structure Nearest (m : Machine) (name : String) (id holder : FrameId) (v : Value) : Prop where
  unshadowed : m.Unshadowed name id holder
  bound : ∃ f, m.frame? holder = some f ∧ f.get? name = some v

/-- The machine with another value for the name in this very frame, if the frame binds
it. -/
def assignIn (m : Machine) (name : String) (v : Value) (id : FrameId) : Option Machine :=
  ((m.frame? id).bind (·.get? name)).map fun _ =>
    m.updateFrame id fun f => { f with bindings := f.bindings.replace name v }

/-- Of all bindings only that of the name in the frame `holder` has another value. -/
structure Reassigns (m : Machine) (holder : FrameId) (name : String) (v : Value) (n : Machine) :
    Prop where
  size_eq : n.frames.size = m.frames.size
  nextStamp_eq : n.nextStamp = m.nextStamp
  output_eq : n.output = m.output
  frame : ∀ id f, m.frame? id = some f → ∃ g, n.frame? id = some g ∧ g.parent = f.parent ∧
    g.bindings.names = f.bindings.names ∧
    ∀ other, g.get? other = if id = holder ∧ other = name then some v else f.get? other

/-- From the frames that see it the name has the given value in the second machine; apart
from that, lookups find what they find in the first one. -/
structure Shows (m n : Machine) (name : String) (v : Value) (sees : FrameId → Prop) : Prop where
  seen : ∀ id, sees id → n.get? id name = some v
  unseen : ∀ id < m.frames.size, ¬ sees id → n.get? id name = m.get? id name
  others : ∀ id < m.frames.size, ∀ other, other ≠ name → n.get? id other = m.get? id other

variable {m : Machine} {id holder env : FrameId} {ids : List FrameId} {f : Frame}
  {name other : String} {v w : Value}

/-- Only what is made of the frame itself counts. -/
theorem updateFrame_congr {change change' : Frame → Frame} (hFrame : m.frame? id = some f)
    (h : change f = change' f) : m.updateFrame id change = m.updateFrame id change' := by
  have hFrames : m.frames.modify id change = m.frames.modify id change' := by
    refine Array.ext_getElem? fun i => ?_
    rw [Array.getElem?_modify, Array.getElem?_modify]
    split
    · rename_i hHere
      subst hHere
      rw [show m.frames[id]? = some f from hFrame, Option.map_some, Option.map_some, h]
    · rfl
  rw [updateFrame, updateFrame, hFrames]

/-! ## Walks along a row -/

namespace Chain

/-- A lookup takes the first value along the row. -/
theorem get?_eq (h : m.ParentsOlder) (hChain : m.Chain id ids) (name : String) :
    m.get? id name = ids.findSome? fun id => (m.frame? id).bind (·.get? name) := by
  rw [get?, hChain.find?_eq h, List.map_findSome?]
  congr 1
  funext id
  rw [Function.comp_apply, bindingIn, Option.map_map]
  exact Option.map_id'

/-- A listing has the names that a lookup finds. -/
theorem mem_visibleNames_iff (h : m.ParentsOlder) (hChain : m.Chain id ids) (name : String) :
    name ∈ m.visibleNames id ↔ (m.get? id name).isSome := by
  have hIn : ∀ id, name ∈ m.namesIn id ↔ ((m.frame? id).bind (·.get? name)).isSome := by
    intro id
    rw [namesIn]
    cases m.frame? id with
    | none => simp
    | some f => exact (f.bindings.lookup_isSome_iff name).symm
  rw [hChain.visibleNames_eq h, hChain.get?_eq h, List.findSome?_isSome_iff]
  simp [hIn]

/-- An assignment changes the first frame along the row that binds the name. -/
theorem set?_eq (h : m.ParentsOlder) (hChain : m.Chain id ids) (name : String) (v : Value) :
    m.set? id name v = ids.findSome? (m.assignIn name v) := by
  -- where a name is bound, to define it is to replace its value
  have hIn : ∀ id, (m.bindingIn name id).map (fun b => m.define b.1 name v) =
      m.assignIn name v id := by
    intro id
    rw [bindingIn, assignIn, Option.map_map]
    cases hFrame : m.frame? id with
    | none => rfl
    | some f =>
      rw [Option.bind_some]
      cases hBound : f.get? name with
      | none => rfl
      | some w =>
        have hSome : (f.bindings.lookup name).isSome := by
          rw [Frame.get?] at hBound
          rw [hBound]
          rfl
        have hDefine : f.define name v = { f with bindings := f.bindings.replace name v } := by
          rw [Frame.define, Bindings.define_of_bound hSome]
        exact congrArg some (updateFrame_congr hFrame hDefine)
  rw [set?, hChain.find?_eq h, List.map_findSome?]
  congr 1
  funext id
  exact hIn id

end Chain

/-! ## One step of a lookup -/

/-- A lookup looks into the frame, and then goes on from its parent. -/
theorem find?_of_frame (h : m.ParentsOlder) (hFrame : m.frame? id = some f) (name : String) :
    m.find? id name =
      ((f.get? name).map fun v => (id, v)).or (f.parent.bind fun up => m.find? up name) := by
  have hMade : id < m.frames.size := (m.frame?_isSome_iff id).mp ⟨f, hFrame⟩
  obtain ⟨ids, hChain⟩ := exists_chain h hMade
  have hHere : m.bindingIn name id = (f.get? name).map fun v => (id, v) := by
    rw [bindingIn, hFrame, Option.bind_some]
  rw [hChain.find?_eq h]
  cases hChain with
  | @root _ g hFrame' hParent =>
    cases hFrame.symm.trans hFrame'
    rw [List.findSome?_cons, hHere, hParent]
    cases f.get? name <;> rfl
  | @child _ up g rest hFrame' hParent hRest =>
    cases hFrame.symm.trans hFrame'
    rw [List.findSome?_cons, hHere, hParent, Option.bind_some, hRest.find?_eq h]
    cases f.get? name <;> rfl

/-- A name is bound in its frame, or else as above it. -/
theorem get?_of_frame (h : m.ParentsOlder) (hFrame : m.frame? id = some f) (name : String) :
    m.get? id name = (f.get? name).or (f.parent.bind fun up => m.get? up name) := by
  rw [get?, find?_of_frame h hFrame]
  cases f.get? name with
  | some v => rfl
  | none =>
    cases f.parent <;> rfl

/-- Only from a frame that has been made something is found. -/
theorem made_of_find? (h : m.find? id name = some (holder, v)) : id < m.frames.size := by
  refine (m.frame?_isSome_iff id).mp ?_
  cases hFrame : m.frame? id with
  | some f => exact ⟨f, rfl⟩
  | none =>
    -- whatever the fuel, the walk ends before it begins
    have hNone : ∀ fuel, m.findWithin name fuel id = none := by
      intro fuel
      cases fuel with
      | zero => rfl
      | succ fuel => rw [findWithin, hFrame]
    rw [find?, hNone] at h
    cases h

/-! ## Lookups find the nearest binding -/

/-- The nearest frame that binds a name is found. -/
theorem Nearest.find?_eq (hOlder : m.ParentsOlder) (h : m.Nearest name id holder v) :
    m.find? id name = some (holder, v) := by
  obtain ⟨hWay, g, hHolder, hBound⟩ := h
  induction hWay with
  | here hFrame =>
    rw [find?_of_frame hOlder hHolder, hBound]
    rfl
  | @up id up target f hFrame hParent hUnbound hWay ih =>
    rw [find?_of_frame hOlder hFrame, hUnbound, hParent]
    exact ih hHolder

/-- A lookup finds the nearest binding. -/
theorem find?_eq_some_iff (hOlder : m.ParentsOlder) :
    m.find? id name = some (holder, v) ↔ m.Nearest name id holder v := by
  constructor
  · intro hFound
    obtain ⟨ids, hChain⟩ := exists_chain hOlder (made_of_find? hFound)
    -- along the row, until a frame binds the name
    induction hChain with
    | @root id f hFrame hParent =>
      rw [find?_of_frame hOlder hFrame, hParent] at hFound
      cases hBound : f.get? name with
      | none =>
        rw [hBound] at hFound
        cases hFound
      | some w =>
        rw [hBound] at hFound
        cases hFound
        exact ⟨.here hFrame, f, hFrame, hBound⟩
    | @child id up f ids hFrame hParent hRest ih =>
      rw [find?_of_frame hOlder hFrame, hParent] at hFound
      cases hBound : f.get? name with
      | none =>
        rw [hBound] at hFound
        have hNear : m.Nearest name up holder v := ih hFound
        exact ⟨.up hFrame hParent hBound hNear.unshadowed, hNear.bound⟩
      | some w =>
        rw [hBound] at hFound
        cases hFound
        exact ⟨.here hFrame, f, hFrame, hBound⟩
  · exact fun h => h.find?_eq hOlder

/-- A name has the value that the nearest frame binds it to, and no other. -/
theorem get?_eq_some_iff (hOlder : m.ParentsOlder) :
    m.get? id name = some v ↔ ∃ holder, m.Nearest name id holder v := by
  rw [get?, Option.map_eq_some_iff]
  constructor
  · rintro ⟨⟨holder, w⟩, hFound, rfl⟩
    exact ⟨holder, (find?_eq_some_iff hOlder).mp hFound⟩
  · rintro ⟨holder, hNear⟩
    exact ⟨(holder, v), hNear.find?_eq hOlder, rfl⟩

/-! ## Who sees a change -/

/-- A definition keeps every frame but for one value. -/
theorem exists_frame_defined (env : FrameId) (name : String) (v : Value)
    (hFrame : m.frame? id = some f) :
    ∃ g, (m.define env name v).frame? id = some g ∧ g.parent = f.parent ∧
      ∀ other, g.get? other = if id = env ∧ other = name then some v else f.get? other := by
  rw [define, frame?_updateFrame, hFrame, Option.map_some]
  by_cases hHere : env = id
  · refine ⟨f.define name v, if_pos hHere, rfl, fun other => ?_⟩
    rw [Frame.get?_define]
    simp [hHere]
  · refine ⟨f, if_neg hHere, rfl, fun other => ?_⟩
    rw [if_neg fun h => hHere h.1.symm]

theorem parentsOlder_define (h : m.ParentsOlder) (env : FrameId) (name : String) (v : Value) :
    (m.define env name v).ParentsOlder := by
  intro id g up hFrame hParent
  obtain ⟨f, hFrame', hSame, -⟩ := exists_frame_of_define hFrame
  exact h id f up hFrame' (hSame ▸ hParent)

/-- One step of a lookup after a definition. -/
theorem get?_define_of_frame (hOlder : m.ParentsOlder) (hFrame : m.frame? id = some f)
    (env : FrameId) (name : String) (v : Value) (other : String) :
    (m.define env name v).get? id other =
      (if id = env ∧ other = name then some v else f.get? other).or
        (f.parent.bind fun up => (m.define env name v).get? up other) := by
  obtain ⟨g, hFrame', hParent, hGet⟩ := exists_frame_defined env name v hFrame
  rw [get?_of_frame (parentsOlder_define hOlder env name v) hFrame', hGet, hParent]

/-- A definition is seen from the frames from which the way to it is free, and from no
others. -/
theorem define_shows (hOlder : m.ParentsOlder) (env : FrameId) (name : String) (v : Value) :
    m.Shows (m.define env name v) name v (m.Unshadowed name · env) := by
  constructor
  · -- along the way, where nothing binds the name before `env`
    intro id hWay
    induction hWay with
    | here hFrame =>
      rw [get?_define_of_frame hOlder hFrame, if_pos ⟨rfl, rfl⟩]
      rfl
    | up hFrame hParent hUnbound hWay ih =>
      rw [get?_define_of_frame hOlder hFrame, hParent, hUnbound]
      split
      · rfl
      · exact ih
  · -- along the row, where the first binding comes before `env`, if `env` comes at all
    intro id hMade hHidden
    obtain ⟨ids, hChain⟩ := exists_chain hOlder hMade
    induction hChain with
    | @root id f hFrame hParent =>
      have hElsewhere : id ≠ env := by
        rintro rfl
        exact hHidden (.here hFrame)
      rw [get?_define_of_frame hOlder hFrame, get?_of_frame hOlder hFrame, hParent,
        if_neg fun h => hElsewhere h.1]
      rfl
    | @child id up f ids hFrame hParent hRest ih =>
      have hElsewhere : id ≠ env := by
        rintro rfl
        exact hHidden (.here hFrame)
      rw [get?_define_of_frame hOlder hFrame, get?_of_frame hOlder hFrame, hParent,
        if_neg fun h => hElsewhere h.1]
      cases hBound : f.get? name with
      | some w => rfl
      | none =>
        have hHidden' : ¬ m.Unshadowed name up env :=
          fun hWay => hHidden (.up hFrame hParent hBound hWay)
        exact ih hRest.lt_size hHidden'
  · -- along the row, where every frame has the same values of other names
    intro id hMade other hOther
    obtain ⟨ids, hChain⟩ := exists_chain hOlder hMade
    induction hChain with
    | @root id f hFrame hParent =>
      rw [get?_define_of_frame hOlder hFrame, get?_of_frame hOlder hFrame, hParent,
        if_neg fun h => hOther h.2]
      rfl
    | @child id up f ids hFrame hParent hRest ih =>
      rw [get?_define_of_frame hOlder hFrame, get?_of_frame hOlder hFrame, hParent,
        if_neg fun h => hOther h.2, Option.bind_some, Option.bind_some, ih hRest.lt_size]

/-- Where the name is bound, a definition changes its value and nothing else. -/
theorem define_reassigns (hBound : ∃ f, m.frame? holder = some f ∧ f.get? name = some w)
    (v : Value) : m.Reassigns holder name v (m.define holder name v) := by
  obtain ⟨f, hHolder, hOld⟩ := hBound
  refine ⟨by simp [define, updateFrame], rfl, rfl, fun id g hFrame => ?_⟩
  obtain ⟨g', hFrame', hParent, hGet⟩ := exists_frame_defined holder name v hFrame
  refine ⟨g', hFrame', hParent, ?_, hGet⟩
  rw [define, frame?_updateFrame, hFrame] at hFrame'
  split at hFrame'
  · rename_i hHere
    subst hHere
    cases hFrame.symm.trans hHolder
    cases hFrame'
    have hSome : (f.bindings.lookup name).isSome := by
      rw [show f.bindings.lookup name = some w from hOld]
      rfl
    rw [Frame.define, Bindings.define_of_bound hSome, Bindings.names_replace]
  · cases hFrame'
    rfl

/-- An assignment that succeeds changes the binding that a lookup finds, and the frames
for which that one is the nearest see it. -/
theorem set?_shows {n : Machine} (hOlder : m.ParentsOlder) (h : m.set? env name v = some n) :
    ∃ holder w, m.Nearest name env holder w ∧ m.Reassigns holder name v n ∧
      m.Shows n name v fun id => ∃ w, m.Nearest name id holder w := by
  obtain ⟨⟨holder, w⟩, hFound, rfl⟩ := Option.map_eq_some_iff.mp h
  have hNear : m.Nearest name env holder w := (find?_eq_some_iff hOlder).mp hFound
  have hShows := define_shows hOlder holder name v
  refine ⟨holder, w, hNear, define_reassigns hNear.bound v, ?_, ?_, hShows.others⟩
  · rintro id ⟨w', hNear'⟩
    exact hShows.seen id hNear'.unshadowed
  · intro id hMade hHidden
    exact hShows.unseen id hMade fun hWay => hHidden ⟨w, hWay, hNear.bound⟩

end Machine

/-! ## Lookup, assignment and listing -/

open Machine

namespace Eval

/-- A lookup that succeeds leaves the machine as it is, and its value is the one bound. -/
theorem lookup_eq_value_iff {m : Machine} {env : FrameId} {name : String} {w : Value} :
    lookup env name m = .value w m ↔ m.get? env name = some w := by
  rw [lookup]
  cases m.get? env name with
  | none => simp
  | some v => simp

/-- An assignment succeeds where the name is bound, and changes the value there. -/
theorem assign_eq_value_iff {m n : Machine} {env : FrameId} {name : String} {v : Value} :
    assign env name v m = .value () n ↔ m.set? env name v = some n := by
  rw [assign]
  cases m.set? env name v with
  | none => simp
  | some m' => simp

end Eval

/-- **Lookup, assignment and listing agree.** At every point of a session a name can be
read from a frame if and only if it can be assigned to from there, and if and only if it
is listed: the three are walks along the same row. Reading gives the value of the nearest
binding. An assignment changes the value of that one binding, and this is seen from the
frames for which it is the nearest one; if there is none, nothing changes. A definition
is seen from the frames from which no other frame that binds the name comes before it. -/
theorem lookup_assignment_listing_agree {m : Machine}
    (hm : Relation.ReflTransGen Event populated m) {env : FrameId} (hMade : env < m.frames.size)
    (name : String) (v : Value) :
    (∃ ids, m.Chain env ids ∧
      m.get? env name = ids.findSome? (fun id => (m.frame? id).bind (·.get? name)) ∧
      m.set? env name v = ids.findSome? (m.assignIn name v) ∧
      m.visibleNames env = (ids.reverse.map m.namesIn).flatten) ∧
    ((∃ w, Eval.lookup env name m = .value w m) ↔ name ∈ m.visibleNames env) ∧
    ((∃ n, Eval.assign env name v m = .value () n) ↔ name ∈ m.visibleNames env) ∧
    (∀ w, Eval.lookup env name m = .value w m ↔ ∃ holder, m.Nearest name env holder w) ∧
    (∀ n, Eval.assign env name v m = .value () n →
      ∃ holder w, m.Nearest name env holder w ∧ m.Reassigns holder name v n ∧
        m.Shows n name v fun id => ∃ w, m.Nearest name id holder w) ∧
    (name ∉ m.visibleNames env → Eval.assign env name v m = .failure (.unboundVariable name) m) ∧
    m.Shows (m.define env name v) name v (m.Unshadowed name · env) := by
  obtain ⟨-, hObeys⟩ := events_keep hm (populated_obeys fun _ _ => trivial)
  have hOlder : m.ParentsOlder := hObeys.parents_older
  -- Lookup, assignment and listing all walk along the one row of frames.
  obtain ⟨ids, hChain⟩ := exists_chain hOlder hMade
  have hListed : name ∈ m.visibleNames env ↔ (m.get? env name).isSome :=
    hChain.mem_visibleNames_iff hOlder name
  have hAssigned : (m.set? env name v).isSome ↔ (m.get? env name).isSome := by
    rw [set?, get?, Option.isSome_map, Option.isSome_map]
  refine ⟨⟨ids, hChain, hChain.get?_eq hOlder name, hChain.set?_eq hOlder name v,
    hChain.visibleNames_eq hOlder⟩, ?_, ?_, ?_, ?_, ?_, define_shows hOlder env name v⟩
  · simp only [Eval.lookup_eq_value_iff]
    rw [hListed, Option.isSome_iff_exists]
  · simp only [Eval.assign_eq_value_iff]
    rw [hListed, ← hAssigned, Option.isSome_iff_exists]
  · intro w
    rw [Eval.lookup_eq_value_iff, get?_eq_some_iff hOlder]
  · intro n hSet
    exact set?_shows hOlder (Eval.assign_eq_value_iff.mp hSet)
  · intro hUnlisted
    have hNone : m.set? env name v = none := by
      rw [← Option.not_isSome_iff_eq_none, hAssigned, ← hListed]
      exact hUnlisted
    rw [Eval.assign, hNone]

/-- `x` is bound in a global frame and not in its child. An assignment from the child changes
it, and what else can be read from there stays the same. -/
theorem lookup_assignment_listing_agree_child :
    let m : Machine := (populated.addFrame ⟨some 0, []⟩).2.define 0 "x" .nil
    let n : Machine := m.define 0 "x" (.boolean true)
    Eval.assign 1 "x" (.boolean true) m = .value () n ∧ "x" ∈ m.visibleNames 1 ∧
      (∃ holder, m.Nearest "x" 1 holder .nil) ∧ n.get? 1 "x" = some (.boolean true) ∧
      n.get? 1 "car" = m.get? 1 "car" := by
  intro m n
  have hParent : ∀ up, some 0 = some up → up < populated.frames.size := by
    rintro up ⟨⟩
    decide
  have hFrame : Relation.ReflTransGen Event populated (populated.addFrame ⟨some 0, []⟩).2 :=
    .single (.frame (some 0) hParent)
  have hm : Relation.ReflTransGen Event populated m := hFrame.tail (.define 0 "x" (.atom _))
  have hMade : 1 < m.frames.size := by decide
  have hEnd : Eval.assign 1 "x" (.boolean true) m = .value () n := rfl
  obtain ⟨-, -, hAssigned, hNearest, hSet, -⟩ :=
    lookup_assignment_listing_agree hm hMade "x" (.boolean true)
  obtain ⟨holder, w, hNear, -, hShows⟩ := hSet n hEnd
  refine ⟨hEnd, hAssigned.mp ⟨n, hEnd⟩, (hNearest .nil).mp rfl, hShows.seen 1 ⟨w, hNear⟩, ?_⟩
  exact hShows.others 1 hMade "car" (by decide)

end MiniScheme
