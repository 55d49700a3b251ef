import MiniScheme.Machine.Frame

/-!
# Machines

All that evaluation changes: the frames made so far, the first stamp that has
not been given out, and the text displayed. Frames are numbered in the order in
which they are made, so that a parent has a smaller number than its children.

* `Machine.find?` — the nearest frame that binds a name, and the value there;
  reading and assignment both go by it;
* `Machine.visibleNames` — the names bound along the chain of parents;
* `Machine.addFrame`, `Machine.define`, `Machine.set?` — the changes.
-/

namespace MiniScheme

/-- The state of a running program. -/
structure Machine where
  frames : Array Frame
  nextStamp : Stamp
  output : String

namespace Machine

/-- The machine before anything has been made. -/
def empty : Machine := ⟨#[], 0, ""⟩

/-! ## Reading -/

/-- The frame with this number. -/
def frame? (m : Machine) (id : FrameId) : Option Frame := m.frames[id]?

/-- The nearest binding of a name among the first `fuel` frames of a chain. -/
def findWithin (m : Machine) (name : String) : (fuel : Nat) → FrameId → Option (FrameId × Value)
  | 0, _ => none
  | fuel + 1, id =>
    match m.frame? id with
    | none => none
    | some frame =>
      match frame.get? name with
      | some v => some (id, v)
      | none =>
        match frame.parent with
        | some parent => findWithin m name fuel parent
        | none => none

/-- The nearest frame that binds the name, with the value. No chain is longer
than there are frames. -/
def find? (m : Machine) (env : FrameId) (name : String) : Option (FrameId × Value) :=
  m.findWithin name m.frames.size env

/-- The value of a name. -/
def get? (m : Machine) (env : FrameId) (name : String) : Option Value :=
  (m.find? env name).map Prod.snd

/-- The names bound in the first `fuel` frames of a chain, after those already
collected. -/
def namesWithin (m : Machine) (collected : List String) : (fuel : Nat) → FrameId → List String
  | 0, _ => collected
  | fuel + 1, id =>
    match m.frame? id with
    | none => collected
    | some frame =>
      let collected := frame.bindings.names ++ collected
      match frame.parent with
      | some parent => namesWithin m collected fuel parent
      | none => collected

/-- The names that can be seen from a frame, some perhaps more than once. -/
def visibleNames (m : Machine) (env : FrameId) : List String :=
  m.namesWithin [] m.frames.size env

/-! ## Changing -/

/-- Changes one frame. -/
def updateFrame (m : Machine) (id : FrameId) (change : Frame → Frame) : Machine :=
  { m with frames := m.frames.modify id change }

/-- Binds a name in the given frame. -/
def define (m : Machine) (env : FrameId) (name : String) (v : Value) : Machine :=
  m.updateFrame env (Frame.define name v)

/-- Gives a new value to the nearest binding of a name. -/
def set? (m : Machine) (env : FrameId) (name : String) (v : Value) : Option Machine :=
  (m.find? env name).map fun (holder, _) => m.define holder name v

/-- Adds a frame, with its number. -/
def addFrame (m : Machine) (frame : Frame) : FrameId × Machine :=
  (m.frames.size, { m with frames := m.frames.push frame })

/-- Displays a text. -/
def write (m : Machine) (text : String) : Machine := { m with output := m.output ++ text }

/-- The text displayed so far, and the machine with nothing displayed. -/
def takeOutput (m : Machine) : String × Machine := (m.output, { m with output := "" })

/-- Makes the chain of new pairs over the items that ends in `tail`. -/
def chain (m : Machine) (items : List Value) (tail : Value) : Value × Machine :=
  (.chain m.nextStamp items tail, { m with nextStamp := m.nextStamp + items.length })

/-- Makes a value of new pairs out of a datum. -/
def load (m : Machine) (d : Datum) : Value × Machine :=
  let (v, next) := Value.ofDatum m.nextStamp d
  (v, { m with nextStamp := next })

/-- Makes the values of some data, in order. -/
def loadAll (m : Machine) : List Datum → List Value × Machine
  | [] => ([], m)
  | d :: ds =>
    let (v, m) := m.load d
    let (vs, m) := m.loadAll ds
    (v :: vs, m)

/-- Binds a new built-in procedure to its name. -/
def defineBuiltin (m : Machine) (env : FrameId) (b : Builtin) : Machine :=
  { m with nextStamp := m.nextStamp + 1 }.define env b.name (.builtin m.nextStamp b)

/-- Adds a global frame that binds the given built-in procedures to their
names. -/
def addGlobal (m : Machine) (builtins : List Builtin) : FrameId × Machine :=
  let bindings := builtins.zipIdx.map fun (b, i) => (b.name, Value.builtin (m.nextStamp + i) b)
  { m with nextStamp := m.nextStamp + builtins.length }.addFrame ⟨none, bindings⟩

end Machine
end MiniScheme
