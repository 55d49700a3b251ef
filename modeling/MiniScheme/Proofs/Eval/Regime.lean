import MiniScheme.Proofs.Eval.Guarded
import MiniScheme.Proofs.Machine.Chain
import MiniScheme.Proofs.Procedure.WellFormed

/-!
# Regimes

A regime says what the values of a session are made of: which built-in procedures
there are, what procedures may look like, whether environments are among the
values, and with which errors an evaluation may fail. In every regime the frames
that values keep have been made, and parents are older than their children.

* `Regime.free` — anything goes; `Regime.programs` — what programs can make of
  what they read;
* `Value.Obeys`, `Machine.Obeys` — the regime is kept by a value, by a machine;
* `Eval.Keeps` — a computation keeps the machine within the regime and only lets it
  grow, and guarded evaluation gives the same answer;
* `Keeps.bind` — one computation after another;
* `lookup_keeps`, `makeChildFrame_keeps`, … — the steps that evaluation is made of.
-/

namespace MiniScheme

/-- Does the failure come from a contract within the evaluator, and not from the
program? -/
def EvalError.breaksContract : EvalError → Bool
  | .emptyBody _ => true
  | .missingArgument _ => true
  | .negativeLevel => true
  | .typeMismatch _ .environment _ => true
  | _ => false

/-- What the values of a session are made of, and how its evaluations may fail. -/
structure Regime where
  builtin : Builtin → Prop
  /-- What may be the parameters and the body of a procedure. -/
  procedure : Formals → Value → Prop
  /-- Are environments among the values? -/
  environments : Prop
  failure : EvalError → Prop
  /-- What the forms make is allowed. -/
  procedure_of_made : ∀ {formals body}, formals.names.Nodup → body.isBody → procedure formals body
  /-- The failures that programs bring about are allowed. -/
  failure_of_ordinary : ∀ {e}, e.breaksContract = false → failure e
  /-- Either nothing is forbidden that goes wrong within the evaluator, or nothing
  is allowed that could make it go wrong. -/
  free_or_safe : (environments ∧ ∀ e, failure e) ∨
    ((∀ {formals body}, procedure formals body → body.isBody) ∧
      ∀ {b}, builtin b → b ∈ Builtin.standard)

namespace Regime

/-- Anything goes. -/
def free : Regime where
  builtin _ := True
  procedure _ _ := True
  environments := True
  failure _ := True
  procedure_of_made _ _ := trivial
  failure_of_ordinary _ := trivial
  free_or_safe := .inl ⟨trivial, fun _ => trivial⟩

/-- What programs can make of what they read, with the built-in procedures of a
populated global frame. -/
def programs : Regime where
  builtin b := b ∈ Builtin.standard
  procedure formals body := formals.names.Nodup ∧ body.isBody
  environments := False
  failure e := e.breaksContract = false
  procedure_of_made hNodup hBody := ⟨hNodup, hBody⟩
  failure_of_ordinary h := h
  free_or_safe := .inr ⟨fun h => h.2, fun h => h⟩

end Regime

variable {r : Regime} {made made' : Nat}

/-! ## Values -/

/-- The frame that a procedure of this kind keeps has been made. -/
def CompoundKind.Within (made : Nat) : CompoundKind → Prop
  | .lambda home => home < made
  | .mu | .transformer => True

theorem CompoundKind.Within.mono {kind : CompoundKind} (h : kind.Within made) (hLe : made ≤ made') :
    kind.Within made' := by
  cases kind with
  | lambda home => exact Nat.lt_of_lt_of_le h hLe
  | _ => trivial

namespace Value

/-- All parts of the value are allowed, where that many frames have been made. -/
inductive Obeys (r : Regime) (made : Nat) : Value → Prop
  | atom (a : Atom) : Obeys r made (.atom a)
  | undefined : Obeys r made .undefined
  | pair {s : Stamp} {first rest : Value} (hFirst : Obeys r made first)
      (hRest : Obeys r made rest) :
      Obeys r made (.pair s first rest)
  | builtin {s : Stamp} {b : Builtin} (hBuiltin : r.builtin b) : Obeys r made (.builtin s b)
  | compound {s : Stamp} {kind : CompoundKind} {formals : Formals} {body : Value}
      (hKind : kind.Within made) (hProcedure : r.procedure formals body)
      (hBody : Obeys r made body) :
      Obeys r made (.compound s kind formals body)
  | environment {id : FrameId} (hAllowed : r.environments) (hFrame : id < made) :
      Obeys r made (.environment id)

/-- All the values obey. -/
abbrev AllObey (r : Regime) (made : Nat) (vs : List Value) : Prop := ∀ v ∈ vs, v.Obeys r made

namespace Obeys

variable {v tail : Value} {vs : List Value}

/-- More frames do no harm. -/
theorem mono (h : v.Obeys r made) (hLe : made ≤ made') : v.Obeys r made' := by
  induction h with
  | atom a => exact .atom a
  | undefined => exact .undefined
  | pair hFirst hRest ihFirst ihRest => exact .pair ihFirst ihRest
  | builtin hBuiltin => exact .builtin hBuiltin
  | compound hKind hProcedure hBody ih => exact .compound (hKind.mono hLe) hProcedure ih
  | environment hAllowed hFrame => exact .environment hAllowed (Nat.lt_of_lt_of_le hFrame hLe)

/-- The items of a value that obeys obey. -/
theorem items (h : v.Obeys r made) : AllObey r made v.items := by
  induction h with
  | pair hFirst hRest ihFirst ihRest =>
    rw [items_pair]
    exact List.forall_mem_cons.mpr ⟨hFirst, ihRest⟩
  | _ => exact nofun

/-- The items of a list that obeys obey. -/
theorem of_toList? (h : v.Obeys r made) (hList : v.toList? = some vs) : AllObey r made vs := by
  unfold toList? at hList
  split at hList
  · cases hList
    exact h.items
  · cases hList

/-- A chain of values that obey, built from its end, obeys. -/
theorem chainOfReverse {next : Stamp} (hs : AllObey r made vs) (h : tail.Obeys r made) :
    (chainOfReverse next tail vs).Obeys r made := by
  induction vs generalizing next tail with
  | nil => exact h
  | cons v vs ih =>
    obtain ⟨hLast, hBefore⟩ := List.forall_mem_cons.mp hs
    exact ih hBefore (.pair hLast h)

theorem chain {next : Stamp} (hs : AllObey r made vs) (h : tail.Obeys r made) :
    (chain next vs tail).Obeys r made := by
  refine chainOfReverse ?_ h
  intro v hMem
  exact hs v (List.mem_reverse.mp hMem)

/-- The operands of a spliced element that obeys obey. -/
theorem of_spliced {operands : Value} (h : v.Obeys r made)
    (hSome : splicedOperands? v = some operands) : operands.Obeys r made := by
  unfold splicedOperands? at hSome
  split at hSome
  · cases hSome
    cases h with
    | pair hFirst hRest => exact hRest
  · cases hSome

/-- What is read obeys every regime. -/
theorem ofDatum (next : Stamp) (d : Datum) : (ofDatum next d).1.Obeys r made := by
  induction d generalizing next with
  | atom a => exact .atom a
  | pair first rest ihFirst ihRest => exact .pair (ihFirst _) (ihRest _)

end Obeys

theorem AllObey.mono {vs : List Value} (h : AllObey r made vs) (hLe : made ≤ made') :
    AllObey r made' vs :=
  fun v hMem => (h v hMem).mono hLe

end Value

open Value (AllObey)

/-! ## Machines -/

/-- All the bound values obey. -/
def Bindings.Obey (r : Regime) (made : Nat) (bs : Bindings) : Prop :=
  ∀ name v, (name, v) ∈ bs → v.Obeys r made

/-- Names are bound to arguments that obey. -/
theorem Formals.bindings_obey (formals : Formals) {args : List Value} (h : AllObey r made args) :
    Bindings.Obey r made (formals.bindings args) := by
  intro name v hMem
  obtain hArg | hNone := List.mem_append.mp (List.of_mem_zip hMem).2
  · exact h v hArg
  · -- an optional name for which there is no argument
    rw [List.eq_of_mem_replicate hNone]
    exact .undefined

namespace Machine

/-- The machine is within the regime. -/
structure Obeys (r : Regime) (m : Machine) : Prop where
  parents_older : m.ParentsOlder
  bound : ∀ id f, m.frame? id = some f → f.bindings.Obey r m.frames.size

namespace Obeys

variable {m : Machine} {v : Value}

theorem get? (h : m.Obeys r) {env : FrameId} {name : String} (hFound : m.get? env name = some v) :
    v.Obeys r m.frames.size := by
  obtain ⟨⟨holder, w⟩, hFind, rfl⟩ := Option.map_eq_some_iff.mp hFound
  obtain ⟨f, hFrame, hBound⟩ := exists_frame_of_findWithin hFind
  exact h.bound holder f hFrame name w hBound

/-- A machine that obeys still does when a name is bound to a value that obeys. -/
theorem define (h : m.Obeys r) (env : FrameId) (name : String) (hv : v.Obeys r m.frames.size) :
    (m.define env name v).Obeys r := by
  have hSize : (m.define env name v).frames.size = m.frames.size := by
    simp [Machine.define, updateFrame]
  constructor
  · intro id g up hFrame hParent
    obtain ⟨f, hFrame', hSame, -⟩ := exists_frame_of_define hFrame
    exact h.parents_older id f up hFrame' (hSame ▸ hParent)
  · intro id g hFrame n w hMem
    rw [hSize]
    obtain ⟨f, hFrame', -, hBindings⟩ := exists_frame_of_define hFrame
    obtain hNew | hOld := hBindings (n, w) hMem
    · cases hNew
      exact hv
    · exact h.bound id f hFrame' n w hOld

/-- A machine that obeys still does with a new frame whose parent has been made and whose
values obey. -/
theorem addFrame (h : m.Obeys r) {f : Frame}
    (hParent : ∀ up, f.parent = some up → up < m.frames.size)
    (hBound : f.bindings.Obey r m.frames.size) : (m.addFrame f).2.Obeys r := by
  have hSize : (m.addFrame f).2.frames.size = m.frames.size + 1 := Array.size_push f
  -- the new frame is one thing, what the others keep another
  constructor
  · intro id g up hFrame hUp
    rw [frame?_addFrame] at hFrame
    split at hFrame
    · rename_i hNew
      cases hFrame
      rw [hNew]
      exact hParent up hUp
    · exact h.parents_older id g up hFrame hUp
  · intro id g hFrame name v hMem
    rw [hSize]
    rw [frame?_addFrame] at hFrame
    split at hFrame
    · cases hFrame
      exact (hBound name v hMem).mono (Nat.le_succ _)
    · exact (h.bound id g hFrame name v hMem).mono (Nat.le_succ _)

/-- Only the frames count. -/
theorem of_frames_eq (h : m.Obeys r) {n : Machine} (hFrames : n.frames = m.frames) : n.Obeys r where
  parents_older := by
    intro id f up hFrame
    rw [frame?, hFrames] at hFrame
    exact h.parents_older id f up hFrame
  bound := by
    intro id f hFrame
    rw [frame?, hFrames] at hFrame
    rw [hFrames]
    exact h.bound id f hFrame

end Obeys

end Machine

/-! ## Computations -/

/-- What is required holds of the result, or the error is one that programs bring
about. -/
inductive Except.Ordinary {α : Type} (holds : α → Prop) : Except EvalError α → Prop
  | ok {a : α} (h : holds a) : Ordinary holds (.ok a)
  | error {e : EvalError} (h : e.breaksContract = false) : Ordinary holds (.error e)

theorem Except.Ordinary.imp {α : Type} {holds holds' : α → Prop} {x : Except EvalError α}
    (h : Except.Ordinary holds x) (himp : ∀ a, holds a → holds' a) : Except.Ordinary holds' x := by
  cases h with
  | ok h => exact .ok (himp _ h)
  | error h => exact .error h

/-- Ordinary computations are ordinary one after the other. -/
theorem Except.Ordinary.bind {α β : Type} {holds : α → Prop} {holds' : β → Prop}
    {x : Except EvalError α} {f : α → Except EvalError β} (h : Except.Ordinary holds x)
    (hf : ∀ a, holds a → Except.Ordinary holds' (f a)) : Except.Ordinary holds' (x >>= f) := by
  cases h with
  | ok h => exact hf _ h
  | error h => exact .error h

/-- The machine has only grown and is within the regime, and so is what the
computation ends with. -/
inductive Answer.Keeps {α : Type} (r : Regime) (m : Machine) (holds : Nat → α → Prop) :
    Answer α → Prop
  | value {a : α} {n : Machine} (hGrows : m.GrowsTo n) (hObeys : n.Obeys r)
      (hValue : holds n.frames.size a) : Keeps r m holds (.value a n)
  | failure {e : EvalError} {n : Machine} (hGrows : m.GrowsTo n) (hObeys : n.Obeys r)
      (hFailure : r.failure e) : Keeps r m holds (.failure e n)
  | outOfFuel : Keeps r m holds .outOfFuel

/-- What is kept from a machine on is kept from every machine before it. -/
theorem Answer.Keeps.of_growsTo {α : Type} {m n : Machine} {holds : Nat → α → Prop} {a : Answer α}
    (h : a.Keeps r n holds) (hGrows : m.GrowsTo n) : a.Keeps r m holds := by
  cases h with
  | value hGrows' hObeys hValue => exact .value (hGrows.trans hGrows') hObeys hValue
  | failure hGrows' hObeys hFailure => exact .failure (hGrows.trans hGrows') hObeys hFailure
  | outOfFuel => exact .outOfFuel

namespace Eval

/-- Where at least that many frames have been made, the computation keeps the
machine within the regime, and the guarded one gives the same answer. Of its value
something holds that depends on how many frames there are then. -/
def Keeps {α : Type} (r : Regime) (made : Nat) (holds : Nat → α → Prop) (guarded plain : Eval α) :
    Prop :=
  ∀ m, m.Obeys r → made ≤ m.frames.size → guarded m = plain m ∧ (plain m).Keeps r m holds

namespace Keeps

variable {α β : Type} {holds : Nat → α → Prop} {holds' : Nat → β → Prop}

/-- It is enough to look at the computation, if the guarded one is the same. -/
theorem of_same {x : Eval α} (h : ∀ m, m.Obeys r → made ≤ m.frames.size → (x m).Keeps r m holds) :
    Keeps r made holds x x :=
  fun m hm hMade => ⟨rfl, h m hm hMade⟩

protected theorem pure {a : α} (h : ∀ made', made ≤ made' → holds made' a) :
    Keeps r made holds (pure a) (pure a) :=
  .of_same fun m hm hMade => .value (.refl m) hm (h _ hMade)

/-- A value that is at hand. -/
theorem value {v : Value} (h : v.Obeys r made) :
    Keeps r made (Value.Obeys r) (pure v) (pure v) :=
  .pure fun _ hLe => h.mono hLe

theorem fail {e : EvalError} (h : r.failure e) : Keeps r made holds (Eval.fail e) (Eval.fail e) :=
  .of_same fun m hm _ => .failure (.refl m) hm h

/-- A failure that programs bring about. -/
theorem ordinary {e : EvalError} (h : e.breaksContract = false) :
    Keeps r made holds (Eval.fail e) (Eval.fail e) :=
  .fail (r.failure_of_ordinary h)

/-- An ordinary result is kept by both computations. -/
theorem ofExcept {x : Except EvalError α}
    (h : Except.Ordinary (fun a => ∀ made', made ≤ made' → holds made' a) x) :
    Keeps r made holds (Eval.ofExcept x) (Eval.ofExcept x) := by
  cases h with
  | ok h => exact .pure h
  | error h => exact .ordinary h

/-- Computations that keep within the regime do so one after the other, with whatever frames the
first has made. -/
theorem bind {x y : Eval α} {f g : α → Eval β} (hx : Keeps r made holds x y)
    (hf : ∀ made' a, made ≤ made' → holds made' a → Keeps r made' holds' (f a) (g a)) :
    Keeps r made holds' (x >>= f) (y >>= g) := by
  intro m hm hMade
  -- Either the first computation ends both, or the second begins where it ends.
  obtain ⟨hSame, hKeeps⟩ := hx m hm hMade
  simp only [Bind.bind, Eval.bind]
  rw [hSame]
  generalize y m = answer at hKeeps
  cases hKeeps with
  | @value a n hGrows hObeys hValue =>
    have hLe : made ≤ n.frames.size := Nat.le_trans hMade hGrows.size_le
    obtain ⟨hSame', hKeeps'⟩ := hf n.frames.size a hLe hValue n hObeys (Nat.le_refl _)
    exact ⟨hSame', hKeeps'.of_growsTo hGrows⟩
  | failure hGrows hObeys hFailure => exact ⟨rfl, .failure hGrows hObeys hFailure⟩
  | outOfFuel => exact ⟨rfl, .outOfFuel⟩

/-- A contract that is kept makes no difference. -/
theorem guard {x y : Eval α} (h : Keeps r made holds x y) {kept : Bool} (hKept : kept)
    (alarm : EvalError) : Keeps r made holds (guard alarm kept x) y := by
  rw [Eval.guard, if_pos hKept]
  exact h

end Keeps

/-! ## Steps -/

variable {v tail : Value} {vs : List Value} {env : FrameId} {name : String}

/-- A lookup finds what obeys, or fails with an unbound name. -/
theorem lookup_keeps : Keeps r made (Value.Obeys r) (lookup env name) (lookup env name) := by
  refine .of_same fun m hm _ => ?_
  unfold lookup
  split
  · rename_i v hFound
    exact .value (.refl m) hm (hm.get? hFound)
  · exact .failure (.refl m) hm (r.failure_of_ordinary rfl)

theorem define_keeps (h : v.Obeys r made) :
    Keeps r made (fun _ _ => True) (define env name v) (define env name v) := by
  refine .of_same fun m hm hMade => ?_
  exact .value (m.growsTo_define env name v) (hm.define env name (h.mono hMade)) trivial

/-- An assignment of what obeys is kept, or fails with an unbound name. -/
theorem assign_keeps (h : v.Obeys r made) :
    Keeps r made (fun _ _ => True) (assign env name v) (assign env name v) := by
  refine .of_same fun m hm hMade => ?_
  unfold assign
  split
  · rename_i n hSet
    obtain ⟨⟨holder, w⟩, -, rfl⟩ := Option.map_eq_some_iff.mp hSet
    exact .value (m.growsTo_define holder name v) (hm.define holder name (h.mono hMade)) trivial
  · exact .failure (.refl m) hm (r.failure_of_ordinary rfl)

theorem display_keeps {text : String} :
    Keeps r made (Value.Obeys r) (display text) (display text) :=
  .of_same fun _ hm _ => .value (.of_frames_eq rfl) (hm.of_frames_eq rfl) .undefined

theorem makeChain_keeps (hs : AllObey r made vs) (h : tail.Obeys r made) :
    Keeps r made (Value.Obeys r) (makeChain vs tail) (makeChain vs tail) := by
  refine .of_same fun m hm hMade => ?_
  exact .value (.of_frames_eq rfl) (hm.of_frames_eq rfl) (.chain (hs.mono hMade) (h.mono hMade))

theorem makeList_keeps (hs : AllObey r made vs) :
    Keeps r made (Value.Obeys r) (makeList vs) (makeList vs) :=
  makeChain_keeps hs (.atom .nil)

theorem makePair_keeps (h : v.Obeys r made) (h' : tail.Obeys r made) :
    Keeps r made (Value.Obeys r) (makePair v tail) (makePair v tail) :=
  makeChain_keeps (List.forall_mem_singleton.mpr h) h'

/-- A procedure that the regime allows is made. -/
theorem makeProcedure_keeps {kind : CompoundKind} {formals : Formals} (hKind : kind.Within made)
    (hProcedure : r.procedure formals v) (h : v.Obeys r made) :
    Keeps r made (Value.Obeys r) (makeProcedure kind formals v) (makeProcedure kind formals v) := by
  refine .of_same fun m hm hMade => ?_
  have hMade : (Value.compound m.nextStamp kind formals v).Obeys r m.frames.size :=
    (Value.Obeys.compound hKind hProcedure h).mono hMade
  exact .value (.of_frames_eq rfl) (hm.of_frames_eq rfl) hMade

/-- A frame is made below one that has been made. -/
theorem makeFrame_keeps {f : Frame} (hParent : ∀ up, f.parent = some up → up < made)
    (hBound : f.bindings.Obey r made) :
    Keeps r made (fun made' id => id < made') (makeFrame f) (makeFrame f) := by
  refine .of_same fun m hm hMade => ?_
  have hParent' : ∀ up, f.parent = some up → up < m.frames.size :=
    fun up hUp => Nat.lt_of_lt_of_le (hParent up hUp) hMade
  have hBound' : f.bindings.Obey r m.frames.size :=
    fun name v hMem => (hBound name v hMem).mono hMade
  refine .value (m.growsTo_addFrame f) (hm.addFrame hParent' hBound') ?_
  show m.frames.size < (m.frames.push f).size
  rw [Array.size_push]
  exact Nat.lt_succ_self _

/-- The frame of a call is a new one. -/
theorem makeChildFrame_keeps {parent : FrameId} (hParent : parent < made) (formals : Formals)
    (hs : AllObey r made vs) :
    Keeps r made (fun made' id => id < made') (makeChildFrame parent formals vs)
      (makeChildFrame parent formals vs) := by
  have hParents : ∀ made', made ≤ made' → ∀ up, some parent = some up → up < made' := by
    rintro made' hLe up ⟨⟩
    exact Nat.lt_of_lt_of_le hParent hLe
  have hBound := formals.bindings_obey hs
  unfold makeChildFrame
  split
  · cases formals.rest with
    | none => exact makeFrame_keeps (hParents made (Nat.le_refl _)) hBound
    | some rest =>
      -- What is left over is made a list before the frame is made.
      have hSurplus : AllObey r made (formals.surplus vs) :=
        fun v hMem => hs v (List.mem_of_mem_drop hMem)
      refine (makeList_keeps hSurplus).bind fun made' surplus hLe hList => ?_
      refine makeFrame_keeps (hParents made' hLe) ?_
      intro name v hMem
      obtain hEq | hMem := List.mem_cons.mp hMem
      · cases hEq
        exact hList
      · exact (hBound name v hMem).mono hLe
  · exact .ordinary rfl

/-- Arguments that are no proper list fit nothing. -/
theorem makeChildFrameOn_keeps {parent : FrameId} (hParent : parent < made) (formals : Formals)
    (h : v.Obeys r made) :
    Keeps r made (fun made' id => id < made') (makeChildFrameOn parent formals v)
      (makeChildFrameOn parent formals v) := by
  unfold makeChildFrameOn
  split
  · rename_i args hList
    exact makeChildFrame_keeps hParent formals (h.of_toList? hList)
  · exact .ordinary rfl

end Eval
end MiniScheme
