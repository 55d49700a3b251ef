import MiniScheme.Proofs.Machine.Chain
import MiniScheme.Proofs.Procedure.Spelling
import MiniScheme.Proofs.Value.World

/-!
# Machines in a world

What a machine binds has its place in the world, and the stamps that it has not given
out yet are free there. When it makes something, the world grows by what is made.

* `Machine.In` — the machine is in the world;
* `In.get?`, `In.define`, `In.addFrame`, … — reading and changing frames;
* `In.exists_chain`, `In.exists_load`, `In.exists_addGlobal` — the world
  in which there are also the new pairs, or the new procedures;
* `Formals.names_of_parse` — the names of a parameter list are symbols that spell it.
-/

namespace MiniScheme

open Value (AllIn)

/-! ## Bindings -/

/-- The bound names are names that there may be, and the values have their places. -/
def Bindings.In (w : World) (bs : Bindings) : Prop :=
  ∀ name v, (name, v) ∈ bs → w.names name ∧ v.In w

variable {w w' : World} {v tail : Value} {vs : List Value} {name : String}

theorem Bindings.In.mono {bs : Bindings} (h : bs.In w) (hLe : w.Le w') : bs.In w' := by
  intro name v hMem
  obtain ⟨hName, hValue⟩ := h name v hMem
  exact ⟨hLe.name hName, hValue.mono hLe⟩

/-- What a call binds. -/
theorem Formals.bindings_in {formals : Formals} (hNames : ∀ name ∈ formals.positional, w.names name)
    (hs : AllIn w vs) : Bindings.In w (formals.bindings vs) := by
  intro name v hMem
  obtain ⟨hName, hValue⟩ := List.of_mem_zip hMem
  refine ⟨hNames name hName, ?_⟩
  obtain hArg | hNone := List.mem_append.mp hValue
  · exact hs v hArg
  · -- an optional name for which there is no argument
    rw [List.eq_of_mem_replicate hNone]
    exact .undefined

/-! ## Names of parameters -/

namespace Formals

variable {f : Formals} {names words : List String} {last : Option String}

/-- Positional parameters are words of the list. -/
theorem Words.mem_of_mem (h : f.Words words) (hMem : name ∈ f.positional) : name ∈ words := by
  cases h with
  | plain hOptional =>
    rw [positional, hOptional, List.append_nil] at hMem
    exact hMem
  | marked =>
    obtain hRequired | hOptional := List.mem_append.mp hMem
    · exact List.mem_append_left _ hRequired
    · exact List.mem_append_right _ (List.mem_cons_of_mem _ hOptional)

/-- The words of a parameter list in the world are names of the world. -/
theorem names_of_symbols (h : v.Symbols words last) (hv : v.In w) :
    ∀ name ∈ words ++ last.toList, w.names name := by
  induction h with
  | nil => exact nofun
  | last name => exact fun other hMem => List.mem_singleton.mp hMem ▸ hv.name
  | @cons stamp name rest words last h ih =>
    cases hv with
    | pair hHolder hFirst hRest => exact List.forall_mem_cons.mpr ⟨hFirst.name, ih hRest⟩

/-- The names of a parameter list that is read are symbols in what is read. -/
theorem names_of_parse (h : parse v = .ok f) (hv : v.In w) : ∀ name ∈ f.names, w.names name := by
  obtain ⟨⟨words, hSymbols, hWords⟩, -, -⟩ := parse_eq_ok_iff.mp h
  intro name hMem
  refine names_of_symbols hSymbols hv name ?_
  obtain hPositional | hRest := List.mem_append.mp hMem
  · exact List.mem_append_left _ (hWords.mem_of_mem hPositional)
  · exact List.mem_append_right _ hRest

/-- The names of a parameter list made of names are some of these. -/
theorem names_of_ofNames (h : ofNames names = .ok f) : ∀ name ∈ f.names, name ∈ names := by
  obtain ⟨seenMarker, hRead⟩ := read_empty.declareAll h
  intro name hMem
  rw [Formals.names, hRead.rest_eq] at hMem
  exact hRead.spells.mem_of_mem (by simpa using hMem)

end Formals

/-! ## Machines -/

namespace Machine

/-- The bindings have their places in the world, and there are stamps left. -/
structure In (w : World) (m : Machine) : Prop where
  free : w.FreeFrom m.nextStamp
  bound : ∀ id f, m.frame? id = some f → f.bindings.In w

variable {m : Machine}

namespace In

/-- The world may have grown by what the next stamps were given to. -/
theorem extend (h : m.In w) (hLe : w.Le w') {next : Stamp} (hFree : w'.FreeFrom next) :
    Machine.In w' { m with nextStamp := next } :=
  ⟨hFree, fun id f hFrame => (h.bound id f hFrame).mono hLe⟩

/-- The text displayed does not count. -/
theorem of_output (h : m.In w) (output : String) : Machine.In w { m with output := output } :=
  ⟨h.free, h.bound⟩

theorem find? (h : m.In w) {env holder : FrameId} (hFound : m.find? env name = some (holder, v)) :
    w.names name ∧ v.In w := by
  obtain ⟨f, hFrame, hBound⟩ := exists_frame_of_findWithin hFound
  exact h.bound holder f hFrame name v hBound

theorem get? (h : m.In w) {env : FrameId} (hFound : m.get? env name = some v) : v.In w := by
  obtain ⟨⟨holder, u⟩, hFind, rfl⟩ := Option.map_eq_some_iff.mp hFound
  exact (h.find? hFind).2

/-- A machine in the world stays there when a name of it is bound to a value of it. -/
theorem define (h : m.In w) (env : FrameId) (hName : w.names name) (hv : v.In w) :
    (m.define env name v).In w where
  free := h.free
  bound := by
    intro id g hFrame n u hMem
    obtain ⟨f, hFrame', -, hBindings⟩ := exists_frame_of_define hFrame
    obtain hNew | hOld := hBindings (n, u) hMem
    · cases hNew
      exact ⟨hName, hv⟩
    · exact h.bound id f hFrame' n u hOld

/-- A machine in the world stays there with a new frame of it. -/
theorem addFrame (h : m.In w) {f : Frame} (hf : f.bindings.In w) : (m.addFrame f).2.In w where
  free := h.free
  bound := by
    intro id g hFrame
    rw [frame?_addFrame] at hFrame
    split at hFrame
    · cases hFrame
      exact hf
    · exact h.bound id g hFrame

/-- New pairs have their places in a world that has grown. -/
theorem exists_chain (h : m.In w) (hs : AllIn w vs) (hTail : tail.In w) :
    ∃ w', w.Le w' ∧ (m.chain vs tail).2.In w' ∧ (m.chain vs tail).1.In w' := by
  obtain ⟨w', hLe, hFree, hChain⟩ := World.exists_chain h.free hs hTail
  exact ⟨w', hLe, h.extend hLe hFree, hChain⟩

/-- So does what is read. -/
theorem exists_load (h : m.In w) {d : Datum} (hd : d.In w) :
    ∃ w', w.Le w' ∧ (m.load d).2.In w' ∧ (m.load d).1.In w' := by
  obtain ⟨w', hLe, hFree, hValue⟩ := World.exists_ofDatum h.free hd
  exact ⟨w', hLe, h.extend hLe hFree, hValue⟩

/-- And a new procedure. -/
theorem exists_compound (h : m.In w) (kind : CompoundKind) {formals : Formals}
    (hNames : ∀ name ∈ formals.names, w.names name) (hBody : v.In w) :
    ∃ w', w.Le w' ∧ Machine.In w' { m with nextStamp := m.nextStamp + 1 } ∧
      (Value.compound m.nextStamp kind formals v).In w' := by
  have hLe := h.free.le_give (.compound m.nextStamp kind formals v)
  refine ⟨_, hLe, h.extend hLe (h.free.give _), .compound (World.holder_give _) ?_ (hBody.mono hLe)⟩
  exact fun name hMem => hLe.name (hNames name hMem)

/-- And the built-in procedures of a global frame. -/
theorem exists_addGlobal (h : m.In w) {builtins : List Builtin}
    (hNames : ∀ b ∈ builtins, w.names b.name) :
    ∃ w', w.Le w' ∧ (m.addGlobal builtins).2.In w' := by
  have hFree : w.FreeFrom (m.nextStamp + 0) := h.free
  obtain ⟨w', hLe, hFree, hIn⟩ := World.exists_builtins builtins hFree
  rw [Nat.zero_add] at hFree
  refine ⟨w', hLe, (h.extend hLe hFree).addFrame ?_⟩
  intro name v hMem
  obtain ⟨⟨b, i⟩, hIndexed, hEq⟩ := List.mem_map.mp hMem
  cases hEq
  exact ⟨hLe.name (hNames b (List.fst_mem_of_mem_zipIdx hIndexed)), hIn b i hIndexed⟩

end In

end Machine
end MiniScheme
