import MiniScheme.Proofs.Procedure.WellFormed

/-!
# Worlds

A stamp is given out once, to one pair or one procedure. So all the values of a session
have their place in one world, which says what each stamp was given to. Wherever a stamp
is met among them, it is on the same thing.

A world also says which names there may be: the symbols among the values and the names of
parameters are some of these.

* `World`, `World.Le` — a world, and one in which more has been made;
* `World.FreeFrom`, `World.give` — the stamps that are left, and the next one given out;
* `Value.In` — the value has its place in the world: `In.mono`, `In.items`, …;
* `In.eq_of_stamp` — one stamp, one pair;
* `World.exists_chain`, `World.exists_ofDatum` — new pairs find their places.
-/

namespace MiniScheme

/-- What each stamp was given to, and which names there may be. -/
structure World where
  /-- What the stamp was given to, if it was given out. -/
  holder : Stamp → Option Value
  names : String → Prop

/-- More stamps have been given out. -/
structure World.Le (w w' : World) : Prop where
  holder : ∀ s v, w.holder s = some v → w'.holder s = some v
  -- nothing that evaluation makes has a name that was not there before
  names : w'.names = w.names

namespace World.Le

variable {w w' w'' : World}

theorem refl (w : World) : w.Le w := ⟨fun _ _ h => h, rfl⟩

theorem trans (h : w.Le w') (h' : w'.Le w'') : w.Le w'' :=
  ⟨fun s v hHolder => h'.holder s v (h.holder s v hHolder), h'.names.trans h.names⟩

/-- What was a name stays one. -/
theorem name (h : w.Le w') {name : String} (hName : w.names name) : w'.names name := by
  rw [h.names]
  exact hName

end World.Le

namespace World

/-- No stamp from this one on has been given out. -/
def FreeFrom (w : World) (next : Stamp) : Prop := ∀ s, next ≤ s → w.holder s = none

/-- The world after a stamp has been given to a value. -/
def give (w : World) (s : Stamp) (v : Value) : World :=
  { w with holder := fun t => if t = s then some v else w.holder t }

variable {w : World} {s : Stamp} (v : Value)

theorem holder_give : (w.give s v).holder s = some v := if_pos rfl

theorem holder_give_of_ne {t : Stamp} (h : t ≠ s) : (w.give s v).holder t = w.holder t := if_neg h

/-- Giving a free stamp to a value makes the world a later one. -/
theorem FreeFrom.le_give (h : w.FreeFrom s) : w.Le (w.give s v) where
  holder := by
    intro t u hHolder
    -- what has been given out is not free
    have hOld : t ≠ s := by
      rintro rfl
      rw [h t (Nat.le_refl t)] at hHolder
      cases hHolder
    rw [holder_give_of_ne v hOld]
    exact hHolder
  names := rfl

theorem FreeFrom.give (h : w.FreeFrom s) : (w.give s v).FreeFrom (s + 1) := by
  intro t hLe
  rw [holder_give_of_ne v (Nat.ne_of_gt hLe)]
  exact h t (Nat.le_of_succ_le hLe)

end World

/-- The atom is no symbol, or one that there may be. -/
def Atom.In (w : World) : Atom → Prop
  | .symbol name => w.names name
  | _ => True

namespace Value

/-- All the parts of the value have their places in the world. -/
inductive In (w : World) : Value → Prop
  | atom {a : Atom} (h : a.In w) : In w (.atom a)
  | undefined : In w .undefined
  | pair {s : Stamp} {first rest : Value} (hHolder : w.holder s = some (.pair s first rest))
      (hFirst : In w first) (hRest : In w rest) : In w (.pair s first rest)
  | builtin {s : Stamp} {b : Builtin} (hHolder : w.holder s = some (.builtin s b)) :
      In w (.builtin s b)
  | compound {s : Stamp} {kind : CompoundKind} {formals : Formals} {body : Value}
      (hHolder : w.holder s = some (.compound s kind formals body))
      (hNames : ∀ name ∈ formals.names, w.names name) (hBody : In w body) :
      In w (.compound s kind formals body)
  | environment (id : FrameId) : In w (.environment id)

/-- All the values have their places in the world. -/
abbrev AllIn (w : World) (vs : List Value) : Prop := ∀ v ∈ vs, v.In w

namespace In

variable {w w' : World} {v : Value} {vs : List Value}

/-- More stamps do no harm. -/
theorem mono (h : v.In w) (hLe : w.Le w') : v.In w' := by
  induction h with
  | @atom a h =>
    refine .atom ?_
    cases a with
    | symbol name => exact hLe.name h
    | _ => trivial
  | undefined => exact .undefined
  | pair hHolder hFirst hRest ihFirst ihRest => exact .pair (hLe.holder _ _ hHolder) ihFirst ihRest
  | builtin hHolder => exact .builtin (hLe.holder _ _ hHolder)
  | compound hHolder hNames hBody ih =>
    exact .compound (hLe.holder _ _ hHolder) (fun name hMem => hLe.name (hNames name hMem)) ih
  | environment id => exact .environment id

/-- The items of a value of the world are in the world. -/
theorem items (h : v.In w) : AllIn w v.items := by
  induction h with
  | pair hHolder hFirst hRest ihFirst ihRest =>
    rw [items_pair]
    exact List.forall_mem_cons.mpr ⟨hFirst, ihRest⟩
  | _ => exact nofun

theorem of_toList? (h : v.In w) (hList : v.toList? = some vs) : AllIn w vs := by
  unfold toList? at hList
  split at hList
  · cases hList
    exact h.items
  · cases hList

/-- The operands of a spliced element of the world are in the world. -/
theorem of_spliced {operands : Value} (h : v.In w) (hSome : splicedOperands? v = some operands) :
    operands.In w := by
  unfold splicedOperands? at hSome
  split at hSome
  · cases hSome
    cases h with
    | pair hHolder hFirst hRest => exact hRest
  · cases hSome

theorem name {name : String} (h : (Value.symbol name).In w) : w.names name := by
  cases h with
  | atom h => exact h

/-- One stamp, one pair. -/
theorem eq_of_stamp {s : Stamp} {first rest first' rest' : Value}
    (h : (Value.pair s first rest).In w) (h' : (Value.pair s first' rest').In w) :
    first = first' ∧ rest = rest' := by
  cases h with
  | pair hHolder hFirst hRest =>
    cases h' with
    | pair hHolder' hFirst' hRest' =>
      -- both are what the stamp was given to
      cases hHolder.symm.trans hHolder'
      exact ⟨rfl, rfl⟩

end In

theorem AllIn.mono {w w' : World} {vs : List Value} (h : AllIn w vs) (hLe : w.Le w') :
    AllIn w' vs :=
  fun v hMem => (h v hMem).mono hLe

end Value

/-- The symbols in a datum. -/
def Datum.symbols : Datum → List String
  | .atom (.symbol name) => [name]
  | .atom _ => []
  | .pair first rest => first.symbols ++ rest.symbols

/-- The symbols of the datum are names that there may be. -/
abbrev Datum.In (w : World) (d : Datum) : Prop := ∀ name ∈ d.symbols, w.names name

theorem Datum.In.mono {w w' : World} {d : Datum} (h : d.In w) (hLe : w.Le w') : d.In w' :=
  fun name hMem => hLe.name (h name hMem)

/-! ## New pairs -/

namespace World

open Value

variable {w : World} {next : Stamp} {first rest tail : Value}

/-- A new pair of what there is. -/
theorem FreeFrom.pair (h : w.FreeFrom next) (hFirst : first.In w) (hRest : rest.In w) :
    (Value.pair next first rest).In (w.give next (.pair next first rest)) :=
  .pair (holder_give _) (hFirst.mono (h.le_give _)) (hRest.mono (h.le_give _))

/-- A chain of values of the world is in a later one, which gives it its stamps. -/
theorem exists_chainOfReverse {vs : List Value} (h : w.FreeFrom next) (hs : AllIn w vs)
    (hTail : tail.In w) :
    ∃ w', w.Le w' ∧ w'.FreeFrom (next + vs.length) ∧ (chainOfReverse next tail vs).In w' := by
  -- Every item takes one stamp, and its pair is the tail for the items before it.
  induction vs generalizing w next tail with
  | nil => exact ⟨w, .refl w, h, hTail⟩
  | cons last before ih =>
    obtain ⟨hLast, hBefore⟩ := List.forall_mem_cons.mp hs
    have hLe := h.le_give (.pair next last tail)
    obtain ⟨w', hLe', hFree, hChain⟩ :=
      ih (h.give _) (AllIn.mono hBefore hLe) (h.pair hLast hTail)
    refine ⟨w', hLe.trans hLe', ?_, hChain⟩
    rw [List.length_cons, Nat.add_comm before.length 1, ← Nat.add_assoc]
    exact hFree

/-- A new chain. -/
theorem exists_chain {vs : List Value} (h : w.FreeFrom next) (hs : AllIn w vs)
    (hTail : tail.In w) :
    ∃ w', w.Le w' ∧ w'.FreeFrom (next + vs.length) ∧ (Value.chain next vs tail).In w' := by
  have hReverse : AllIn w vs.reverse := fun v hMem => hs v (List.mem_reverse.mp hMem)
  rw [← List.length_reverse]
  exact exists_chainOfReverse h hReverse hTail

/-- A datum that is read. -/
theorem exists_ofDatum {d : Datum} (h : w.FreeFrom next) (hd : d.In w) :
    ∃ w', w.Le w' ∧ w'.FreeFrom (ofDatum next d).2 ∧ (ofDatum next d).1.In w' := by
  induction d generalizing w next with
  | atom a =>
    refine ⟨w, .refl w, h, .atom ?_⟩
    cases a with
    | symbol name => exact hd name (List.mem_singleton_self name)
    | _ => trivial
  | pair first rest ihFirst ihRest =>
    obtain ⟨hFirst, hRest⟩ := List.forall_mem_append.mp hd
    obtain ⟨w₁, hLe₁, hFree₁, hFirst⟩ := ihFirst h hFirst
    obtain ⟨w₂, hLe₂, hFree₂, hRest⟩ := ihRest hFree₁ (Datum.In.mono hRest hLe₁)
    -- the pair itself gets the last stamp
    exact ⟨_, (hLe₁.trans hLe₂).trans (hFree₂.le_give _), hFree₂.give _,
      hFree₂.pair (hFirst.mono hLe₂) hRest⟩

/-- A row of built-in procedures; `count` stamps are those of others. -/
theorem exists_builtins {count : Nat} (builtins : List Builtin)
    (h : w.FreeFrom (next + count)) :
    ∃ w', w.Le w' ∧ w'.FreeFrom (next + (count + builtins.length)) ∧
      ∀ b i, (b, i) ∈ builtins.zipIdx count → (Value.builtin (next + i) b).In w' := by
  induction builtins generalizing w count with
  | nil => exact ⟨w, .refl w, h, nofun⟩
  | cons b bs ih =>
    have hLe := h.le_give (.builtin (next + count) b)
    obtain ⟨w', hLe', hFree, hIn⟩ := @ih _ (count + 1) (h.give _)
    refine ⟨w', hLe.trans hLe', ?_, ?_⟩
    · rw [List.length_cons, Nat.add_comm bs.length 1, ← Nat.add_assoc count]
      exact hFree
    · intro b' i hMem
      rw [List.zipIdx_cons] at hMem
      obtain hEq | hMem := List.mem_cons.mp hMem
      · cases hEq
        exact .builtin (hLe'.holder _ _ (holder_give _))
      · exact hIn b' i hMem

end World
end MiniScheme
