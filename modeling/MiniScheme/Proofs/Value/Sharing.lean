import MiniScheme.Proofs.Value.World
import MiniScheme.Value.Equality

/-!
# Equality and sharing

A pair is equal to itself without a look at its parts. Where all the parts are equal to
themselves that is no more than a short cut. But a NaN is equal to nothing, not even to
itself, and a pair that holds one is equal to itself all the same. Apart from this, equality
is that of the structure: it is the same for values that share parts and for copies made of
new pairs.

* `Value.structural` — equality of the structure, without the short cut;
* `Value.holdsNaN` — there is a NaN among the parts;
* `structural_eq`, `equal_of_numbers` — the two equalities, for any values of one world;
* `Value.Rebuilt` — copies made of other pairs;
* `equal_of_rebuilt` — equality of copies that share no pair.
-/

namespace MiniScheme

open Float.Model

/-! ## Numbers -/

theorem compare_notANumber (x : UnpackedFloat) : UnpackedFloat.notANumber.compare x = none := by
  cases x <;> rfl

/-- Exactly a NaN differs from itself. -/
theorem unpacked_beq_self (x : UnpackedFloat) : x.beq x = !x.isNaN := by
  cases x with
  | infinity sign => cases sign <;> rfl
  | notANumber => rfl
  | zero sign => rfl
  | finite sign mantissa exponent h =>
    -- exponents first, then mantissas, the other way round where both are negative
    have hCompare : ((compare exponent exponent).then (compare mantissa mantissa)) = .eq := by
      simp
    cases sign with
    | negative =>
      show
        (some ((compare exponent exponent).then (compare mantissa mantissa)).swap == some .eq) = _
      rw [hCompare]
      rfl
    | positive =>
      show (some ((compare exponent exponent).then (compare mantissa mantissa)) == some .eq) = _
      rw [hCompare]
      rfl

/-- Numbers that are equal are numbers. -/
theorem unpacked_isNaN_of_beq {x y : UnpackedFloat} (h : x.beq y) :
    x.isNaN = false ∧ y.isNaN = false := by
  cases x with
  | notANumber =>
    have hEqual : (UnpackedFloat.notANumber.compare y == some .eq) = true := h
    rw [compare_notANumber] at hEqual
    cases hEqual
  | _ =>
    refine ⟨rfl, ?_⟩
    cases y with
    | notANumber => cases h
    | _ => rfl

theorem float_beq_self (x : Float) : (x == x) = !x.isNaN := unpacked_beq_self x.toModel.unpack

theorem isNaN_of_float_beq {x y : Float} (h : x == y) : x.isNaN = false ∧ y.isNaN = false :=
  unpacked_isNaN_of_beq h

/-! ## Atoms -/

/-- Is the atom a NaN? -/
def Atom.isNaN : Atom → Bool
  | number x => x.isNaN
  | _ => false

/-- An atom is equal to itself unless it is a NaN. -/
theorem Atom.equal_self (a : Atom) : a.equal a = !a.isNaN := by
  cases a with
  | number x => exact float_beq_self x
  | nil => rfl
  | _ => exact decide_eq_true rfl

/-- No NaN is among atoms that are equal. -/
theorem Atom.isNaN_of_equal {a b : Atom} (h : a.equal b) : a.isNaN = false ∧ b.isNaN = false := by
  cases a with
  | number x =>
    cases b with
    | number y => exact isNaN_of_float_beq h
    | _ => cases h
  | _ => cases b <;> first | exact ⟨rfl, rfl⟩ | cases h

/-! ## Values -/

namespace Value

/-- Equality of the structure: pairs by their parts, atoms by value, procedures and frames by
identity. -/
def structural : Value → Value → Bool
  | atom a, atom b => a.equal b
  | undefined, undefined => true
  | pair _ first rest, pair _ first' rest' => first.structural first' && rest.structural rest'
  | builtin s _, builtin t _ => s = t
  | compound s .., compound t .. => s = t
  | environment e, environment f => e = f
  | _, _ => false

/-- Is there a NaN among the parts? -/
def holdsNaN : Value → Bool
  | atom a => a.isNaN
  | pair _ first rest => first.holdsNaN || rest.holdsNaN
  | _ => false

variable {v v' u u' : Value}

/-- A value is structurally equal to itself unless it holds a NaN. -/
theorem structural_self (v : Value) : v.structural v = !v.holdsNaN := by
  induction v with
  | atom a => exact a.equal_self
  | undefined => rfl
  | pair s first rest ihFirst ihRest =>
    rw [structural, ihFirst, ihRest, holdsNaN, Bool.not_or]
  | _ => exact decide_eq_true rfl

/-- What holds a NaN has not the structure of anything. -/
theorem holdsNaN_of_structural (h : v.structural u) : v.holdsNaN = false ∧ u.holdsNaN = false := by
  induction v generalizing u with
  | atom a =>
    cases u with
    | atom b => exact Atom.isNaN_of_equal h
    | _ => cases h
  | pair s first rest ihFirst ihRest =>
    cases u with
    | pair t first' rest' =>
      obtain ⟨hFirst, hRest⟩ := Bool.and_eq_true_iff.mp h
      obtain ⟨hLeft, hRight⟩ := ihFirst hFirst
      obtain ⟨hLeft', hRight'⟩ := ihRest hRest
      rw [holdsNaN, holdsNaN, hLeft, hRight, hLeft', hRight']
      exact ⟨rfl, rfl⟩
    | _ => cases h
  | _ => cases u <;> first | exact ⟨rfl, rfl⟩ | cases h

/-- The same structure is enough to be equal. -/
theorem equal_of_structural (h : v.structural u) : v.equal u := by
  induction v generalizing u with
  | pair s first rest ihFirst ihRest =>
    cases u with
    | pair t first' rest' =>
      obtain ⟨hFirst, hRest⟩ := Bool.and_eq_true_iff.mp h
      rw [equal, ihFirst hFirst, ihRest hRest, Bool.and_self, Bool.or_true]
    | _ => cases h
  | _ => cases u <;> exact h

/-- In one world, equal values have the same structure, unless they hold a NaN. -/
theorem structural_of_equal {w : World} (hv : v.In w) (hu : u.In w) (hNumbers : v.holdsNaN = false)
    (h : v.equal u) : v.structural u := by
  -- Along the value; where a pair is shared, both sides are that pair.
  induction v generalizing u with
  | pair s first rest ihFirst ihRest =>
    cases u with
    | pair t first' rest' =>
      obtain ⟨hNumbersFirst, hNumbersRest⟩ := Bool.or_eq_false_iff.mp hNumbers
      obtain hShared | hParts := Bool.or_eq_true_iff.mp h
      · -- a shared pair: it has the structure of itself
        cases of_decide_eq_true hShared
        obtain ⟨rfl, rfl⟩ := hv.eq_of_stamp hu
        rw [structural, structural_self, structural_self, hNumbersFirst, hNumbersRest]
        rfl
      · obtain ⟨hFirst, hRest⟩ := Bool.and_eq_true_iff.mp hParts
        cases hv with
        | pair hHolder hvFirst hvRest =>
          cases hu with
          | pair hHolder' huFirst huRest =>
            have hFirst := ihFirst hvFirst huFirst hNumbersFirst hFirst
            have hRest := ihRest hvRest huRest hNumbersRest hRest
            rw [structural, hFirst, hRest]
            rfl
    | _ => cases h
  | _ => cases u <;> exact h

/-- In one world, values have the same structure if they are equal and hold no NaN. -/
theorem structural_eq {w : World} (hv : v.In w) (hu : u.In w) :
    v.structural u = (v.equal u && !v.holdsNaN) := by
  rw [Bool.eq_iff_iff, Bool.and_eq_true, Bool.not_eq_true']
  constructor
  · intro h
    exact ⟨equal_of_structural h, (holdsNaN_of_structural h).1⟩
  · rintro ⟨h, hNumbers⟩
    exact structural_of_equal hv hu hNumbers h

/-- In one world, equal values either both hold a NaN, or neither does. -/
theorem holdsNaN_eq_of_equal {w : World} (hv : v.In w) (hu : u.In w) (h : v.equal u) :
    v.holdsNaN = u.holdsNaN := by
  -- Along the value; where a pair is shared, both sides are that pair.
  induction v generalizing u with
  | atom a =>
    cases u with
    | atom b =>
      obtain ⟨ha, hb⟩ := Atom.isNaN_of_equal h
      exact ha.trans hb.symm
    | _ => cases h
  | pair s first rest ihFirst ihRest =>
    cases u with
    | pair t first' rest' =>
      obtain hShared | hParts := Bool.or_eq_true_iff.mp h
      · -- a shared pair: here one side is the other
        cases of_decide_eq_true hShared
        obtain ⟨rfl, rfl⟩ := hv.eq_of_stamp hu
        rfl
      · obtain ⟨hFirst, hRest⟩ := Bool.and_eq_true_iff.mp hParts
        cases hv with
        | pair hHolder hvFirst hvRest =>
          cases hu with
          | pair hHolder' huFirst huRest =>
            rw [holdsNaN, holdsNaN, ihFirst hvFirst huFirst hFirst, ihRest hvRest huRest hRest]
    | _ => cases h
  | _ => cases u <;> first | rfl | cases h

/-! ## Copies -/

/-- The same value made of other pairs. -/
inductive Rebuilt : Value → Value → Prop
  | pair {s t : Stamp} {first rest first' rest' : Value} (hFirst : Rebuilt first first')
      (hRest : Rebuilt rest rest') : Rebuilt (.pair s first rest) (.pair t first' rest')
  | other {v : Value} (h : ∀ s first rest, v ≠ .pair s first rest) : Rebuilt v v

/-- The stamps of the pairs that a value is made of. -/
def pairStamps : Value → List Stamp
  | pair s first rest => s :: (first.pairStamps ++ rest.pairStamps)
  | _ => []

/-- A value is a copy of itself. -/
theorem Rebuilt.refl (v : Value) : v.Rebuilt v := by
  induction v with
  | pair s first rest ihFirst ihRest => exact .pair ihFirst ihRest
  | _ => exact .other nofun

/-- Which pairs a value is made of makes no difference to its structure. -/
theorem structural_rebuilt (hv : v.Rebuilt v') (hu : u.Rebuilt u') :
    v'.structural u' = v.structural u := by
  induction hv generalizing u u' with
  | pair hFirst hRest ihFirst ihRest =>
    cases hu with
    | pair hFirst' hRest' => rw [structural, structural, ihFirst hFirst', ihRest hRest']
    | other h => cases u <;> first | rfl | exact absurd rfl (h _ _ _)
  | @other v h =>
    cases hu with
    | pair hFirst' hRest' => cases v <;> first | rfl | exact absurd rfl (h _ _ _)
    | other h' => rfl

/-- Between values that share no pair there is nothing to cut short. -/
theorem equal_of_apart (h : ∀ s ∈ v.pairStamps, s ∉ u.pairStamps) :
    v.equal u = v.structural u := by
  induction v generalizing u with
  | pair s first rest ihFirst ihRest =>
    cases u with
    | pair t first' rest' =>
      simp only [pairStamps, List.mem_cons, List.mem_append, not_or] at h
      have hStamp : s ≠ t := (h s (.inl rfl)).1
      have hFirst := ihFirst fun s' hMem => (h s' (.inr (.inl hMem))).2.1
      have hRest := ihRest fun s' hMem => (h s' (.inr (.inr hMem))).2.2
      rw [equal, structural, decide_eq_false hStamp, Bool.false_or, hFirst, hRest]
    | _ => rfl
  | _ => cases u <;> rfl

/-- In one world, where one side holds no NaN, equality is equality of the structure. -/
theorem equal_of_numbers {w : World} (hv : v.In w) (hu : u.In w)
    (hNumbers : v.holdsNaN = false ∨ u.holdsNaN = false) : v.equal u = v.structural u := by
  rw [structural_eq hv hu]
  cases hEqual : v.equal u with
  | false => rfl
  | true =>
    -- if one of two equal values holds no NaN, the other one holds none either
    have hSame := holdsNaN_eq_of_equal hv hu hEqual
    have hNone : v.holdsNaN = false := hNumbers.elim id hSame.trans
    rw [hNone]
    rfl

/-- Between copies that share no pair, equality is equality of the structure. -/
theorem equal_of_rebuilt (hv : v.Rebuilt v') (hu : u.Rebuilt u')
    (hApart : ∀ s ∈ v'.pairStamps, s ∉ u'.pairStamps) : v'.equal u' = v.structural u := by
  rw [equal_of_apart hApart, structural_rebuilt hv hu]

end Value
end MiniScheme
