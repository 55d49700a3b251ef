import MiniScheme.Value.Equality
import MiniScheme.Value.Parameters
import Mathlib.Data.List.Forall2

/-!
# Values that look alike

Two runs of a program may have given different stamps to what is the same pair
or procedure in both, and each may have frames that the other knows nothing of.
Values of the two are alike if they differ in nothing else: they have the same
shape, their stamps belong together, and the frames in them are seen by both.

* `Correspondence` — the frames that both runs see, and the stamps that belong
  together;
* `Value.Alike` — the values that differ in nothing else;
* `Value.Alike.text_eq`, `Value.Alike.equal_eq`, … — no operation on values tells
  them apart;
* `Value.Alike.chain` — new pairs over values that are alike.
-/

namespace MiniScheme

/-- What two runs have in common: frames, under the same number in both, and the
stamps of the same thing. -/
structure Correspondence where
  frame : FrameId → Prop
  stamp : Stamp → Stamp → Prop
  /-- No stamp belongs to two. -/
  stamp_iff {s t s' t' : Stamp} : stamp s t → stamp s' t' → (s = s' ↔ t = t')

/-- The frame that a procedure of this kind keeps is seen. -/
def Correspondence.Sees (c : Correspondence) : CompoundKind → Prop
  | .lambda home => c.frame home
  | .mu | .transformer => True

namespace Value

/-- The values differ at most in stamps that belong together. -/
inductive Alike (c : Correspondence) : Value → Value → Prop
  | atom (a : Atom) : Alike c (.atom a) (.atom a)
  | undefined : Alike c .undefined .undefined
  | pair {s t : Stamp} {v w v' w' : Value} (hStamp : c.stamp s t) (hFirst : Alike c v w)
      (hRest : Alike c v' w') : Alike c (.pair s v v') (.pair t w w')
  | builtin {s t : Stamp} (hStamp : c.stamp s t) (b : Builtin) :
      Alike c (.builtin s b) (.builtin t b)
  | compound {s t : Stamp} {kind : CompoundKind} {formals : Formals} {v w : Value}
      (hStamp : c.stamp s t) (hKind : c.Sees kind) (hBody : Alike c v w) :
      Alike c (.compound s kind formals v) (.compound t kind formals w)
  | environment {id : FrameId} (hFrame : c.frame id) :
      Alike c (.environment id) (.environment id)

/-- Rows of values that are alike one by one. -/
abbrev AllAlike (c : Correspondence) : List Value → List Value → Prop :=
  List.Forall₂ (Alike c)

namespace Alike

variable {c : Correspondence} {v w v' w' : Value}

/-! ## What is observed of one value -/

theorem eq_symbol (h : v.Alike c w) {name : String} (hw : w = .symbol name) : v = .symbol name := by
  subst hw
  cases h
  rfl

/-- Corresponding values are written the same. -/
theorem write_eq (h : v.Alike c w) (written : String) :
    v.write written = w.write written ∧ v.writeTail written = w.writeTail written := by
  -- Each of the two writes with the other, so both go into one induction.
  induction h generalizing written with
  | atom a => exact ⟨rfl, rfl⟩
  | undefined => exact ⟨rfl, rfl⟩
  | pair hStamp hFirst hRest ihFirst ihRest =>
    simp only [write, writeTail, (ihFirst _).1, (ihRest _).2, and_self]
  | builtin hStamp b => exact ⟨rfl, rfl⟩
  | compound hStamp hKind hBody ih => simp only [write, writeTail, (ih _).2, and_self]
  | environment hFrame => exact ⟨rfl, rfl⟩

theorem text_eq (h : v.Alike c w) : v.text = w.text :=
  (h.write_eq "").1

theorem displayText_eq (h : v.Alike c w) : v.displayText = w.displayText := by
  have hText := h.text_eq
  cases h with
  | atom a => rfl
  | _ => exact hText

theorem isTruthy_eq (h : v.Alike c w) : v.isTruthy = w.isTruthy := by
  cases h <;> rfl

theorem isTransformer_eq (h : v.Alike c w) : v.isTransformer = w.isTransformer := by
  cases h with
  | @compound _ _ kind _ _ _ _ _ _ => cases kind <;> rfl
  | _ => rfl

theorem isList_eq (h : v.Alike c w) : v.isList = w.isList := by
  induction h with
  | pair hStamp hFirst hRest ihFirst ihRest => exact ihRest
  | _ => rfl

theorem itemsOnto (h : v.Alike c w) {vs ws : List Value} (hs : AllAlike c vs ws) :
    AllAlike c (v.itemsOnto vs) (w.itemsOnto ws) := by
  induction h generalizing vs ws with
  | pair hStamp hFirst hRest ihFirst ihRest => exact ihRest (.cons hFirst hs)
  | _ => exact List.forall₂_reverse_iff.mpr hs

theorem items (h : v.Alike c w) : AllAlike c v.items w.items :=
  h.itemsOnto .nil

/-- Both are proper lists of items that are alike, or neither is one. -/
theorem toList? (h : v.Alike c w) :
    (v.toList? = none ∧ w.toList? = none) ∨
      ∃ vs ws, v.toList? = some vs ∧ w.toList? = some ws ∧ AllAlike c vs ws := by
  unfold Value.toList?
  rw [h.isList_eq]
  split
  · exact .inr ⟨_, _, rfl, rfl, h.items⟩
  · exact .inl ⟨rfl, rfl⟩

/-! ## Equality -/

/-- Corresponding values are equal in one run where they are in the other. -/
theorem equal_eq (h : v.Alike c w) (h' : v'.Alike c w') : v.equal v' = w.equal w' := by
  induction h generalizing v' w' with
  | pair hStamp hFirst hRest ihFirst ihRest =>
    cases h' with
    | pair hStamp' hFirst' hRest' =>
      simp only [equal, c.stamp_iff hStamp hStamp', ihFirst hFirst', ihRest hRest']
    | _ => rfl
  | builtin hStamp b =>
    cases h' with
    | builtin hStamp' b' => simp only [equal, c.stamp_iff hStamp hStamp']
    | _ => rfl
  | compound hStamp hKind hBody ih =>
    cases h' with
    | compound hStamp' hKind' hBody' => simp only [equal, c.stamp_iff hStamp hStamp']
    | _ => rfl
  | _ => cases h' <;> rfl

/-- Corresponding values are identical in one run where they are in the other. -/
theorem identical_eq (h : v.Alike c w) (h' : v'.Alike c w') :
    v.identical v' = w.identical w' := by
  -- Only of two pairs does identity ask more than equality: that they have one stamp.
  have hEqual := h.equal_eq h'
  cases h with
  | pair hStamp hFirst hRest =>
    cases h' with
    | pair hStamp' hFirst' hRest' => simp only [identical, c.stamp_iff hStamp hStamp']
    | _ => exact hEqual
  | _ => exact hEqual

/-! ## Parameter lists -/

/-- Corresponding values spell the same parameter list. -/
theorem parseOnto_eq (h : v.Alike c w) (f : Formals) (seenMarker : Bool) :
    f.parseOnto seenMarker v = f.parseOnto seenMarker w := by
  induction h generalizing f seenMarker with
  | pair hStamp hFirst hRest ihFirst ihRest =>
    -- a name goes to the list, and anything else into the text of the error
    have hText := hFirst.text_eq
    cases hFirst with
    | atom a =>
      cases a with
      | symbol name => simp only [Formals.parseOnto, ihRest]
      | _ => rfl
    | _ => simp only [Formals.parseOnto, hText]
  | atom a => rfl
  | undefined => rfl
  | builtin hStamp b => rfl
  | compound hStamp hKind hBody ih =>
    simp only [Formals.parseOnto, (Alike.compound hStamp hKind hBody).text_eq]
  | environment hFrame => rfl

theorem parse_eq (h : v.Alike c w) : Formals.parse v = Formals.parse w :=
  h.parseOnto_eq .empty false

/-! ## New pairs -/

/-- Chains of corresponding values correspond, if their stamps do. -/
theorem chainOfReverse {n n' : Stamp} (hStamps : ∀ k, c.stamp (n + k) (n' + k))
    {vs ws : List Value} (hs : AllAlike c vs ws) (h : v.Alike c w) :
    (chainOfReverse n v vs).Alike c (chainOfReverse n' w ws) := by
  induction hs generalizing n n' v w with
  | nil => exact h
  | cons hItem hItems ih =>
    -- the pair takes the first stamp, and the items before it those from the next on
    refine ih (fun k => ?_) (.pair (hStamps 0) hItem h)
    rw [Nat.add_right_comm, Nat.add_right_comm n', Nat.add_assoc, Nat.add_assoc]
    exact hStamps (k + 1)

/-- The chains of new pairs over items that are alike are alike. -/
theorem chain {n n' : Stamp} (hStamps : ∀ k, c.stamp (n + k) (n' + k)) {vs ws : List Value}
    (hs : AllAlike c vs ws) (h : v.Alike c w) : (chain n vs v).Alike c (chain n' ws w) :=
  chainOfReverse hStamps (List.forall₂_reverse_iff.mpr hs) h

end Alike
end Value
end MiniScheme
