import MiniScheme.Proofs.Number.Exact
import MiniScheme.Token.Word

/-!
# Numbers read back

The text of a finite number is a word that spells the same number: the digits
rounded are those of a decimal that rounds to the number, and writing a decimal
out only moves its exponent into its digits.

* `Decimal.nearestBits_shortest` — the digits found round to the number;
* `Decimal.positional_eq` — what is written out is a row of digits with at most
  one point among them;
* `Number.ofWord?_chars` — the text of a finite number spells it;
* `Number.ofWord_chars` — and it is a word that is nothing but that number.
-/

namespace MiniScheme

namespace Decimal

/-! ## Rounding the digits found -/

/-- Five times as much is at least two bits more. -/
theorem two_mul_le_log2_timesPow {m : Nat} (hm : m ≠ 0) (exponent : Int) :
    2 * exponent.toNat ≤ (timesPow 5 m exponent).log2 := by
  rw [Nat.le_log2 (timesPow_ne_zero (by decide) hm exponent), Nat.pow_mul, timesPow, Nat.mul_comm]
  calc (2 ^ 2) ^ exponent.toNat ≤ 5 ^ exponent.toNat := Nat.pow_le_pow_left (by decide) _
    _ ≤ 5 ^ exponent.toNat * m := Nat.le_mul_of_pos_right _ (Nat.pos_of_ne_zero hm)

/-- The exact expansion of a dyadic number is that number. -/
theorem spells_ofDyadic (d : Dyadic) :
    Dyadic.Spells (timesPow 10 (ofDyadic d).coefficient (ofDyadic d).exponent)
      (timesPow 10 1 (-(ofDyadic d).exponent)) d.mantissa d.exponent := by
  obtain ⟨m, e⟩ := d
  unfold Dyadic.Spells Binary64.scaledNumerator Binary64.scaledDenominator ofDyadic
  split
  · rename_i he
    have hNeg : -e ≤ 0 := Int.neg_nonpos_of_nonneg he
    simp [timesPow, Dyadic.numerator, Int.toNat_of_nonpos hNeg]
  · rename_i he
    have hNonpos : e ≤ 0 := by
      change ¬ 0 ≤ e at he
      omega
    have hTen : (10 : Nat) = 5 * 2 := rfl
    simp [timesPow, Int.toNat_of_nonpos hNonpos, Nat.mul_assoc, ← Nat.mul_pow]

/-- A decimal neither zero nor far outside the range of doubles is rounded as an
exact ratio. -/
theorem nearestBits_eq {d : Decimal} (hSome : d.coefficient ≠ 0) (hLarge : d.exponent ≤ 400)
    (hSmall : -(400 + (d.coefficient.log2 : Int)) ≤ d.exponent) :
    nearestBits d = Binary64.nearestBits (timesPow 10 d.coefficient d.exponent)
      (timesPow 10 1 (-d.exponent)) := by
  rw [nearestBits, if_neg hSome, if_neg (by omega), if_neg (by omega)]

/-- The exact expansion of a finite double rounds to it. -/
theorem nearestBits_ofDyadic {bits : Nat} (hFinite : bits < Binary64.infinityBits)
    (hSome : bits ≠ 0) : nearestBits (ofDyadic (.ofBits bits)) = bits := by
  have hMantissa : (Dyadic.ofBits bits).mantissa ≠ 0 := by
    unfold Dyadic.ofBits
    split
    · exact hSome
    · exact Nat.ne_of_gt (Nat.lt_of_lt_of_le (by decide) (Nat.le_add_right _ _))
  have hExact : Binary64.nearestBits _ _ = bits :=
    Binary64.nearestBits_eq hFinite hSome (timesPow_ne_zero (by decide) (by decide) _)
      (spells_ofDyadic (.ofBits bits))
  generalize Dyadic.ofBits bits = d at *
  obtain ⟨m, e⟩ := d
  change m ≠ 0 at hMantissa
  rw [nearestBits_eq, hExact]
  -- What is left is that the expansion is not so large or small that it is rounded unseen: for
  -- either sign of the exponent, some digits that are not zero, and its two bounds.
  all_goals
    unfold ofDyadic
    split
  · exact timesPow_ne_zero (by decide) hMantissa e
  · exact timesPow_ne_zero (by decide) hMantissa (-e)
  · show (0 : Int) ≤ 400
    decide
  · rename_i he
    change ¬ 0 ≤ e at he
    show e ≤ 400
    omega
  · show -(400 + ((timesPow 2 m e).log2 : Int)) ≤ 0
    omega
  · show -(400 + ((timesPow 5 m (-e)).log2 : Int)) ≤ e
    have hLog := two_mul_le_log2_timesPow hMantissa (-e)
    omega

/-- The digits found for a finite double round to it. -/
theorem nearestBits_shortest {bits : Nat} (hFinite : bits < Binary64.infinityBits)
    (hSome : bits ≠ 0) : nearestBits (shortest bits) = bits := by
  rw [shortest]
  -- What is found has been tested; where nothing is found, all digits are taken.
  cases hFound : (candidates _ _).find? _ with
  | none => exact nearestBits_ofDyadic hFinite hSome
  | some d =>
    have := List.find?_some hFound
    simpa using this

/-! ## Rows of digits -/

/-- The value of digits is that of the library. -/
theorem digitsValue_eq (digits : List Char) :
    digitsValue digits = Nat.ofDigitChars 10 digits 0 := by
  rw [Nat.ofDigitChars_eq_foldl]
  rfl

theorem digitsValue_digits (d : Decimal) : digitsValue d.digits = d.coefficient := by
  rw [digitsValue_eq, digits, Nat.ofDigitChars_ten_toDigits]

theorem digitsValue_append_zeros (digits : List Char) (n : Nat) :
    digitsValue (digits ++ List.replicate n '0') = digitsValue digits * 10 ^ n := by
  rw [digitsValue_eq, Nat.ofDigitChars_append, Nat.ofDigitChars_replicate_zero, ← digitsValue_eq,
    Nat.mul_comm]

theorem digitsValue_zeros_append (digits : List Char) (n : Nat) :
    digitsValue (List.replicate n '0' ++ digits) = digitsValue digits := by
  rw [digitsValue_eq, Nat.ofDigitChars_append, Nat.ofDigitChars_replicate_zero, Nat.mul_zero,
    ← digitsValue_eq]

/-- A row of digits is all taken off the front where no digit follows it. -/
theorem span_digits {digits rest : List Char} (hDigits : ∀ c ∈ digits, c.isDigit)
    (hRest : ∀ c ∈ rest.head?, c.isDigit = false) :
    (digits ++ rest).span Char.isDigit = (digits, rest) := by
  rw [List.span_eq_takeWhile_dropWhile, List.takeWhile_append_of_pos hDigits,
    List.dropWhile_append_of_pos hDigits]
  cases rest with
  | nil => simp
  | cons c rest =>
    have hc : c.isDigit = false := hRest c rfl
    simp [hc]

/-- A fraction is written after a point, unless it is empty. -/
def pointed (fraction : List Char) : List Char :=
  if fraction = [] then [] else '.' :: fraction

/-- Digits with at most one point among them are read to their end. -/
theorem mantissaOfWord?_pointed {whole fraction : List Char} (hWhole : whole ≠ [])
    (hDigits : ∀ c ∈ whole ++ fraction, c.isDigit) (negative : Bool) :
    mantissaOfWord? ((if negative then ['-'] else []) ++ (whole ++ pointed fraction)) =
      some (negative, ⟨digitsValue (whole ++ fraction), -(fraction.length : Int)⟩, []) := by
  -- The word is taken apart from the left: a sign, the digits before the point, those after it.
  have hSign : splitSign ((if negative then ['-'] else []) ++ (whole ++ pointed fraction)) =
      (negative, whole ++ pointed fraction) := by
    obtain ⟨c, whole, rfl⟩ := List.exists_cons_of_ne_nil hWhole
    have hc : c.isDigit := hDigits c List.mem_cons_self
    cases negative with
    | true => rfl
    | false =>
      have hMinus : c ≠ '-' := by
        rintro rfl
        exact absurd hc (by decide)
      have hPlus : c ≠ '+' := by
        rintro rfl
        exact absurd hc (by decide)
      simp only [Bool.false_eq_true, if_false, List.nil_append, List.cons_append]
      unfold splitSign
      split
      · simp_all
      · simp_all
      · rfl
  have hSpan : (whole ++ pointed fraction).span Char.isDigit = (whole, pointed fraction) := by
    refine span_digits (fun c hc => hDigits c (List.mem_append_left _ hc)) ?_
    unfold pointed
    split <;> simp
  have hFraction : splitFraction (pointed fraction) = (fraction, []) := by
    unfold pointed
    split
    · rename_i hNil
      rw [hNil]
      rfl
    · have hSplit : (fraction ++ []).span Char.isDigit = (fraction, []) :=
        span_digits (fun c hc => hDigits c (List.mem_append_right _ hc)) (by simp)
      rwa [List.append_nil] at hSplit
  simp only [mantissaOfWord?, hSign, hSpan, hFraction, hWhole, false_and, if_false]

/-- What is written for a decimal, with the zeros that stand for its exponent. -/
def plain (d : Decimal) : Decimal :=
  ⟨timesPow 10 d.coefficient d.exponent, min d.exponent 0⟩

theorem isDigit_of_mem_digits {d : Decimal} {c : Char} (h : c ∈ d.digits) : c.isDigit :=
  Nat.isDigit_of_mem_toDigits (by decide) (by decide) h

/-- A decimal is written as a row of digits with at most one point among them. -/
theorem positional_eq (d : Decimal) :
    ∃ whole fraction, d.positional = whole ++ pointed fraction ∧ whole ≠ [] ∧
      (∀ c ∈ whole ++ fraction, c.isDigit) ∧
      (⟨digitsValue (whole ++ fraction), -(fraction.length : Int)⟩ : Decimal) = d.plain := by
  have hZero : '0'.isDigit := by decide
  have hDigits : ∀ c ∈ d.digits, c.isDigit := fun c hc => isDigit_of_mem_digits hc
  have hSome : d.digits ≠ [] := Nat.toDigits_ne_nil
  -- There are no digits after the point, or some of them are, or all of them are and zeros stand
  -- before them.
  by_cases hPlaces : (-d.exponent).toNat = 0
  · refine ⟨d.digits ++ List.replicate d.exponent.toNat '0', [], ?_, ?_, ?_, ?_⟩
    · simp [positional, hPlaces, pointed]
    · simp [hSome]
    · simp only [List.append_nil, List.mem_append, List.mem_replicate]
      rintro c (hc | ⟨-, rfl⟩)
      · exact hDigits c hc
      · exact hZero
    · rw [List.append_nil, digitsValue_append_zeros, digitsValue_digits, plain, timesPow]
      congr 1
      show (0 : Int) = _
      omega
  · have hPlain : d.plain = ⟨d.coefficient, -((-d.exponent).toNat : Int)⟩ := by
      rw [plain, timesPow_of_nonpos (by omega)]
      congr 1
      omega
    rw [hPlain]
    generalize hPlaces' : (-d.exponent).toNat = places at *
    by_cases hInside : places < d.digits.length
    · refine ⟨d.digits.take (d.digits.length - places), d.digits.drop (d.digits.length - places),
        ?_, ?_, ?_, ?_⟩
      · have hFraction : d.digits.drop (d.digits.length - places) ≠ [] := by
          rw [Ne, List.drop_eq_nil_iff]
          omega
        simp [positional, hPlaces', hPlaces, hInside, pointed, hFraction]
      · rintro hNil
        rcases List.take_eq_nil_iff.mp hNil with hLength | hNone
        · omega
        · exact hSome hNone
      · rwa [List.take_append_drop]
      · rw [List.take_append_drop, digitsValue_digits, List.length_drop]
        congr 1
        omega
    · refine ⟨['0'], List.replicate (places - d.digits.length) '0' ++ d.digits, ?_, ?_, ?_, ?_⟩
      · simp [positional, hPlaces', hPlaces, hInside, pointed, hSome]
      · exact List.cons_ne_nil _ _
      · simp only [List.singleton_append, List.mem_cons, List.mem_append, List.mem_replicate]
        rintro c (rfl | ⟨-, rfl⟩ | hc)
        · exact hZero
        · exact hZero
        · exact hDigits c hc
      · rw [← List.append_assoc, List.singleton_append, ← List.replicate_succ,
          digitsValue_zeros_append, digitsValue_digits, List.length_append, List.length_replicate]
        congr 1
        omega

/-- Written out without an exponent, a finite decimal is rounded to the same double. -/
theorem nearestBits_plain {d : Decimal} (h : nearestBits d < Binary64.infinityBits) :
    nearestBits d.plain = nearestBits d := by
  by_cases hSome : d.coefficient = 0
  · simp [nearestBits, plain, hSome, timesPow]
  · -- a decimal that is rounded to infinity unseen is not finite
    have hLarge : d.exponent ≤ 400 := by
      by_contra hLarge
      rw [nearestBits, if_neg hSome, if_pos (by omega)] at h
      exact Nat.lt_irrefl _ h
    rcases Int.le_total d.exponent 0 with he | he
    -- A negative exponent stays, a positive one is worked into the digits.
    · rw [plain, timesPow_of_nonpos he, Int.min_eq_left he]
    · have hPlain : d.plain = ⟨timesPow 10 d.coefficient d.exponent, 0⟩ := by
        rw [plain, Int.min_eq_right he]
      rw [hPlain, nearestBits_eq hSome hLarge (by omega), nearestBits_eq]
      · show Binary64.nearestBits (timesPow 10 _ 0) (timesPow 10 1 0) = _
        rw [timesPow_of_nonpos Int.le_rfl, timesPow_of_nonpos Int.le_rfl,
          timesPow_of_nonpos (show -d.exponent ≤ 0 by omega)]
      · exact timesPow_ne_zero (by decide) hSome _
      · show (0 : Int) ≤ 400
        decide
      · show -(400 + _) ≤ (0 : Int)
        omega

end Decimal

namespace Number

open Binary64

/-! ## The text of a finite number -/

/-- The size of a finite number is written as a row of digits with at most one
point among them, and the decimal that they spell rounds to the number. -/
theorem magnitudeText_eq {bits : Nat} (hFinite : bits < infinityBits) :
    ∃ whole fraction, magnitudeText bits = whole ++ Decimal.pointed fraction ∧ whole ≠ [] ∧
      (∀ c ∈ whole ++ fraction, c.isDigit) ∧
      Decimal.nearestBits ⟨Decimal.digitsValue (whole ++ fraction), -(fraction.length : Int)⟩ =
        bits := by
  by_cases hZero : bits = 0
  · subst hZero
    have hDigits : ∀ c ∈ ['0'], c.isDigit := List.all_eq_true.mp (by decide)
    exact ⟨['0'], [], rfl, List.cons_ne_nil _ _, hDigits, by decide⟩
  · obtain ⟨whole, fraction, hText, hWhole, hDigits, hPlain⟩ :=
      Decimal.positional_eq (Decimal.shortest bits)
    have hShortest := Decimal.nearestBits_shortest hFinite hZero
    refine ⟨whole, fraction, ?_, hWhole, hDigits, ?_⟩
    · rw [magnitudeText, if_neg hZero, hText]
    · rw [hPlain, Decimal.nearestBits_plain (by omega), hShortest]

/-- The text of a finite number is a sign for a negative one and its size. -/
theorem chars_eq {x : Float} (hFinite : magnitudeBits x < infinityBits) :
    chars x = (if isNegative x then ['-'] else []) ++ magnitudeText (magnitudeBits x) := by
  simp only [chars, Nat.not_lt_of_lt hFinite, Nat.ne_of_lt hFinite, if_false]
  cases isNegative x <;> rfl

/-- The text of a finite number spells it. -/
theorem ofWord?_chars {x : Float} (hFinite : magnitudeBits x < infinityBits) :
    ofWord? (chars x) = some x := by
  obtain ⟨whole, fraction, hText, hWhole, hDigits, hBits⟩ := magnitudeText_eq hFinite
  have hRead := Decimal.mantissaOfWord?_pointed hWhole hDigits (isNegative x)
  rw [← hText, ← chars_eq hFinite] at hRead
  have hSpelt : Decimal.ofWord? (chars x) = some (isNegative x,
      ⟨Decimal.digitsValue (whole ++ fraction), -(fraction.length : Int)⟩) := by
    simp [Decimal.ofWord?, hRead, Decimal.exponentOfWord?]
  simp only [ofWord?, hSpelt, Option.map_some, hBits, ofMagnitudeBits_magnitudeBits]

/-- The text of a finite number is made of word characters. -/
theorem isWordChar_of_mem_chars {x : Float} (hFinite : magnitudeBits x < infinityBits) {c : Char}
    (hc : c ∈ chars x) : isWordChar c := by
  obtain ⟨whole, fraction, hText, hWhole, hDigits, hBits⟩ := magnitudeText_eq hFinite
  have hDigit : ∀ c : Char, c.isDigit → isWordChar c := by
    intro c hc
    simp [isWordChar, Char.isAlphanum, hc]
  -- A minus sign, a digit or the point.
  rw [chars_eq hFinite, hText] at hc
  rcases List.mem_append.mp hc with hSign | hSize
  · have hMinus : c = '-' := by
      split at hSign <;> simp_all
    rw [hMinus]
    decide
  · rcases List.mem_append.mp hSize with hWhole | hPointed
    · exact hDigit c (hDigits c (List.mem_append_left _ hWhole))
    · have hPoint : c = '.' ∨ c ∈ fraction := by
        unfold Decimal.pointed at hPointed
        split at hPointed <;> simp_all
      rcases hPoint with rfl | hFraction
      · decide
      · exact hDigit c (hDigits c (List.mem_append_right _ hFraction))

/-- The text of a finite number is the number and nothing else. -/
theorem ofWord_chars {x : Float} (hFinite : magnitudeBits x < infinityBits) :
    TokenKind.ofWord (chars x) = .number x := by
  have hRead := ofWord?_chars hFinite
  -- The dot and the two booleans are no numbers.
  have hOther : ∀ word, ofWord? word = none → chars x ≠ word := by
    rintro word hNone rfl
    rw [hNone] at hRead
    cases hRead
  rw [TokenKind.ofWord, if_neg (hOther _ (by decide)), if_neg (hOther _ (by decide)),
    if_neg (hOther _ (by decide)), hRead]

end Number
end MiniScheme
