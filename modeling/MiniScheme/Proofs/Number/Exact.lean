import MiniScheme.Number.Binary64
import Mathlib

/-!
# Doubles and exact numbers

A double is its sign and its bits without the sign, and a finite double is the
double nearest to the number it stands for: rounding is only ever felt by a
number that is no double.

* `Binary64.pack_unpack`, `Binary64.ofBits_toBits` — a double is its bits;
* `Binary64.ofMagnitudeBits_magnitudeBits` — and its sign with the other bits;
* `Dyadic.Spells` — a ratio that is a dyadic number;
* `Binary64.exponentOf_eq` — the search for the exponent finds that of the double;
* `Binary64.nearestBits_eq` — nothing is rounded where the ratio is a double.
-/

namespace MiniScheme

/-! ## The bits of a double -/

namespace Binary64

open Float.Model

/-- The three fields of a double are all of it. -/
theorem packComponents_fields (b : BitVec (Format.numBits .binary64)) :
    UnpackedFloat.packComponents .binary64 (.ofBitVec (UnpackedFloat.unpackSign b))
      (UnpackedFloat.unpackExponent b) (UnpackedFloat.unpackMantissa b) = b := by
  have hSign : (UnpackedFloat.Sign.ofBitVec (UnpackedFloat.unpackSign b)).toBitVec =
      UnpackedFloat.unpackSign b := by
    generalize UnpackedFloat.unpackSign b = v
    revert v
    decide
  rw [UnpackedFloat.packComponents, hSign]
  -- sign, exponent and mantissa stand at the bits 63, 52 and 0
  show b.extractLsb' 63 1 ++ b.extractLsb' 52 11 ++ b.extractLsb' 0 52 = b
  ext i hi
  simp only [BitVec.getElem_append, BitVec.getElem_extractLsb']
  grind

/-- A mantissa without the hidden bit is packed at the least exponent. -/
theorem pack_subnormal {s : UnpackedFloat.Sign} {mantissa : BitVec 52} (h : 0 < mantissa.toNat) :
    UnpackedFloat.pack .binary64 (.finite s mantissa.toNat (-1074) h) =
      UnpackedFloat.packComponents .binary64 s 0#11 mantissa := by
  have hLog : mantissa.toNat.log2 < 52 := (Nat.log2_lt (by omega)).mpr mantissa.isLt
  have hMantissa : mantissa.toNat.log2 + 1 ≠ Format.mantissaBits .binary64 := by
    show mantissa.toNat.log2 + 1 ≠ 53
    omega
  -- nor is the exponent so large that packing would overflow
  have hExponent : ¬ 2 ^ Format.exponentBits .binary64 ≤
      ((-1074 : Int) + Format.exponentBias .binary64 +
        Format.mantissaBitsWithoutImplicit .binary64).toNat + 1 := by
    decide
  simp only [UnpackedFloat.pack, hExponent, hMantissa, if_false]
  rw [BitVec.ofNat_toNat, BitVec.setWidth_eq]

/-- A mantissa with the hidden bit is packed without it. -/
theorem pack_normal {s : UnpackedFloat.Sign} {exponent : BitVec 11} {mantissa : BitVec 52}
    (h : 0 < (1#1 ++ mantissa).toNat) (hMax : exponent ≠ -1#11) :
    UnpackedFloat.pack .binary64 (.finite s (1#1 ++ mantissa).toNat (exponent.toNat - 1075) h) =
      UnpackedFloat.packComponents .binary64 s exponent mantissa := by
  have hLt := mantissa.isLt
  have hValue : (1#1 ++ mantissa).toNat = 2 ^ 52 + mantissa.toNat := by
    rw [BitVec.toNat_append, ← Nat.shiftLeft_add_eq_or_of_lt mantissa.isLt]
    rfl
  have hMantissa : (1#1 ++ mantissa).toNat.log2 + 1 = Format.mantissaBits .binary64 := by
    show (1#1 ++ mantissa).toNat.log2 + 1 = 53
    rw [hValue, Nat.add_right_cancel_iff, Nat.log2_eq_iff (by omega)]
    omega
  -- The bias was subtracted when the double was unpacked.
  have hBiased : ((exponent.toNat - 1075 : Int) + Format.exponentBias .binary64 +
      Format.mantissaBitsWithoutImplicit .binary64).toNat = exponent.toNat := by
    show ((exponent.toNat - 1075 : Int) + 1023 + 52).toNat = exponent.toNat
    omega
  have hExponent : ¬ 2 ^ Format.exponentBits .binary64 ≤ exponent.toNat + 1 := by
    show ¬ 2 ^ 11 ≤ exponent.toNat + 1
    bv_omega
  simp only [UnpackedFloat.pack, hBiased, hExponent, hMantissa, if_false, if_true]
  congr 1
  · rw [BitVec.ofNat_toNat, BitVec.setWidth_eq]
  · apply BitVec.eq_of_toNat_eq
    rw [BitVec.toNat_ofNat, hValue]
    omega

/-- Only a NaN that is not the canonical one is packed otherwise. -/
theorem pack_unpack {b : BitVec (Format.numBits .binary64)} (h : Format.binary64.Valid b) :
    UnpackedFloat.pack .binary64 (UnpackedFloat.unpack .binary64 b) = b := by
  have hFields := packComponents_fields b
  rw [UnpackedFloat.unpack]
  -- All ones in the exponent: an infinity or a NaN. All zeros: a zero or a subnormal number.
  split
  · rename_i hExponent
    split
    · rename_i hMantissa
      rwa [hExponent, hMantissa] at hFields
    · rename_i hMantissa
      exact (h.eq_packedNaN hExponent hMantissa).symm
  · split
    · rename_i hExponent
      split
      · rename_i hMantissa
        rwa [hExponent, hMantissa] at hFields
      · rename_i hMantissa
        rw [hExponent] at hFields ⊢
        exact (pack_subnormal _).trans hFields
    · rename_i hMax hMin
      exact (pack_normal _ hMax).trans hFields

theorem ofBits_toBits (x : Float) : Float.ofBits x.toBits = x := by
  obtain ⟨⟨bits, hValid⟩⟩ := x
  show Float.ofModel (Float.Model.pack (UnpackedFloat.unpack .binary64 bits.toBitVec)) = _
  simp only [Float.Model.pack, pack_unpack hValid]

/-- A double is its sign and its other bits. -/
theorem ofMagnitudeBits_magnitudeBits (x : Float) :
    ofMagnitudeBits (isNegative x) (magnitudeBits x) = x := by
  have hLt := x.toBits.toNat_lt
  have hBits : (if isNegative x then signBit + magnitudeBits x else magnitudeBits x) =
      x.toBits.toNat := by
    unfold isNegative magnitudeBits signBit
    grind
  rw [ofMagnitudeBits, hBits, UInt64.ofNat_toNat, ofBits_toBits]

end Binary64

/-! ## Exact ratios -/

/-- The binary logarithm of a product. -/
theorem log2_mul {m n : Nat} (hm : m ≠ 0) (hn : n ≠ 0) :
    m.log2 + n.log2 ≤ (m * n).log2 ∧ (m * n).log2 ≤ m.log2 + n.log2 + 1 := by
  have hmn : m * n ≠ 0 := Nat.mul_ne_zero hm hn
  constructor
  · rw [Nat.le_log2 hmn, Nat.pow_add]
    exact Nat.mul_le_mul (Nat.log2_self_le hm) (Nat.log2_self_le hn)
  · rw [← Nat.lt_succ_iff, Nat.log2_lt hmn]
    calc m * n < 2 ^ (m.log2 + 1) * 2 ^ (n.log2 + 1) :=
          Nat.mul_lt_mul'' Nat.lt_log2_self Nat.lt_log2_self
      _ = 2 ^ (m.log2 + n.log2 + 1 + 1) := by rw [← Nat.pow_add]; congr 1; omega

theorem timesPow_of_nonpos {exponent : Int} (h : exponent ≤ 0) (base n : Nat) :
    timesPow base n exponent = n := by
  rw [timesPow, Int.toNat_of_nonpos h, Nat.pow_eq, Nat.pow_zero, Nat.mul_one]

theorem timesPow_add_one {exponent : Int} (h : 0 ≤ exponent) (base n : Nat) :
    timesPow base n (exponent + 1) = base * timesPow base n exponent := by
  rw [timesPow, timesPow, Int.toNat_add h (by decide), Nat.pow_eq, Nat.pow_eq, Int.toNat_one,
    Nat.pow_succ, ← Nat.mul_assoc, Nat.mul_comm]

theorem timesPow_ne_zero {base n : Nat} (hBase : base ≠ 0) (hn : n ≠ 0) (exponent : Int) :
    timesPow base n exponent ≠ 0 :=
  Nat.mul_ne_zero hn (Nat.ne_of_gt (Nat.pow_pos (Nat.pos_of_ne_zero hBase)))

/-- Multiplying by powers of two adds to the logarithm. -/
theorem log2_timesPow {n : Nat} (hn : n ≠ 0) (exponent : Int) :
    (timesPow 2 n exponent).log2 = n.log2 + exponent.toNat := by
  rw [timesPow, Nat.pow_eq]
  induction exponent.toNat with
  | zero => rw [Nat.pow_zero, Nat.mul_one, Nat.add_zero]
  | succ k ih =>
    have hPos : n * 2 ^ k ≠ 0 := Nat.mul_ne_zero hn (Nat.ne_of_gt (Nat.two_pow_pos k))
    rw [Nat.pow_succ, ← Nat.mul_assoc, Nat.mul_comm, Nat.log2_two_mul hPos, ih, Nat.add_assoc]

open Binary64

/-- The ratio is the dyadic number `m * 2 ^ e`. -/
def Dyadic.Spells (num den m : Nat) (e : Int) : Prop :=
  scaledNumerator num e = m * scaledDenominator den e

namespace Dyadic.Spells

variable {num den m : Nat} {e : Int}

/-- The mantissa is twice as large at the exponent before. -/
theorem double (h : Spells num den m e) : Spells num den (2 * m) (e - 1) := by
  unfold Spells scaledNumerator scaledDenominator at *
  rcases Int.lt_or_le 0 e with he | he
  · have hDen := timesPow_add_one (show 0 ≤ e - 1 by omega) 2 den
    rw [Int.sub_add_cancel] at hDen
    rw [timesPow_of_nonpos (by omega)] at h ⊢
    rw [h, hDen, Nat.mul_comm 2 m, Nat.mul_assoc]
  · have hNum := timesPow_add_one (show 0 ≤ -e by omega) 2 num
    rw [timesPow_of_nonpos he] at h
    rw [timesPow_of_nonpos (show e - 1 ≤ 0 by omega), show -(e - 1) = -e + 1 by omega, hNum, h,
      Nat.mul_assoc]

/-- The scaled ratio is the significand, without a remainder. -/
theorem div_eq (h : Spells num den m e) (hDen : den ≠ 0) :
    scaledNumerator num e / scaledDenominator den e = m := by
  rw [h]
  exact Nat.mul_div_cancel m (Nat.pos_of_ne_zero (timesPow_ne_zero (by decide) hDen e))

theorem ne_zero (h : Spells num den m e) (hDen : den ≠ 0) (hm : m ≠ 0) : num ≠ 0 := by
  rintro rfl
  rw [Spells, scaledNumerator, timesPow, Nat.zero_mul] at h
  exact Nat.mul_ne_zero hm (timesPow_ne_zero (by decide) hDen e) h.symm

/-- The logarithms of the two parts of the ratio are as far apart as that of the
number, or one more. -/
theorem log2_sub (h : Spells num den m e) (hDen : den ≠ 0) (hm : m ≠ 0) :
    (m.log2 : Int) + e ≤ num.log2 - den.log2 ∧ (num.log2 : Int) - den.log2 ≤ m.log2 + e + 1 := by
  have hNum := h.ne_zero hDen hm
  have hScaled : timesPow 2 den e ≠ 0 := timesPow_ne_zero (by decide) hDen e
  have hLog := log2_mul hm hScaled
  rw [← scaledDenominator, ← h, scaledNumerator, scaledDenominator, log2_timesPow hNum,
    log2_timesPow hDen] at hLog
  omega

end Dyadic.Spells

namespace Binary64

variable {num den m : Nat} {e : Int}

/-- Where the ratio is a double, the exponent found is that of the double. -/
theorem exponentOf_eq (h : Dyadic.Spells num den m e) (hDen : den ≠ 0) (hm : m ≠ 0)
    (hLt : m < 2 * hiddenBit) (hLeast : -1074 ≤ e) (hHidden : e = -1074 ∨ hiddenBit ≤ m) :
    exponentOf num den = e := by
  have hLog := h.log2_sub hDen hm
  have hUpper : m.log2 < 53 := (Nat.log2_lt hm).mpr hLt
  -- The search begins at the logarithm of the ratio, which is known up to one.
  have hGuess : max ((num.log2 : Int) - den.log2 - 53) (-1074) = e ∨
      max ((num.log2 : Int) - den.log2 - 53) (-1074) = e - 1 ∧ hiddenBit ≤ m := by
    rcases hHidden with rfl | hHidden
    · omega
    · have hLower : 52 ≤ m.log2 := (Nat.le_log2 hm).mpr hHidden
      omega
  unfold exponentOf
  rcases hGuess with hGuess | ⟨hGuess, hHidden⟩
  · simp only [hGuess, h.div_eq hDen, hLt, if_true]
  · -- one below, twice the mantissa has a bit too many
    have hMany : ¬ 2 * m < 2 * hiddenBit := by omega
    simp only [hGuess, h.double.div_eq hDen, hMany, if_false]
    omega

theorem divHalfEven_mul {n k : Nat} (hk : k ≠ 0) : divHalfEven (n * k) k = n := by
  have hPos : 0 < k := Nat.pos_of_ne_zero hk
  simp [divHalfEven, Nat.mul_div_cancel n hPos, hPos]

/-- A ratio that a significand spells exactly has the bits of that double, or those
of infinity. -/
theorem nearestBits_eq_min (h : Dyadic.Spells num den m e) (hDen : den ≠ 0) (hm : m ≠ 0)
    (hLt : m < 2 * hiddenBit) (hLeast : -1074 ≤ e) (hHidden : e = -1074 ∨ hiddenBit ≤ m) :
    nearestBits num den = min ((e + 1074).toNat * hiddenBit + m) infinityBits := by
  have hScaled : scaledDenominator den e ≠ 0 := timesPow_ne_zero (by decide) hDen e
  simp only [nearestBits, h.ne_zero hDen hm, if_false,
    exponentOf_eq h hDen hm hLt hLeast hHidden]
  rw [h, divHalfEven_mul hScaled]

/-- Where the ratio is the number that some bits stand for, rounding finds these
bits. -/
theorem nearestBits_eq {bits : Nat} (hFinite : bits < infinityBits) (hSome : bits ≠ 0)
    (hDen : den ≠ 0)
    (h : Dyadic.Spells num den (Dyadic.ofBits bits).mantissa (Dyadic.ofBits bits).exponent) :
    nearestBits num den = bits := by
  unfold Dyadic.ofBits at h
  -- A subnormal number has no hidden bit and the least exponent.
  split at h
  · change Dyadic.Spells num den bits (-1074) at h
    rename_i hSubnormal
    rw [nearestBits_eq_min h hDen hSome (by omega) (by decide) (.inl rfl)]
    show min (0 * hiddenBit + bits) infinityBits = bits
    omega
  · change Dyadic.Spells num den (hiddenBit + bits % hiddenBit)
      ((bits / hiddenBit : Nat) - 1075) at h
    refine (nearestBits_eq_min h hDen ?_ ?_ ?_ ?_).trans ?_
    all_goals
      unfold hiddenBit at *
      omega

end Binary64

end MiniScheme
