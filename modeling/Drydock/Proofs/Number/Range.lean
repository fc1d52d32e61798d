/-
  Which numbers are floats, and how they lie to zero. An integer is near a float unless it lies half
  a unit below two to the 1024th or further out (`ofInt?_eq_none_iff`), and that float is a number
  (`isNaN_of_ofInt?`). A float that is not zero or less is above zero or no number
  (`not_le_zero_iff`).
-/
import Drydock.Number.Binary
import Mathlib.Tactic.Ring

namespace Drydock.Number

/-! ## Powers -/

theorem twoTo_add (k l : Nat) : twoTo (k + l) = twoTo k * twoTo l := Nat.pow_add 2 k l

theorem twoTo_succ (k : Nat) : twoTo (k + 1) = 2 * twoTo k := by
  rw [twoTo_add, Nat.mul_comm]
  rfl

theorem twoTo_pos (k : Nat) : 0 < twoTo k := Nat.two_pow_pos k

theorem twoTo_mono {k l : Nat} (h : k ≤ l) : twoTo k ≤ twoTo l :=
  Nat.pow_le_pow_right (by decide) h

/-- The two differences of exponents, of which one is nothing, make up for each other. -/
theorem twoTo_sub_mul (k l : Nat) : twoTo l * twoTo (k - l) = twoTo k * twoTo (l - k) := by
  rw [← twoTo_add, ← twoTo_add]
  congr 1
  omega

/-! ## Rounding -/

section Rounding

variable {num den k : Nat}

theorem roundDiv_cases (num den : Nat) :
    roundDiv num den = num / den ∨ roundDiv num den = num / den + 1 := by
  unfold roundDiv
  dsimp only
  split
  · exact Or.inl rfl
  · exact Or.inr rfl

theorem le_roundDiv (hden : 0 < den) (h : k * den ≤ num) : k ≤ roundDiv num den := by
  have hquotient : k ≤ num / den := (Nat.le_div_iff_mul_le hden).mpr h
  rcases roundDiv_cases num den with hround | hround <;> omega

theorem roundDiv_le (hden : 0 < den) (h : num < k * den) : roundDiv num den ≤ k := by
  have hquotient : num / den < k := (Nat.div_lt_iff_lt_mul hden).mpr h
  rcases roundDiv_cases num den with hround | hround <;> omega

/-- A quotient is rounded up to an even number from half a unit below it. -/
theorem succ_le_roundDiv_iff (hden : 0 < den) (hodd : k % 2 = 1) :
    k + 1 ≤ roundDiv num den ↔ (2 * k + 1) * den ≤ 2 * num := by
  have hhalf : (2 * k + 1) * den = 2 * (k * den) + den := by ring
  have hsplit : num = den * (num / den) + num % den := (Nat.div_add_mod num den).symm
  have hrest : num % den < den := Nat.mod_lt num hden
  rcases Nat.lt_trichotomy (num / den) k with hlow | hsame | hhigh
  · -- Below, even rounding up does not lead beyond the number.
    have hproduct : den * (num / den + 1) ≤ k * den := by
      rw [Nat.mul_comm k den]
      exact Nat.mul_le_mul_left den hlow
    have hnum : den * (num / den + 1) = den * (num / den) + den := by ring
    have hround : roundDiv num den ≤ k := roundDiv_le hden (by omega)
    omega
  · have hproduct : den * (num / den) = k * den := by rw [hsame, Nat.mul_comm]
    have hround : roundDiv num den = if 2 * (num % den) < den then k else k + 1 := by
      unfold roundDiv
      simp [hsame, hodd]
    rw [hround]
    split <;> omega
  · have hproduct : (k + 1) * den ≤ num := (Nat.le_div_iff_mul_le hden).mp hhigh
    have hround : k + 1 ≤ roundDiv num den := le_roundDiv hden hproduct
    have hnext : (k + 1) * den = k * den + den := by ring
    omega

end Rounding

/-! ## Integers -/

section Integers

variable {a : Nat}

theorem scaled_eq (num den : Nat) (exponent : Int) :
    scaled num den exponent = (num * twoTo (-exponent).toNat, den * twoTo exponent.toNat) := by
  cases exponent with
  | ofNat e =>
    have hnone : (-Int.ofNat e).toNat = 0 := by simp
    rw [hnone]
    exact Prod.ext (Nat.mul_one num).symm rfl
  | negSucc e => exact Prod.ext rfl (Nat.mul_one den).symm

/-- Counted in units of a power of two, a number has as many bits as are left of it. -/
theorem scaled_bounds (ha : a ≠ 0) (k : Nat) :
    twoTo k * twoTo (a.log2 - k) ≤ a * twoTo (k - a.log2) ∧
      a * twoTo (k - a.log2) < twoTo (k + 1) * twoTo (a.log2 - k) := by
  have hexchange := twoTo_sub_mul k a.log2
  constructor
  · rw [← hexchange]
    exact Nat.mul_le_mul_right _ (Nat.log2_self_le ha)
  · rw [twoTo_succ, Nat.mul_assoc, ← hexchange, ← Nat.mul_assoc, ← twoTo_succ]
    exact Nat.mul_lt_mul_of_pos_right Nat.lt_log2_self (twoTo_pos _)

/-- The float nearest to an integer has fifty-two bits behind its first. -/
theorem exponentFor_one (ha : a ≠ 0) : exponentFor a 1 = (a.log2 : Int) - 52 := by
  have hlow : max ((a.log2 : Int) - Nat.log2 1 - 53) minExponent = (a.log2 : Int) - 53 := by
    have hone : Nat.log2 1 = 0 := by decide
    rw [hone, minExponent]
    omega
  have hup : (-((a.log2 : Int) - 53)).toNat = 53 - a.log2 := by omega
  have hdown : ((a.log2 : Int) - 53).toNat = a.log2 - 53 := by omega
  have hlarge : mantissaBound ≤ a * twoTo (53 - a.log2) / (1 * twoTo (a.log2 - 53)) := by
    rw [Nat.one_mul]
    exact (Nat.le_div_iff_mul_le (twoTo_pos _)).mpr (scaled_bounds ha 53).1
  unfold exponentFor
  simp only [hlow, scaled_eq, hup, hdown, if_pos hlarge]
  omega

theorem nearestBits?_one (ha : a ≠ 0) : nearestBits? a 1 =
    let bits := (a.log2 + 1022) * twoTo 52 +
      roundDiv (a * twoTo (52 - a.log2)) (twoTo (a.log2 - 52))
    if bits < 2047 * twoTo 52 then some bits else none := by
  have hup : (-((a.log2 : Int) - 52)).toNat = 52 - a.log2 := by omega
  have hdown : ((a.log2 : Int) - 52).toNat = a.log2 - 52 := by omega
  have hplace : ((a.log2 : Int) - 52 - minExponent).toNat = a.log2 + 1022 := by
    rw [minExponent]
    omega
  unfold nearestBits?
  simp only [if_neg ha, exponentFor_one ha, scaled_eq, hup, hdown, hplace, Nat.one_mul]

/-- An integer lies beyond the floats by its size, or it is rounded up beyond the largest. -/
theorem nearestBits?_one_eq_none_iff (ha : a ≠ 0) : nearestBits? a 1 = none ↔
    1024 ≤ a.log2 ∨ (a.log2 = 1023 ∧ twoTo 53 ≤ roundDiv a (twoTo 971)) := by
  have h52 : twoTo 52 = 4503599627370496 := rfl
  have h53 : twoTo 53 = 9007199254740992 := rfl
  obtain ⟨hleast, hmost⟩ := scaled_bounds ha 52
  have hlow := le_roundDiv (twoTo_pos _) hleast
  have hhigh := roundDiv_le (twoTo_pos _) hmost
  rw [nearestBits?_one ha]
  simp only [ite_eq_right_iff, reduceCtorEq, imp_false, Nat.not_lt]
  by_cases hlast : a.log2 = 1023
  · have hnum : a * twoTo (52 - a.log2) = a := by
      rw [hlast]
      exact Nat.mul_one a
    have hplace : twoTo (a.log2 - 52) = twoTo 971 := by rw [hlast]
    rw [hnum, hplace, hlast, h52, h53]
    omega
  · generalize roundDiv (a * twoTo (52 - a.log2)) (twoTo (a.log2 - 52)) = mantissa at *
    rw [h52] at *
    rw [h53] at hhigh
    omega

/-- The least number that is rounded up to two to the 1024th, which is no float. -/
def leastBeyond : Nat := twoTo 1024 - twoTo 970

theorem leastBeyond_eq : leastBeyond = (2 * (twoTo 53 - 1) + 1) * twoTo 970 := by
  have hpower : twoTo 1024 = 2 * twoTo 53 * twoTo 970 := by rw [← twoTo_succ, ← twoTo_add]
  have hfactor : 2 * (twoTo 53 - 1) + 1 = 2 * twoTo 53 - 1 := by
    have hpos := twoTo_pos 53
    omega
  rw [leastBeyond, hpower, hfactor, Nat.sub_mul, Nat.one_mul]

theorem nearestBits?_eq_none_iff (a : Nat) : nearestBits? a 1 = none ↔ leastBeyond ≤ a := by
  have hunit : 0 < twoTo 970 := twoTo_pos 970
  have h971 : twoTo 971 = 2 * twoTo 970 := twoTo_succ 970
  have h1023 : twoTo 1023 ≤ leastBeyond := by
    have hdouble : twoTo 1024 = 2 * twoTo 1023 := twoTo_succ 1023
    have hless : twoTo 970 ≤ twoTo 1023 := twoTo_mono (by omega)
    rw [leastBeyond]
    omega
  have h1024 : leastBeyond ≤ twoTo 1024 := Nat.sub_le _ _
  by_cases ha : a = 0
  · subst ha
    have hpos := twoTo_pos 1023
    simp only [nearestBits?, if_true, reduceCtorEq, false_iff]
    omega
  have hlow : twoTo a.log2 ≤ a := Nat.log2_self_le ha
  have hhigh : a < twoTo (a.log2 + 1) := Nat.lt_log2_self
  rw [nearestBits?_one_eq_none_iff ha]
  rcases Nat.lt_trichotomy a.log2 1023 with hless | hsame | hmore
  · have hsmall : a < twoTo 1023 := Nat.lt_of_lt_of_le hhigh (twoTo_mono hless)
    omega
  · -- Here the last place is two to the 971st, and it is rounding that decides.
    have hround : twoTo 53 - 1 + 1 ≤ roundDiv a (twoTo 971) ↔
        (2 * (twoTo 53 - 1) + 1) * twoTo 971 ≤ 2 * a :=
      succ_le_roundDiv_iff (twoTo_pos 971) (by decide)
    have hbound : leastBeyond ≤ a ↔ (2 * (twoTo 53 - 1) + 1) * twoTo 971 ≤ 2 * a := by
      rw [h971, Nat.mul_left_comm, ← leastBeyond_eq]
      omega
    have hnext : twoTo 53 - 1 + 1 = twoTo 53 := by decide
    rw [hbound, ← hround, hnext]
    omega
  · have hlarge : twoTo 1024 ≤ a := Nat.le_trans (twoTo_mono hmore) hlow
    omega

/-- An integer is near a float unless it lies half a unit below two to the 1024th or further out. -/
theorem ofInt?_eq_none_iff (n : Int) : ofInt? n = none ↔ leastBeyond ≤ n.natAbs := by
  rw [ofInt?, Option.map_eq_none_iff, nearestBits?_eq_none_iff]

end Integers

/-! ## Order -/

section Order

open Float.Model

theorem le_zero_iff (x : Float) :
    x ≤ 0 ↔ x.toModel.unpack.le (.zero .positive) = true := by
  have hzero : (0 : Float).toModel.unpack = .zero .positive := by rfl
  rw [← hzero]
  show decide _ = true ↔ _
  rw [decide_eq_true_iff]
  exact Iff.rfl

theorem zero_lt_iff (x : Float) :
    0 < x ↔ UnpackedFloat.lt (.zero .positive) x.toModel.unpack = true := by
  have hzero : (0 : Float).toModel.unpack = .zero .positive := by rfl
  rw [← hzero]
  show decide _ = true ↔ _
  rw [decide_eq_true_iff]
  exact Iff.rfl

/-- What is not zero or less is above zero, or it is no number. -/
theorem not_le_zero_iff (x : Float) : ¬x ≤ 0 ↔ x.isNaN = true ∨ 0 < x := by
  have hnan : x.isNaN = x.toModel.unpack.isNaN := rfl
  rw [le_zero_iff, zero_lt_iff, hnan]
  cases x.toModel.unpack with
  | infinity sign => cases sign <;> decide
  | notANumber => decide
  | zero sign => cases sign <;> decide
  | finite sign mantissa exponent hpos =>
    cases sign with
    | positive => exact iff_of_true Bool.false_ne_true (Or.inr rfl)
    | negative =>
      have hbelow : ¬(false = true ∨ false = true) := by simp
      exact iff_of_false (fun h => h rfl) hbelow

theorem not_zero_lt_of_isNaN {x : Float} (h : x.isNaN = true) : ¬0 < x := by
  have hnan : x.toModel.unpack.isNaN = true := h
  rw [zero_lt_iff]
  cases hx : x.toModel.unpack with
  | notANumber => decide
  | _ =>
    rw [hx] at hnan
    exact absurd hnan Bool.false_ne_true

end Order

/-! ## Numbers -/

section Numbers

open Float.Model UnpackedFloat

variable {spec : Format}

/-- Bits stand for no number if the exponent is the greatest and the mantissa is not zero. -/
theorem isNaN_unpack_iff {b : BitVec spec.numBits} :
    (UnpackedFloat.unpack spec b).isNaN = true ↔
      unpackExponent b = -1#_ ∧ unpackMantissa b ≠ 0#_ := by
  unfold UnpackedFloat.unpack
  dsimp only
  by_cases hexponent : unpackExponent b = -1#_
  · rw [if_pos hexponent]
    by_cases hmantissa : unpackMantissa b = 0#_
    · rw [if_pos hmantissa]
      exact iff_of_false Bool.false_ne_true fun h => h.2 hmantissa
    · rw [if_neg hmantissa]
      exact iff_of_true rfl ⟨hexponent, hmantissa⟩
  · rw [if_neg hexponent]
    refine iff_of_false ?_ fun h => hexponent h.1
    by_cases hzero : unpackExponent b = 0#_
    · rw [if_pos hzero]
      by_cases hmantissa : unpackMantissa b = 0#_
      · rw [dif_pos hmantissa]
        exact Bool.false_ne_true
      · rw [dif_neg hmantissa]
        exact Bool.false_ne_true
    · rw [if_neg hzero]
      exact Bool.false_ne_true

theorem ofNat_ne_neg_one {w n : Nat} (h : n + 1 < 2 ^ w) : BitVec.ofNat w n ≠ -1#w := by
  intro hsame
  have hnat : n % 2 ^ w = 2 ^ w - 1 := by
    rw [← BitVec.toNat_ofNat, hsame, BitVec.neg_one_eq_allOnes, BitVec.toNat_allOnes]
  rw [Nat.mod_eq_of_lt (by omega)] at hnat
  omega

/-- A number is packed with a mantissa of zero or with an exponent that is not the greatest. -/
theorem isNaN_unpack_pack {f : UnpackedFloat} (h : f.isNaN = false) :
    (UnpackedFloat.unpack spec (UnpackedFloat.pack spec f)).isNaN = false := by
  rw [Bool.eq_false_iff, Ne, isNaN_unpack_iff, not_and, not_not]
  fun_cases UnpackedFloat.pack with
  | case1 => exact absurd h (by decide)
  | case2 sign => exact fun _ => unpackMantissa_packComponents
  | case3 sign => exact fun _ => unpackMantissa_packComponents
  | case4 sign mantissa exponent hpos biased hlarge =>
    exact fun _ => unpackMantissa_packComponents
  | case5 sign mantissa exponent hpos bits biased hsmall hnormal =>
    rw [unpackExponent_packComponents]
    exact fun hexponent => absurd hexponent (ofNat_ne_neg_one (by omega))
  | case6 sign mantissa exponent hpos bits biased hsmall hnormal =>
    have hbits : 0 + 1 < 2 ^ spec.exponentBits := Nat.one_lt_two_pow (Nat.ne_of_gt spec.he)
    rw [unpackExponent_packComponents]
    exact fun hexponent => absurd hexponent (ofNat_ne_neg_one hbits)

/-- A float that is made from bits is a number if they stand for one. -/
theorem isNaN_ofBits {bits : UInt64}
    (h : (UnpackedFloat.unpack Format.binary64 bits.toBitVec).isNaN = false) :
    (Float.ofBits bits).isNaN = false :=
  isNaN_unpack_pack h

theorem isNaN_ofSignedBits {negative : Bool} {bits : Nat} (h : bits < 2047 * twoTo 52) :
    (ofSignedBits negative bits).isNaN = false := by
  have h52 : twoTo 52 = 4503599627370496 := rfl
  have h63 : twoTo 63 = 9223372036854775808 := rfl
  rw [h52] at h
  apply isNaN_ofBits
  rw [Bool.eq_false_iff, Ne, isNaN_unpack_iff]
  rintro ⟨hexponent, -⟩
  have hnat := congrArg BitVec.toNat hexponent
  simp only [unpackExponent, BitVec.toNat_cast, BitVec.extractLsb_toNat,
    Nat.shiftRight_eq_div_pow] at hnat
  cases negative with
  | true =>
    rw [if_pos rfl, h63] at hnat
    change (9223372036854775808 + bits) % 2 ^ 64 / 2 ^ 52 % 2 ^ 11 = 2047 at hnat
    omega
  | false =>
    change bits % 2 ^ 64 / 2 ^ 52 % 2 ^ 11 = 2047 at hnat
    omega

/-- No integer counts as no number. -/
theorem isNaN_of_ofInt? {n : Int} {x : Float} (h : ofInt? n = some x) : x.isNaN = false := by
  obtain ⟨bits, hbits, rfl⟩ := Option.map_eq_some_iff.mp h
  apply isNaN_ofSignedBits
  unfold nearestBits? at hbits
  split at hbits
  · obtain rfl := Option.some.inj hbits
    decide
  · dsimp only at hbits
    split at hbits
    · next hless => exact Option.some.inj hbits ▸ hless
    · exact absurd hbits (by simp)

end Numbers

end Drydock.Number
