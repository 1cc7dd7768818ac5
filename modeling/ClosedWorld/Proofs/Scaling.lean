import ClosedWorld.Numeral.Reading
import Mathlib.Algebra.Group.Nat.Defs

/-!
# What is read as a double is a number

A numeral that scales up beyond the finite doubles is refused, by a test. One
that scales down is not tested, since dividing cannot overflow; this file shows
that it does not. The argument is about powers of two: the magnitude word of a
quotient below `2 ^ k` stays below the word of `2 ^ (k + 1)`, an integer of 64
bits starts at `k = 64`, and dividing by a power of ten, which is one at least,
twice adds a few units for the roundings. There is room for hundreds.
-/

namespace ClosedWorld

namespace Double

theorem binade_pos : 0 < binade := Nat.two_pow_pos 52

theorem two_binade : 2 * binade = 2 ^ 53 := rfl

/-- A quotient below the integer `m` rounds to `m` at most. -/
theorem roundHalfEven_le {num den m : Nat} (h : num < m * den) : roundHalfEven num den ≤ m := by
  have hwhole : num / den < m := Nat.div_lt_of_lt_mul (by rwa [Nat.mul_comm])
  rw [roundHalfEven]
  split <;> omega

/-- The exponent that the logarithms give; the one to use may be greater by one. -/
def lowExponent (num den : Nat) : Int := max minExponent ((num.log2 : Int) - den.log2 - 53)

theorem binaryExponent_eq (num den : Nat) :
    binaryExponent num den =
      if (scaled num den (lowExponent num den)).1 <
          2 * binade * (scaled num den (lowExponent num den)).2 then lowExponent num den
      else lowExponent num den + 1 := rfl

/-- One more than the exponent from the logarithms leaves a significand below
`2 ^ 53`. -/
theorem scaled_lowExponent_succ_lt (num : Nat) {den : Nat} (hden : den ≠ 0) :
    (scaled num den (lowExponent num den + 1)).1 <
      2 * binade * (scaled num den (lowExponent num den + 1)).2 := by
  have hle : (num.log2 : Int) - den.log2 - 53 ≤ lowExponent num den := Int.le_max_right ..
  generalize lowExponent num den = low at hle ⊢
  rw [two_binade]
  change num * 2 ^ (-(low + 1)).toNat < 2 ^ 53 * (den * 2 ^ (low + 1).toNat)
  calc num * 2 ^ (-(low + 1)).toNat
      < 2 ^ (num.log2 + 1) * 2 ^ (-(low + 1)).toNat :=
        Nat.mul_lt_mul_of_pos_right Nat.lt_log2_self (Nat.two_pow_pos _)
    _ = 2 ^ (num.log2 + 1 + (-(low + 1)).toNat) := (Nat.pow_add ..).symm
    _ ≤ 2 ^ (53 + (den.log2 + (low + 1).toNat)) := Nat.pow_le_pow_right (by omega) (by omega)
    _ = 2 ^ 53 * (2 ^ den.log2 * 2 ^ (low + 1).toNat) := by rw [Nat.pow_add, Nat.pow_add]
    _ ≤ 2 ^ 53 * (den * 2 ^ (low + 1).toNat) :=
        Nat.mul_le_mul_left _ (Nat.mul_le_mul_right _ (Nat.log2_self_le hden))

/-- The exponent in use leaves a significand below `2 ^ 53`. -/
theorem scaled_binaryExponent_lt (num : Nat) {den : Nat} (hden : den ≠ 0) :
    (scaled num den (binaryExponent num den)).1 <
      2 * binade * (scaled num den (binaryExponent num den)).2 := by
  rw [binaryExponent_eq]
  split
  next h => exact h
  next => exact scaled_lowExponent_succ_lt num hden

theorem binaryExponent_le (num den : Nat) : binaryExponent num den ≤ lowExponent num den + 1 := by
  rw [binaryExponent_eq]
  split <;> omega

/-- The word of a quotient below `2 ^ k` is at most that of `2 ^ (k + 1)`. -/
theorem nearest_le {num den k : Nat} (hden : den ≠ 0) (h : num < 2 ^ k * den) :
    nearest num den ≤ (k + 1024) * binade := by
  rw [nearest]
  split
  next => exact Nat.zero_le _
  next hnum =>
      have hround := roundHalfEven_le (scaled_binaryExponent_lt num hden)
      have hlog : num.log2 ≤ k + den.log2 := by
        have hlt : num < 2 ^ (k + den.log2 + 1) :=
          calc num < 2 ^ k * den := h
            _ ≤ 2 ^ k * 2 ^ (den.log2 + 1) :=
              Nat.mul_le_mul_left _ (Nat.le_of_lt Nat.lt_log2_self)
            _ = 2 ^ (k + den.log2 + 1) := by rw [← Nat.pow_add, Nat.add_assoc]
        exact Nat.le_of_lt_succ ((Nat.log2_lt hnum).mpr hlt)
      have hexp : (binaryExponent num den - minExponent).toNat ≤ k + 1022 := by
        have hle := binaryExponent_le num den
        simp only [lowExponent, minExponent] at hle ⊢
        omega
      calc (binaryExponent num den - minExponent).toNat * binade
            + roundHalfEven (scaled num den (binaryExponent num den)).1
              (scaled num den (binaryExponent num den)).2
          ≤ (k + 1022) * binade + 2 * binade :=
            Nat.add_le_add (Nat.mul_le_mul_right _ hexp) hround
        _ = (k + 1024) * binade := (Nat.add_mul ..).symm

/-- A word of a binade below `k + 1024` stands for less than `2 ^ (k + 2)`. -/
theorem ratio_lt {a k : Nat} (h : a ≤ (k + 1024) * binade) :
    (ratio a).1 < 2 ^ (k + 2) * (ratio a).2 := by
  have hsig : significandOf a < 2 ^ 53 := by
    rw [significandOf, ← two_binade]
    split
    · omega
    · have := Nat.mod_lt a binade_pos
      omega
  have hexp : exponentOf a ≤ k - 51 := by
    have hdiv : a / binade ≤ k + 1024 := Nat.div_le_of_le_mul (by rwa [Nat.mul_comm])
    simp only [exponentOf, minExponent]
    split <;> omega
  change significandOf a * 2 ^ (exponentOf a).toNat < 2 ^ (k + 2) * 2 ^ (-exponentOf a).toNat
  generalize exponentOf a = e at hexp
  calc significandOf a * 2 ^ e.toNat
      < 2 ^ 53 * 2 ^ e.toNat := Nat.mul_lt_mul_of_pos_right hsig (Nat.two_pow_pos _)
    _ = 2 ^ (53 + e.toNat) := (Nat.pow_add ..).symm
    _ ≤ 2 ^ (k + 2 + (-e).toNat) := Nat.pow_le_pow_right (by omega) (by omega)
    _ = 2 ^ (k + 2) * 2 ^ (-e).toNat := Nat.pow_add ..

/-- A word from the binade of 1 on stands for at least 1. -/
theorem le_ratio {b : Nat} (h : 1023 * binade ≤ b) : (ratio b).2 ≤ (ratio b).1 := by
  have hle : binade ≤ b := by omega
  have hsig : 2 ^ 52 ≤ significandOf b := by
    rw [significandOf, if_neg (by omega)]
    exact Nat.le_add_left ..
  have hexp : -52 ≤ exponentOf b := by
    have hdiv : 1023 ≤ b / binade := (Nat.le_div_iff_mul_le binade_pos).mpr h
    rw [exponentOf, if_neg (by omega), minExponent]
    omega
  change 2 ^ (-exponentOf b).toNat ≤ significandOf b * 2 ^ (exponentOf b).toNat
  generalize exponentOf b = e at hexp
  calc 2 ^ (-e).toNat ≤ 2 ^ 52 := Nat.pow_le_pow_right (by omega) (by omega)
    _ ≤ significandOf b := hsig
    _ ≤ significandOf b * 2 ^ e.toNat := Nat.le_mul_of_pos_right _ (Nat.two_pow_pos _)

theorem ratio_snd_pos (a : Nat) : 0 < (ratio a).2 := Nat.two_pow_pos _

/-- Dividing by a double from 1 on adds two binades for rounding, and no more. -/
theorem quotient_le {a b k : Nat} (ha : a ≤ (k + 1024) * binade) (hb : 1023 * binade ≤ b) :
    quotient a b ≤ (k + 2 + 1024) * binade := by
  have hpos : 0 < (ratio b).1 := Nat.lt_of_lt_of_le (ratio_snd_pos b) (le_ratio hb)
  refine nearest_le (Nat.ne_of_gt (Nat.mul_pos (ratio_snd_pos a) hpos)) ?_
  calc (ratio a).1 * (ratio b).2
      ≤ (ratio a).1 * (ratio b).1 := Nat.mul_le_mul_left _ (le_ratio hb)
    _ < 2 ^ (k + 2) * (ratio a).2 * (ratio b).1 := Nat.mul_lt_mul_of_pos_right (ratio_lt ha) hpos
    _ = 2 ^ (k + 2) * ((ratio a).2 * (ratio b).1) := Nat.mul_assoc ..

theorem le_ten : ∀ k ≤ maxTen, 1023 * binade ≤ ten k := by decide +kernel

theorem zero_lt_infinity : 0 < infinity := by decide

theorem lt_infinity {a k : Nat} (h : a ≤ (k + 1024) * binade) (hk : k < 1023) : a < infinity :=
  Nat.lt_of_le_of_lt h (Nat.mul_lt_mul_of_pos_right (by omega) binade_pos)

/-- An integer of 64 bits over a power of ten does not overflow. -/
theorem scaleDown_lt_infinity {m : Nat} (hm : m < 2 ^ 64) (k : Nat) :
    scaleDown (nearest m 1) k < infinity := by
  have hnearest : nearest m 1 ≤ (64 + 1024) * binade := nearest_le Nat.one_ne_zero (by omega)
  rw [scaleDown]
  split
  next hk => exact lt_infinity (quotient_le hnearest (le_ten k hk)) (by omega)
  next hk =>
      split
      next hk' =>
          have hfirst := quotient_le hnearest (le_ten maxTen (Nat.le_refl _))
          exact lt_infinity (quotient_le hfirst (le_ten (k - maxTen) (by omega))) (by omega)
      next => exact zero_lt_infinity

theorem scaleUp_lt_infinity {a k word : Nat} (h : scaleUp a k = some word) : word < infinity := by
  simp only [scaleUp] at h
  split at h
  next =>
      cases h
      exact zero_lt_infinity
  next =>
      split at h
      next => cases h
      next =>
          split at h
          next hword =>
              cases h
              exact hword
          next => cases h

theorem scale_lt_infinity {m : Nat} (hm : m < 2 ^ 64) {e : Int} {word : Nat}
    (h : scale (nearest m 1) e = some word) : word < infinity := by
  rw [scale] at h
  split at h
  next => exact scaleUp_lt_infinity h
  next =>
      cases h
      exact scaleDown_lt_infinity hm _

theorem isFinite_ofMagnitude (negative : Bool) {word : Nat} (h : word < infinity) :
    (ofMagnitude negative word).isFinite = true := by
  have hword : word < signBit := Nat.lt_trans h (by decide)
  have hmagnitude : (ofMagnitude negative word).magnitude = word := by
    have hbits : signBit + signBit = UInt64.size := rfl
    have hsum : (if negative then signBit else 0) + word < UInt64.size := by
      split <;> omega
    have htoNat : ((if negative then signBit else 0) + word).toUInt64.toNat = _ :=
      UInt64.toNat_ofNat_of_lt' hsum
    rw [magnitude, ofMagnitude, htoNat]
    split
    · rw [Nat.add_mod_left, Nat.mod_eq_of_lt hword]
    · rw [Nat.zero_add, Nat.mod_eq_of_lt hword]
  rw [isFinite, hmagnitude]
  exact decide_eq_true h

end Double

namespace Numeral

theorem fill_lt {n : Nat} (hn : n < UInt64.size) (ds : List Digit) :
    (fill n ds).1 < UInt64.size := by
  induction ds generalizing n with
  | nil => exact hn
  | cons d ds ih =>
      rw [fill]
      split
      next h => exact ih h
      next => exact hn

theorem leading_lt (n : Numeral) : n.leading.1 < UInt64.size :=
  fill_lt (fill_lt (by decide) _) _

/-- What a numeral in data is read as is neither an infinity nor a NaN. -/
theorem isFinite_of_toDouble? {n : Numeral} {x : Double} (h : n.toDouble? = some x) :
    x.isFinite = true := by
  obtain ⟨word, hword, rfl⟩ := Option.map_eq_some_iff.mp h
  exact Double.isFinite_ofMagnitude _ (Double.scale_lt_infinity n.leading_lt hword)

end Numeral

end ClosedWorld
