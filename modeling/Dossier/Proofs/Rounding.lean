import Mathlib.Tactic.Ring
import Dossier.Proofs.Plain

/-!
# Rounding to the nearest number

A whole number is rounded to the finite number that lies nearest to it, and to the
one with an even mantissa if two lie equally near (`Binary64.nearest_ofInt`). The
numbers from the mantissa's highest bit on lie on a grid, and rounding picks the
nearest point of that grid; the numbers between two of its points are all too small
to matter.
-/

namespace Dossier.Binary64

/-- How far so many units are from `num / den` units, in parts of which `den` make a unit. -/
def offBy (units num den : Nat) : Nat := ((units * den : Nat) - num : Int).natAbs

theorem offBy_mul (units factor num den : Nat) :
    offBy (units * factor) num den = offBy units num (den * factor) := by
  rw [offBy, offBy, Nat.mul_assoc, Nat.mul_comm factor]

/-- Rounding gives the nearest whole number, and an even one if another is as near. -/
theorem roundHalfEven_nearest (num m : Nat) {den : Nat} (positive : 0 < den) :
    offBy (roundHalfEven num den) num den < offBy m num den ∨
      offBy (roundHalfEven num den) num den = offBy m num den ∧
        (m = roundHalfEven num den ∨ roundHalfEven num den % 2 = 0) := by
  have split := Nat.div_add_mod num den
  have rest := Nat.mod_lt num positive
  have below : (num / den + 1) * den = den * (num / den) + den := by
    rw [Nat.add_one_mul, Nat.mul_comm]
  have same : num / den * den = den * (num / den) := Nat.mul_comm _ _
  unfold roundHalfEven offBy
  dsimp only
  rcases Nat.lt_trichotomy m (num / den) with less | rfl | more
  · -- a point below the two that enclose the fraction
    have far : (m + 1) * den ≤ num / den * den := Nat.mul_le_mul_right den less
    rw [Nat.add_one_mul] at far
    split <;> omega
  · split <;> omega
  · have far : (num / den + 1) * den ≤ m * den := Nat.mul_le_mul_right den more
    by_cases next : m = num / den + 1
    · subst next
      split <;> omega
    · have farther : (num / den + 1 + 1) * den ≤ m * den :=
        Nat.mul_le_mul_right den (by omega)
      rw [Nat.add_one_mul] at farther
      split <;> omega

/-! ## Finite numbers -/

theorem mul_one_shiftLeft (n k : Nat) : n * 1 <<< k = n <<< k := by
  rw [Nat.shiftLeft_eq, Nat.shiftLeft_eq, Nat.one_mul]

/-- A packed number is what it was packed of, with as even a mantissa. -/
theorem units_of_pack {negative : Bool} {mantissa shift : Nat} {x : Finite}
    (h : pack negative mantissa shift = .finite x) :
    x.negative = negative ∧ x.units = mantissa * 2 ^ shift ∧
      (mantissa % 2 = 0 → x.mantissa % 2 = 0) := by
  unfold pack at h
  split at h
  · cases h
    exact ⟨rfl, Nat.shiftLeft_eq _ _, id⟩
  · split at h
    · next carried =>
      cases h
      have doubled : 4503599627370496 * 2 ^ (shift + 1) = 9007199254740992 * 2 ^ shift := by
        rw [Nat.pow_succ]
        omega
      refine ⟨rfl, ?_, fun _ => (by decide : 4503599627370496 % 2 = 0)⟩
      rw [Finite.units, Nat.shiftLeft_eq, doubled, carried.1]
    · cases h

/-- **Rounding is to the nearest number.** The magnitude is as near to the fraction as that of any
other number, and even if another is as near. -/
theorem nearest_of_ofUnits {negative : Bool} {num den : Nat} {x : Finite} (positive : 0 < den)
    (h : ofUnits negative num den = .finite x) (y : Finite) :
    x.negative = negative ∧ (offBy x.units num den < offBy y.units num den ∨
      offBy x.units num den = offBy y.units num den ∧
        (y.units = x.units ∨ x.mantissa % 2 = 0)) := by
  unfold ofUnits at h
  dsimp only at h
  generalize within : (num / den).log2 - 52 = shift at h
  obtain ⟨sign, units, even⟩ := units_of_pack h
  have step : 0 < den <<< shift := by
    rw [Nat.shiftLeft_eq]
    exact Nat.mul_pos positive (Nat.two_pow_pos shift)
  -- rounding to the grid of the shift is nearest among the points of that grid
  have grid := fun m => roundHalfEven_nearest num m step
  rw [Nat.shiftLeft_eq] at grid units even
  refine ⟨sign, ?_⟩
  rw [units, offBy_mul]
  by_cases coarse : shift ≤ y.shift
  · -- the other number is a point of the grid
    have point : y.units = y.mantissa * 2 ^ (y.shift - shift) * 2 ^ shift := by
      rw [Finite.units, Nat.shiftLeft_eq, Nat.mul_assoc, ← Nat.pow_add, Nat.sub_add_cancel coarse]
    rw [point, offBy_mul]
    exact (grid _).imp_right fun ⟨same, tie⟩ => ⟨same, tie.imp (fun eq => by rw [eq]) even⟩
  · -- the other number lies below the power of two that the fraction reaches
    have large : 2 ^ 52 * (den * 2 ^ shift) ≤ num := by
      have bits : (num / den).log2 = shift + 52 := by omega
      have nonzero : num / den ≠ 0 := by
        intro none
        rw [none, Nat.log2_zero] at bits
        omega
      have reached := Nat.log2_self_le nonzero
      rw [bits, Nat.le_div_iff_mul_le positive, Nat.pow_add] at reached
      calc 2 ^ 52 * (den * 2 ^ shift) = 2 ^ shift * 2 ^ 52 * den := by ring
        _ ≤ num := reached
    have small : y.units * den < 2 ^ 52 * (den * 2 ^ shift) := by
      have next : 2 * 2 ^ y.shift ≤ 2 ^ shift := by
        rw [← Nat.pow_succ']
        exact Nat.pow_le_pow_right (by decide) (by omega)
      have units : y.units < 2 ^ 52 * 2 ^ shift := by
        rw [Finite.units, Nat.shiftLeft_eq]
        calc y.mantissa * 2 ^ y.shift < 2 ^ 53 * 2 ^ y.shift :=
              Nat.mul_lt_mul_of_pos_right y.mantissa_lt (Nat.two_pow_pos _)
          _ = 2 ^ 52 * (2 * 2 ^ y.shift) := by ring
          _ ≤ 2 ^ 52 * 2 ^ shift := Nat.mul_le_mul_left _ next
      calc y.units * den < 2 ^ 52 * 2 ^ shift * den := Nat.mul_lt_mul_of_pos_right units positive
        _ = 2 ^ 52 * (den * 2 ^ shift) := by ring
    have nearer := grid (2 ^ 52)
    have farther : offBy (2 ^ 52) num (den * 2 ^ shift) < offBy y.units num den := by
      unfold offBy
      omega
    left
    omega

namespace Finite

/-- How many units make one. -/
def unitsOfOne : Nat := 1 <<< 1074

/-- The number in units, with its sign. -/
def value (x : Finite) : Int := if x.negative then -(x.units : Int) else x.units

/-- How many units the number is away from a whole number. -/
def gap (x : Finite) (n : Int) : Nat := (x.value - n * unitsOfOne).natAbs

/-- No number is nearer to the whole number, and if another is as near, the mantissa is even. -/
structure Nearest (x : Finite) (n : Int) : Prop where
  least : ∀ y : Finite, x.gap n ≤ y.gap n
  even : ∀ y : Finite, y.gap n = x.gap n → y.value = x.value ∨ x.mantissa % 2 = 0

/-- Between numbers of one sign the gap is that of their magnitudes. -/
theorem gap_eq (x : Finite) (n : Int) :
    x.gap n = if x.negative = decide (n < 0) then offBy x.units (n.natAbs * unitsOfOne) 1
      else x.units + n.natAbs * unitsOfOne := by
  have magnitude : (n.natAbs : Int) * unitsOfOne = (n.natAbs * unitsOfOne : Nat) :=
    (Int.natCast_mul _ _).symm
  by_cases below : n < 0
  · have signed : n * unitsOfOne = -(n.natAbs * unitsOfOne : Nat) := by
      rw [← magnitude, ← Int.neg_mul]
      congr 1
      omega
    unfold gap value offBy
    rw [signed, decide_eq_true below]
    generalize n.natAbs * unitsOfOne = size
    cases x.negative <;> simp only [Bool.false_eq_true, if_true, if_false] <;> omega
  · have signed : n * unitsOfOne = (n.natAbs * unitsOfOne : Nat) := by
      rw [← magnitude]
      congr 1
      omega
    unfold gap value offBy
    rw [signed, decide_eq_false below]
    generalize n.natAbs * unitsOfOne = size
    cases x.negative <;>
      simp only [Bool.true_eq_false, Bool.false_eq_true, if_true, if_false] <;> omega

theorem value_eq_zero {x : Finite} (h : x.units = 0) : x.value = 0 := by
  unfold value
  rw [h]
  split <;> rfl

end Finite

/-- **A whole number is rounded to the nearest number.** -/
theorem nearest_ofInt {n : Int} {x : Finite} (h : ofInt n = .finite x) : x.Nearest n := by
  have rounded := nearest_of_ofUnits Nat.one_pos h
  have sign : x.negative = decide (n < 0) := (rounded x).1
  have closest : ∀ y : Finite,
      offBy x.units (n.natAbs * Finite.unitsOfOne) 1 <
        offBy y.units (n.natAbs * Finite.unitsOfOne) 1 ∨
      offBy x.units (n.natAbs * Finite.unitsOfOne) 1 =
        offBy y.units (n.natAbs * Finite.unitsOfOne) 1 ∧
          (y.units = x.units ∨ x.mantissa % 2 = 0) := by
    have units : n.natAbs * Finite.unitsOfOne = n.natAbs <<< 1074 := mul_one_shiftLeft _ _
    rw [units]
    exact fun y => (rounded y).2
  -- zero is a number of either sign, which bounds how far off the nearest one is
  have zero := closest (.zero false)
  have none : (Finite.zero false).units = 0 := Nat.zero_shiftLeft _
  rw [none] at zero
  refine ⟨fun y => ?_, fun y tie => ?_⟩
  · have nearer := closest y
    rw [x.gap_eq, y.gap_eq, if_pos sign]
    unfold offBy at nearer ⊢
    split <;> omega
  · have nearer := closest y
    rw [x.gap_eq, y.gap_eq, if_pos sign] at tie
    unfold offBy at nearer tie zero
    split at tie
    · next same =>
      rcases nearer with less | ⟨-, alike⟩
      · omega
      · refine alike.imp_left fun units => ?_
        rw [Finite.value, Finite.value, same, sign, units]
    · -- a number of the other sign is as near only if both are zero
      by_cases even : x.mantissa % 2 = 0
      · exact .inr even
      · left
        rw [Finite.value_eq_zero (by omega : y.units = 0),
          Finite.value_eq_zero (by omega : x.units = 0)]

end Dossier.Binary64
