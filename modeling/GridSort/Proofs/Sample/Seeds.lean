import Mathlib.Logic.Equiv.Basic
import GridSort.Sample

namespace GridSort

/-! Seeds. Scrambling composes steps that can each be undone: a word is folded onto itself by a
shift, or it is multiplied by a number that has an inverse. No two seeds meet, so samples of one
size with different salts never start from the same seed. -/

namespace Seed

theorem xor_xor_cancel (word other : UInt64) : word ^^^ (word ^^^ other) = other := by
  rw [← UInt64.xor_assoc, UInt64.xor_self, UInt64.zero_xor]

/-- Nothing is left of a word once it is shifted by its width or more. -/
theorem shiftRight_thrice {shift : UInt64} (inside : shift.toNat < 64)
    (long : 64 ≤ 3 * shift.toNat) (word : UInt64) : word >>> shift >>> shift >>> shift = 0 := by
  apply UInt64.toNat.inj
  have small : word.toNat < 2 ^ (shift.toNat + (shift.toNat + shift.toNat)) :=
    Nat.lt_of_lt_of_le word.toNat_lt (Nat.pow_le_pow_right (by decide) (by omega))
  simp only [UInt64.toNat_shiftRight, Nat.mod_eq_of_lt inside]
  rw [← Nat.shiftRight_add, ← Nat.shiftRight_add, Nat.shiftRight_eq_div_pow,
    Nat.div_eq_of_lt small, UInt64.toNat_zero]

/-- Folds a word onto itself: its high bits are mixed into its low ones. The low bits that they
came to are known from the high ones, so two more folds take them out again. -/
def fold (shift : UInt64) (inside : shift.toNat < 64) (long : 64 ≤ 3 * shift.toNat) :
    UInt64 ≃ UInt64 where
  toFun word := word ^^^ word >>> shift
  invFun word := word ^^^ (word ^^^ word >>> shift) >>> shift
  left_inv word := by
    simp only [UInt64.shiftRight_xor, shiftRight_thrice inside long, UInt64.xor_assoc,
      xor_xor_cancel, UInt64.xor_self, UInt64.xor_zero]
  right_inv word := by
    simp only [UInt64.shiftRight_xor, shiftRight_thrice inside long, UInt64.xor_zero]
    rw [UInt64.xor_assoc, UInt64.xor_self, UInt64.xor_zero]

/-- Multiplies by a number that has an inverse, as every odd one has. -/
def multiply (factor inverse : UInt64) (unit : factor * inverse = 1) : UInt64 ≃ UInt64 where
  toFun word := word * factor
  invFun word := word * inverse
  left_inv word := by simp only [UInt64.mul_assoc, unit, UInt64.mul_one]
  right_inv word := by simp only [UInt64.mul_assoc, UInt64.mul_comm inverse, unit, UInt64.mul_one]

/-- The steps of `scramble`, each with the step that undoes it. -/
def scrambling : UInt64 ≃ UInt64 :=
  (fold 30 (by decide) (by decide)).trans <|
    (multiply 0xBF58476D1CE4E5B9 0x96DE1B173F119089 (by decide)).trans <|
      (fold 27 (by decide) (by decide)).trans <|
        (multiply 0x94D049BB133111EB 0x319642B2D24D8EC3 (by decide)).trans <|
          fold 31 (by decide) (by decide)

theorem ofNat_injective {size other : Nat} (small : size ≤ Size.largest)
    (otherSmall : other ≤ Size.largest) (same : UInt64.ofNat size = UInt64.ofNat other) :
    size = other := by
  have words : Size.largest < UInt64.size := by decide
  rw [← UInt64.toNat_ofNat_of_lt' (Nat.lt_of_le_of_lt small words), same,
    UInt64.toNat_ofNat_of_lt' (Nat.lt_of_le_of_lt otherSmall words)]

end Seed

theorem scramble_injective : Function.Injective scramble := Seed.scrambling.injective

namespace Distribution

/-- Scrambling can be undone on both sides. Samples of one size start from different seeds if
their salts differ, and samples with one salt do if their sizes differ, whichever generator the
seed then starts. -/
theorem seeds_apart :
    (∃ unscramble : UInt64 → UInt64,
      (∀ seed, unscramble (scramble seed) = seed) ∧ ∀ seed, scramble (unscramble seed) = seed) ∧
    (∀ first second : UInt64, first ≠ second → scramble first ≠ scramble second) ∧
    (∀ (seeding : UInt64 → Draws) (distribution : Distribution) (size : Nat) (salt : UInt64),
      distribution.generate seeding size salt =
        distribution.sample (seeding (seed size salt)) size) ∧
    (∀ (size : Nat) (first second : UInt64), first ≠ second →
      seed size first ≠ seed size second) ∧
    ∀ (first second : Nat) (salt : UInt64), first ≤ Size.largest → second ≤ Size.largest →
      first ≠ second → seed first salt ≠ seed second salt := by
  refine ⟨⟨Seed.scrambling.symm, Seed.scrambling.symm_apply_apply,
    Seed.scrambling.apply_symm_apply⟩, fun _ _ => scramble_injective.ne, fun _ _ _ _ => rfl, ?_, ?_⟩
  · intro size first second distinct
    exact scramble_injective.ne fun same => distinct ((UInt64.xor_right_inj _).mp same)
  · intro first second salt small otherSmall distinct
    refine scramble_injective.ne fun same => distinct (Seed.ofNat_injective small otherSmall ?_)
    exact (UInt64.xor_right_inj _).mp ((UInt64.xor_left_inj _).mp same)

/-- Neighbouring sizes and salts, up to the largest size. -/
theorem seeds_apart_small : scramble 0 ≠ scramble 1 ∧ seed 1000 1 ≠ seed 1000 2 ∧
    seed Size.largest 7 ≠ seed (Size.largest - 1) 7 := by
  obtain ⟨-, apart, -, salts, sizes⟩ := seeds_apart
  exact ⟨apart 0 1 (by decide), salts 1000 1 2 (by decide),
    sizes Size.largest (Size.largest - 1) 7 (by decide) (by decide) (by decide)⟩

end Distribution

end GridSort
