import GridSort.Proofs.Predicate.WeakOrder
import Mathlib.Algebra.Group.Nat.Defs
import Mathlib.Order.Monotone.Basic

namespace GridSort

/-! What it means, type by type, that one element comes before another. Integers are compared as
numbers, tuples at the first place where they differ, and floats by the numbers that their
patterns stand for. -/

namespace FloatFormat

variable (format : FloatFormat)

/-- How many times the least positive number goes into a pattern that has no sign. The exponent
zero leaves the fraction as it is; any other puts a bit in front of it. Infinity counts as the
power of two beyond all numbers. -/
def magnitude (bits : Nat) : Nat :=
  let exponent := bits / 2 ^ format.fractionBits
  let fraction := bits % 2 ^ format.fractionBits
  if exponent = 0 then fraction
  else (2 ^ format.fractionBits + fraction) * 2 ^ (exponent - 1)

/-- The number of a pattern, as a multiple of the least positive one. -/
def multiple (pattern : Nat) : Int :=
  if pattern < format.signWeight then format.magnitude (pattern % format.signWeight)
  else -format.magnitude (pattern % format.signWeight)

/-- The exponent is all ones, and the fraction is not zero. -/
def IsNaN (pattern : Nat) : Prop :=
  pattern % format.signWeight / 2 ^ format.fractionBits + 1 =
      2 ^ (format.width.bits - 1 - format.fractionBits) ∧
    pattern % 2 ^ format.fractionBits ≠ 0

instance (pattern : Nat) : Decidable (format.IsNaN pattern) :=
  inferInstanceAs (Decidable (_ ∧ _))

variable {format} {pattern : Nat}

theorem isNaN_iff : format.IsNaN pattern ↔ format.infinity < pattern % format.signWeight := by
  cases format with
  | single =>
      change pattern % 2147483648 / 8388608 + 1 = 256 ∧ pattern % 8388608 ≠ 0 ↔
        2139095040 < pattern % 2147483648
      omega
  | double =>
      change pattern % 9223372036854775808 / 4503599627370496 + 1 = 2048 ∧
          pattern % 4503599627370496 ≠ 0 ↔
        9218868437227405312 < pattern % 9223372036854775808
      omega

theorem ordinal?_eq_none_iff : format.ordinal? pattern = none ↔ format.IsNaN pattern := by
  rw [isNaN_iff, ordinal?]
  split
  · simp_all
  · split <;> simp_all

theorem ordinal?_of_not_isNaN (number : ¬format.IsNaN pattern) :
    format.ordinal? pattern = some
      (if pattern < format.signWeight then ((pattern % format.signWeight : Nat) : Int)
        else -((pattern % format.signWeight : Nat) : Int)) := by
  rw [isNaN_iff] at number
  rw [ordinal?, if_neg number]
  split <;> rfl

@[simp] theorem magnitude_zero : format.magnitude 0 = 0 := by simp [magnitude]

/-- Patterns without a sign are in the order of their numbers. -/
theorem magnitude_strictMono : StrictMono format.magnitude := by
  refine strictMono_nat_of_lt_succ fun bits => ?_
  have positive : 0 < 2 ^ format.fractionBits := Nat.two_pow_pos _
  unfold magnitude
  generalize 2 ^ format.fractionBits = unit at positive ⊢
  have split := Nat.div_add_mod bits unit
  have below := Nat.mod_lt bits positive
  generalize bits / unit = exponent at split ⊢
  generalize bits % unit = fraction at split below ⊢
  subst split
  by_cases inside : fraction + 1 < unit
  · obtain ⟨same, next⟩ := (Nat.div_mod_unique positive).mpr
      (⟨by omega, inside⟩ : fraction + 1 + unit * exponent = unit * exponent + fraction + 1 ∧ _)
    rw [same, next]
    dsimp only
    split
    · exact Nat.lt_succ_self fraction
    · exact Nat.mul_lt_mul_of_pos_right (by omega) (Nat.two_pow_pos _)
  · -- The fraction is full: the next number is the power of two of the next exponent.
    obtain ⟨same, next⟩ := (Nat.div_mod_unique positive).mpr
      (⟨by rw [Nat.mul_succ]; omega, positive⟩ :
        0 + unit * (exponent + 1) = unit * exponent + fraction + 1 ∧ _)
    rw [same, next]
    dsimp only
    rw [if_neg (Nat.succ_ne_zero exponent), Nat.add_zero, Nat.add_sub_cancel]
    cases exponent with
    | zero =>
        rw [if_pos rfl, Nat.pow_zero, Nat.mul_one]
        exact below
    | succ lower =>
        rw [if_neg (Nat.succ_ne_zero lower), Nat.add_sub_cancel, Nat.pow_succ', ← Nat.mul_assoc,
          Nat.mul_two]
        exact Nat.mul_lt_mul_of_pos_right (by omega) (Nat.two_pow_pos _)

theorem magnitude_lt_iff {first second : Nat} :
    format.magnitude first < format.magnitude second ↔ first < second :=
  magnitude_strictMono.lt_iff_lt

theorem magnitude_inj {first second : Nat} :
    format.magnitude first = format.magnitude second ↔ first = second :=
  magnitude_strictMono.injective.eq_iff

theorem magnitude_eq_zero_iff {bits : Nat} : format.magnitude bits = 0 ↔ bits = 0 := by
  have same : format.magnitude bits = format.magnitude 0 ↔ bits = 0 := magnitude_inj
  rwa [magnitude_zero] at same

/-- The order of the signed patterns is that of their numbers. -/
theorem signed_lt_signed_iff {first second : Nat} {negative other : Prop} [Decidable negative]
    [Decidable other] :
    (if negative then (first : Int) else -first) < (if other then (second : Int) else -second) ↔
      (if negative then (format.magnitude first : Int) else -format.magnitude first) <
        (if other then (format.magnitude second : Int) else -format.magnitude second) := by
  have forth : format.magnitude first < format.magnitude second ↔ _ := magnitude_lt_iff
  have back : format.magnitude second < format.magnitude first ↔ _ := magnitude_lt_iff
  have noneFirst : format.magnitude first = 0 ↔ _ := magnitude_eq_zero_iff
  have noneSecond : format.magnitude second = 0 ↔ _ := magnitude_eq_zero_iff
  split <;> split <;> omega

end FloatFormat

namespace Element

variable {width : Width} {count : Nat} {type : ElementType}

/-- The number in one of the places of a tuple. -/
def place (element : Element (.tuple width count)) (index : Nat) : Nat :=
  (BitVec.extractLsb' (index * width.bits) width.bits element).toNat

def IsNaN : {type : ElementType} → Element type → Prop
  | .float format, element => format.IsNaN element.toNat
  | _, _ => False

instance : {type : ElementType} → (element : Element type) → Decidable element.IsNaN
  | .unsigned _, _ => inferInstanceAs (Decidable False)
  | .signed _, _ => inferInstanceAs (Decidable False)
  | .float format, element => inferInstanceAs (Decidable (format.IsNaN element.toNat))
  | .tuple _ _, _ => inferInstanceAs (Decidable False)

/-- The first element comes before the second. -/
def Before : {type : ElementType} → Element type → Element type → Prop
  | .unsigned _, first, second => first.toNat < second.toNat
  | .signed _, first, second => first.toInt < second.toInt
  | .float format, first, second =>
      ¬format.IsNaN first.toNat ∧ ¬format.IsNaN second.toNat ∧
        format.multiple first.toNat < format.multiple second.toNat
  | .tuple _ count, first, second =>
      ∃ index, index < count ∧
        (∀ earlier, earlier < index → first.place earlier = second.place earlier) ∧
        first.place index < second.place index

theorem components_eq (element : Element (.tuple width count)) :
    components width count element.toNat = (List.range count).map element.place := by
  apply List.map_congr_left
  intro index _
  rw [place, BitVec.extractLsb'_toNat]
  rfl

theorem ordinals?_eq_none_iff {element : Element type} :
    element.ordinals? = none ↔ element.IsNaN := by
  cases type with
  | unsigned width => simp [ordinals?, IsNaN]
  | signed width => simp [ordinals?, IsNaN]
  | float format =>
      rw [IsNaN, ← FloatFormat.ordinal?_eq_none_iff, ordinals?, Option.map_eq_none_iff]
  | tuple width count => simp [ordinals?, IsNaN]

theorem exists_ordinals_iff {element : Element type} :
    (∃ ordinals, element.ordinals? = some ordinals) ↔ ¬element.IsNaN := by
  rw [← ordinals?_eq_none_iff, ← Option.ne_none_iff_exists']

theorem ordinals?_float {format : FloatFormat} {element : Element (.float format)}
    (number : ¬format.IsNaN element.toNat) :
    element.ordinals? = some
      [if element.toNat < format.signWeight then ((element.toNat % format.signWeight : Nat) : Int)
        else -((element.toNat % format.signWeight : Nat) : Int)] := by
  rw [ordinals?, FloatFormat.ordinal?_of_not_isNaN number, Option.map_some]

private theorem singleton_lt_singleton {first second : Int} :
    [first] < [second] ↔ first < second := by
  simp [List.cons_lt_cons_iff]

private theorem map_lt_map_iff {first second : Nat → Nat} {count : Nat} :
    ((List.range count).map first).map Int.ofNat < ((List.range count).map second).map Int.ofNat ↔
      ∃ index, index < count ∧ (∀ earlier, earlier < index → first earlier = second earlier) ∧
        first index < second index := by
  rw [List.lt_iff_exists]
  simp only [List.map_map, List.length_map, List.length_range, lt_self_iff_false, and_false,
    List.getElem_map, List.getElem_range, Function.comp_apply, Int.ofNat_eq_natCast, Int.ofNat_inj,
    Int.ofNat_lt, exists_and_left, exists_prop, and_left_comm, and_self_left, false_or]

/-- Comparing two elements tells whether the first comes before the second. -/
theorem less_iff_before {first second : Element type} :
    first.less second = true ↔ first.Before second := by
  cases type with
  | unsigned width => simp [less, ordinals?, Before, singleton_lt_singleton]
  | signed width => simp [less, ordinals?, Before, singleton_lt_singleton]
  | float format =>
      constructor
      · intro lower
        obtain ⟨before, after, hbefore, hafter, -⟩ := less_eq_true_iff.mp lower
        have hfirst : ¬format.IsNaN first.toNat := exists_ordinals_iff.mp ⟨before, hbefore⟩
        have hsecond : ¬format.IsNaN second.toNat := exists_ordinals_iff.mp ⟨after, hafter⟩
        rw [less, ordinals?_float hfirst, ordinals?_float hsecond, decide_eq_true_eq,
          singleton_lt_singleton, FloatFormat.signed_lt_signed_iff] at lower
        exact ⟨hfirst, hsecond, lower⟩
      · rintro ⟨hfirst, hsecond, lower⟩
        rw [less, ordinals?_float hfirst, ordinals?_float hsecond, decide_eq_true_eq,
          singleton_lt_singleton, FloatFormat.signed_lt_signed_iff]
        exact lower
  | tuple width count =>
      rw [less, ordinals?, ordinals?, decide_eq_true_eq, components_eq, components_eq,
        map_lt_map_iff]
      rfl

/-! Floats that compare alike. Only the two zeros do, if they are not the same. -/

section Zeros

variable {format : FloatFormat} {first second : Element (.float format)}

def negativeZero (format : FloatFormat) : Element (.float format) :=
  BitVec.ofNat _ format.signWeight

/-- The pattern is that of zero, but for the sign. -/
def IsZero (element : Element (.float format)) : Prop := element = 0 ∨ element = negativeZero format

theorem toNat_lt (element : Element (.float format)) : element.toNat < 2 * format.signWeight := by
  cases format with
  | single => exact element.isLt
  | double => exact element.isLt

theorem toNat_negativeZero (format : FloatFormat) :
    (negativeZero format).toNat = format.signWeight := by
  cases format with
  | single => rfl
  | double => rfl

theorem isZero_iff {element : Element (.float format)} :
    element.IsZero ↔ element.toNat % format.signWeight = 0 := by
  have below := element.toNat_lt
  have patterns : element.IsZero ↔ element.toNat = 0 ∨ element.toNat = format.signWeight := by
    rw [IsZero, ← BitVec.toNat_inj, ← BitVec.toNat_inj, toNat_negativeZero]
    rfl
  rw [patterns]
  cases format with
  | single =>
      change element.toNat < 2 * 2147483648 at below
      change element.toNat = 0 ∨ element.toNat = 2147483648 ↔ element.toNat % 2147483648 = 0
      omega
  | double =>
      change element.toNat < 2 * 9223372036854775808 at below
      change element.toNat = 0 ∨ element.toNat = 9223372036854775808 ↔
        element.toNat % 9223372036854775808 = 0
      omega

/-- A pattern is its sign and what is left without it. -/
theorem toNat_eq (element : Element (.float format)) :
    element.toNat = (if element.toNat < format.signWeight then 0 else format.signWeight) +
      element.toNat % format.signWeight := by
  split
  case isTrue plain => rw [Nat.zero_add, Nat.mod_eq_of_lt plain]
  case isFalse signed =>
      have below := element.toNat_lt
      rw [Nat.mod_eq_sub_mod (Nat.le_of_not_lt signed), Nat.mod_eq_of_lt (by omega)]
      omega

theorem multiple_eq_iff : format.multiple first.toNat = format.multiple second.toNat ↔
    first = second ∨ first.IsZero ∧ second.IsZero := by
  have same : format.magnitude (first.toNat % format.signWeight) =
    format.magnitude (second.toNat % format.signWeight) ↔ _ := FloatFormat.magnitude_inj
  have noneFirst : format.magnitude (first.toNat % format.signWeight) = 0 ↔ _ :=
    FloatFormat.magnitude_eq_zero_iff
  have noneSecond : format.magnitude (second.toNat % format.signWeight) = 0 ↔ _ :=
    FloatFormat.magnitude_eq_zero_iff
  have splitFirst := first.toNat_eq
  have splitSecond := second.toNat_eq
  rw [isZero_iff, isZero_iff, ← BitVec.toNat_inj, FloatFormat.multiple, FloatFormat.multiple]
  by_cases plainFirst : first.toNat < format.signWeight
  all_goals by_cases plainSecond : second.toNat < format.signWeight
  all_goals
    simp only [plainFirst, plainSecond, if_true, if_false] at splitFirst splitSecond ⊢
    omega

/-- Numbers tie if they are the same, bit for bit, or if both are zeros. -/
theorem ties_iff_float (hfirst : ¬first.IsNaN) (hsecond : ¬second.IsNaN) :
    Predicate.less.ties first second = true ↔
      first = second ∨ first.IsZero ∧ second.IsZero := by
  have hnumber : ¬format.IsNaN first.toNat := hfirst
  have hother : ¬format.IsNaN second.toNat := hsecond
  rw [← multiple_eq_iff, Predicate.ties_iff, Predicate.less, Predicate.ofTest_apply,
    Predicate.ofTest_apply, Except.ok.injEq, Except.ok.injEq, ← Bool.not_eq_true,
    ← Bool.not_eq_true, less_iff_before, less_iff_before, Before, Before]
  simp only [hnumber, hother, not_false_eq_true, true_and]
  omega

end Zeros

end Element

end GridSort
