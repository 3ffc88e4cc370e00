import Mathlib.Data.List.Perm.Lattice
import Mathlib.Data.List.Nodup
import Mathlib.Data.Fintype.Card

namespace GridSort

/-! The order that a merge sort gives to the positions of its input. Two positions are
compared once, the later one against the earlier one, and ties keep their order. What is
needed of the test is only that this order is transitive. -/

/-- Whether the first position comes before the second one in the result. -/
def Precedes (test : Nat → Nat → Bool) (first second : Nat) : Prop :=
  if first < second then test second first = false
  else second < first ∧ test first second = true

def testAt (test : Nat → Nat → Bool) (content : Nat → Nat) (first second : Nat) : Bool :=
  test (content first) (content second)

variable {test : Nat → Nat → Bool} {size width : Nat} {content : Nat → Nat}

theorem precedes_of_lt {first second : Nat} (h : first < second) :
    Precedes test first second ↔ test second first = false := by
  rw [Precedes, if_pos h]

theorem precedes_of_gt {first second : Nat} (h : second < first) :
    Precedes test first second ↔ test first second = true := by
  rw [Precedes, if_neg (Nat.lt_asymm h), and_iff_right h]

theorem not_precedes_self (place : Nat) : ¬Precedes test place place := by
  rw [Precedes, if_neg (Nat.lt_irrefl place)]
  exact fun h => Nat.lt_irrefl place h.1

theorem precedes_total (test : Nat → Nat → Bool) {first second : Nat}
    (distinct : first ≠ second) :
    Precedes test first second ∨ Precedes test second first := by
  rcases Nat.lt_or_gt_of_ne distinct with lower | upper
  · rw [precedes_of_lt lower, precedes_of_gt lower]
    cases test second first <;> simp
  · rw [precedes_of_gt upper, precedes_of_lt upper]
    cases test first second <;> simp

theorem precedes_asymm {first second : Nat} (h : Precedes test first second) :
    ¬Precedes test second first := by
  rcases Nat.lt_trichotomy first second with lower | rfl | upper
  · rw [precedes_of_lt lower] at h
    rw [precedes_of_gt lower, h]
    exact Bool.false_ne_true
  · exact absurd h (not_precedes_self first)
  · rw [precedes_of_gt upper] at h
    rw [precedes_of_lt upper, h]
    exact Bool.noConfusion

def TransitiveBelow (test : Nat → Nat → Bool) (size : Nat) : Prop :=
  ∀ first second third, first < size → second < size → third < size →
    Precedes test first second → Precedes test second third → Precedes test first third

/-- Positions that are moved apart, within a list of them, fill it. -/
theorem map_perm {positions : List Nat} (distinct : positions.Nodup)
    (within : ∀ place ∈ positions, content place ∈ positions)
    (apart : ∀ first ∈ positions, ∀ second ∈ positions,
      content first = content second → first = second) :
    (positions.map content).Perm positions := by
  have nodup : (positions.map content).Nodup :=
    distinct.map_on fun first hfirst second hsecond => apart first hfirst second hsecond
  refine (List.subperm_of_subset nodup ?_).perm_of_length_le (by simp)
  intro place member
  obtain ⟨origin, inside, rfl⟩ := List.mem_map.mp member
  exact within origin inside

/-- The positions of a block. -/
def block (size width index : Nat) : List Nat :=
  List.range' (index * width) (min width (size - index * width))

theorem mem_block (positive : 0 < width) {index place : Nat} :
    place ∈ block size width index ↔ place < size ∧ place / width = index := by
  rw [block, List.mem_range'_1, Nat.div_eq_iff positive]
  omega

theorem pairwise_lt_block (size width index : Nat) :
    (block size width index).Pairwise (· < ·) := List.pairwise_lt_range'

theorem block_zero (wide : size ≤ width) : block size width 0 = List.range size := by
  simp [block, List.range_eq_range', Nat.min_eq_right wide]

/-- Each block of `width` positions holds its own positions, in order. -/
structure Arranged (test : Nat → Nat → Bool) (size width : Nat) (content : Nat → Nat) :
    Prop where
  stays : ∀ place, place < size →
    content place < size ∧ content place / width = place / width
  sorted : ∀ first second, first < second → second < size →
    first / width = second / width → Precedes test (content first) (content second)

namespace Arranged

theorem injective (h : Arranged test size width content) {first second : Nat}
    (hfirst : first < size) (hsecond : second < size)
    (same : content first = content second) : first = second := by
  have block : first / width = second / width := by
    rw [← (h.stays first hfirst).2, same, (h.stays second hsecond).2]
  rcases Nat.lt_trichotomy first second with lower | equal | upper
  · have ordered := h.sorted first second lower hsecond block
    rw [same] at ordered
    exact absurd ordered (not_precedes_self _)
  · exact equal
  · have ordered := h.sorted second first upper hfirst block.symm
    rw [same] at ordered
    exact absurd ordered (not_precedes_self _)

theorem lt_of_precedes (h : Arranged test size width content) {first second : Nat}
    (hfirst : first < size) (hsecond : second < size)
    (block : first / width = second / width)
    (ordered : Precedes test (content first) (content second)) : first < second := by
  rcases Nat.lt_trichotomy first second with lower | rfl | upper
  · exact lower
  · exact absurd ordered (not_precedes_self _)
  · exact absurd (h.sorted second first upper hfirst block.symm) (precedes_asymm ordered)

theorem lt_of_block_lt (h : Arranged test size width content) {first second : Nat}
    (hfirst : first < size) (hsecond : second < size)
    (blocks : first / width < second / width) : content first < content second := by
  apply Nat.lt_of_not_le
  intro le
  have := Nat.div_le_div_right le (c := width)
  rw [(h.stays first hfirst).2, (h.stays second hsecond).2] at this
  omega

/-- Within blocks, an order between two places extends to the places beyond them. -/
theorem widen (h : Arranged test size width content) (trans : TransitiveBelow test size)
    {outerFirst first second outerSecond : Nat}
    (hfirst : outerFirst ≤ first) (firstInside : first < size)
    (firstBlock : outerFirst / width = first / width)
    (hsecond : second ≤ outerSecond) (secondInside : outerSecond < size)
    (secondBlock : second / width = outerSecond / width)
    (ordered : Precedes test (content first) (content second)) :
    Precedes test (content outerFirst) (content outerSecond) := by
  have below : ∀ place, place < size → content place < size :=
    fun place inside => (h.stays place inside).1
  have upToSecond : Precedes test (content outerFirst) (content second) := by
    rcases Nat.lt_or_eq_of_le hfirst with lower | rfl
    · exact trans _ _ _ (below _ (by omega)) (below _ firstInside) (below _ (by omega))
        (h.sorted outerFirst first lower firstInside firstBlock) ordered
    · exact ordered
  rcases Nat.lt_or_eq_of_le hsecond with lower | rfl
  · exact trans _ _ _ (below _ (by omega)) (below _ (by omega)) (below _ secondInside)
      upToSecond (h.sorted second outerSecond lower secondInside secondBlock)
  · exact upToSecond

section Block

variable (h : Arranged test size width content) (positive : 0 < width) (index : Nat)
include h positive

theorem perm_block : ((block size width index).map content).Perm (block size width index) := by
  apply map_perm (pairwise_lt_block size width index).nodup
  · intro place member
    obtain ⟨inside, here⟩ := (mem_block positive).mp member
    obtain ⟨below, stays⟩ := h.stays place inside
    exact (mem_block positive).mpr ⟨below, stays.trans here⟩
  · intro first hfirst second hsecond
    exact h.injective ((mem_block positive).mp hfirst).1 ((mem_block positive).mp hsecond).1

theorem pairwise_block : ((block size width index).map content).Pairwise (Precedes test) := by
  rw [List.pairwise_map]
  apply (pairwise_lt_block size width index).imp_of_mem
  intro first second hfirst hsecond lower
  obtain ⟨-, firstHere⟩ := (mem_block positive).mp hfirst
  obtain ⟨inside, secondHere⟩ := (mem_block positive).mp hsecond
  exact h.sorted first second lower inside (firstHere.trans secondHere.symm)

end Block

/-- There is one order for the positions of a block. -/
theorem unique (h : Arranged test size width content) {other : Nat → Nat}
    (hother : Arranged test size width other) (positive : 0 < width) {place : Nat}
    (inside : place < size) : content place = other place := by
  have same : (block size width (place / width)).map content =
      (block size width (place / width)).map other :=
    ((h.perm_block positive _).trans (hother.perm_block positive _).symm).eq_of_pairwise
      (fun _ _ _ _ before behind => absurd behind (precedes_asymm before))
      (h.pairwise_block positive _) (hother.pairwise_block positive _)
  exact List.map_inj_left.mp same place ((mem_block positive).mpr ⟨inside, rfl⟩)

end Arranged

/-! The pair of runs around a position: a left and a right block of `width` positions,
as far as there are any, which together are a block of twice the width. -/

namespace RunPair

def base (width place : Nat) : Nat := place / (2 * width) * (2 * width)

def mid (size width place : Nat) : Nat := min (base width place + width) size

def stop (size width place : Nat) : Nat := min (base width place + 2 * width) size

variable {size width : Nat} {place other : Nat}

theorem base_le (width place : Nat) : base width place ≤ place := Nat.div_mul_le_self _ _

theorem lt_base_add (positive : 0 < width) (place : Nat) :
    place < base width place + 2 * width := by
  have division := Nat.div_add_mod place (2 * width)
  have remainder := Nat.mod_lt place (show 2 * width > 0 by omega)
  unfold base
  rw [Nat.mul_comm]
  omega

theorem base_base (positive : 0 < width) (place : Nat) :
    base width (base width place) = base width place := by
  rw [base, base, Nat.mul_div_cancel _ (by omega)]

theorem base_base_add (positive : 0 < width) (place : Nat) :
    base width (base width place + 2 * width) = base width place + 2 * width := by
  rw [base, base, ← Nat.succ_mul, Nat.mul_div_cancel _ (by omega)]

theorem base_lt_mid (positive : 0 < width) (inside : place < size) :
    base width place < mid size width place := by
  have := base_le width place
  unfold mid
  omega

theorem base_le_mid (width : Nat) (inside : place < size) :
    base width place ≤ mid size width place := by
  have := base_le width place
  unfold mid
  omega

theorem mid_le_stop (size width place : Nat) :
    mid size width place ≤ stop size width place := by
  unfold mid stop
  omega

theorem stop_le (size width place : Nat) : stop size width place ≤ size :=
  Nat.min_le_right _ _

theorem lt_stop (positive : 0 < width) (inside : place < size) :
    place < stop size width place := by
  have := lt_base_add positive place
  unfold stop
  omega

theorem div_two_mul (place width : Nat) : place / (2 * width) = place / width / 2 := by
  rw [Nat.div_div_eq_div_mul, Nat.mul_comm]

private theorem base_eq (width place : Nat) :
    base width place = 2 * (place / (2 * width)) * width := by
  rw [base, ← Nat.mul_assoc, Nat.mul_comm _ 2]

theorem block_of_left (size : Nat) (low : base width place ≤ other)
    (high : other < mid size width place) : other / width = 2 * (place / (2 * width)) := by
  rw [mid] at high
  rw [base_eq] at low high
  apply Nat.div_eq_of_lt_le low
  rw [Nat.succ_mul]
  omega

theorem block_of_right (size : Nat) (low : mid size width place ≤ other)
    (high : other < stop size width place) :
    other / width = 2 * (place / (2 * width)) + 1 := by
  rw [stop] at high
  rw [mid] at low
  rw [base_eq] at low high
  apply Nat.div_eq_of_lt_le
  · rw [Nat.succ_mul]
    omega
  · rw [Nat.succ_mul, Nat.succ_mul]
    omega

theorem pair_eq (low : base width place ≤ other)
    (high : other < base width place + 2 * width) :
    other / (2 * width) = place / (2 * width) := by
  apply Nat.div_eq_of_lt_le low
  rw [Nat.succ_mul]
  exact high

theorem pair_eq_of_mem (size : Nat) (low : base width place ≤ other)
    (high : other < stop size width place) :
    other / (2 * width) = place / (2 * width) :=
  pair_eq low (Nat.lt_of_lt_of_le high (Nat.min_le_left _ _))

theorem base_congr (same : other / (2 * width) = place / (2 * width)) :
    base width other = base width place := by rw [base, base, same]

theorem mid_congr (size : Nat) (same : other / (2 * width) = place / (2 * width)) :
    mid size width other = mid size width place := by rw [mid, mid, base_congr same]

theorem stop_congr (size : Nat) (same : other / (2 * width) = place / (2 * width)) :
    stop size width other = stop size width place := by rw [stop, stop, base_congr same]

section Arranged

variable {test : Nat → Nat → Bool} {content : Nat → Nat} {left right later outer : Nat}
variable (arranged : Arranged test size width content)
include arranged

/-- Across the two runs the predicate itself decides: each left position is an earlier
one of the input. -/
theorem content_lt (place : Nat) (leftLow : base width place ≤ left)
    (leftHigh : left < mid size width place) (rightLow : mid size width place ≤ right)
    (rightHigh : right < stop size width place) : content left < content right := by
  have := stop_le size width place
  have := mid_le_stop size width place
  apply arranged.lt_of_block_lt (by omega) (by omega)
  rw [block_of_left size leftLow leftHigh, block_of_right size rightLow rightHigh]
  omega

variable (trans : TransitiveBelow test size)
include trans

theorem widen_left (place : Nat) (outerLow : base width place ≤ outer)
    (outerHigh : outer ≤ left) (leftHigh : left < mid size width place)
    (rightLow : mid size width place ≤ right) (laterLow : right ≤ later)
    (laterHigh : later < stop size width place)
    (ordered : Precedes test (content left) (content right)) :
    Precedes test (content outer) (content later) := by
  have := stop_le size width place
  have := mid_le_stop size width place
  refine arranged.widen trans outerHigh (by omega) ?_ laterLow (by omega) ?_ ordered
  · rw [block_of_left size outerLow (by omega), block_of_left size (by omega) leftHigh]
  · rw [block_of_right size rightLow (by omega), block_of_right size (by omega) laterHigh]

theorem widen_right (place : Nat) (outerLow : mid size width place ≤ outer)
    (outerHigh : outer ≤ right) (rightHigh : right < stop size width place)
    (leftLow : base width place ≤ left) (laterLow : left ≤ later)
    (laterHigh : later < mid size width place)
    (ordered : Precedes test (content right) (content left)) :
    Precedes test (content outer) (content later) := by
  have := stop_le size width place
  have := mid_le_stop size width place
  refine arranged.widen trans outerHigh (by omega) ?_ laterLow (by omega) ?_ ordered
  · rw [block_of_right size outerLow (by omega), block_of_right size (by omega) rightHigh]
  · rw [block_of_left size leftLow (by omega), block_of_left size (by omega) laterHigh]

end Arranged

end RunPair

end GridSort
