import GridSort.Proofs.Kernel.RunMerge
import GridSort.Proofs.Kernel.TileSort
import GridSort.Proofs.Merge.Pass

namespace GridSort

/-! The whole sort as a rule on positions: where each pair of the output comes from. The
answers of the predicate on the input decide it, and nothing else. -/

namespace TileSort

variable {test : Nat → Nat → Bool} {size lanes : Nat}

theorem precedes_within {offset first second : Nat} :
    Precedes (within test offset) first second ↔
      Precedes test (offset + first) (offset + second) := by
  simp only [Precedes, within, Nat.add_lt_add_iff_left]

theorem transitiveBelow_within (trans : TransitiveBelow test size) {offset count : Nat}
    (inside : offset + count ≤ size) : TransitiveBelow (within test offset) count := by
  intro first second third hfirst hsecond hthird before later
  rw [precedes_within] at before later ⊢
  exact trans _ _ _ (by omega) (by omega) (by omega) before later

theorem tile_lt (positive : 0 < lanes) {position : Nat} (inside : position < size) :
    position - position / lanes * lanes < min lanes (size - position / lanes * lanes) := by
  have fromOffset := Nat.div_mul_le_self position lanes
  have tile := Nat.div_add_mod position lanes
  have lane := Nat.mod_lt position positive
  rw [Nat.mul_comm] at tile
  omega

theorem tile_small (few : lanes ≤ Grid.maxLanes) (rest : Nat) :
    3 * min lanes rest ≤ Size.largest := by
  have : lanes ≤ 1024 := few
  have : Size.largest = 2 ^ 64 - 1 := rfl
  omega

section Lanes

variable (positive : 0 < lanes) (few : lanes ≤ Grid.maxLanes)
include positive few

theorem origin_lt {position : Nat} (inside : position < size) :
    origin test size lanes position < size := by
  have lane := tile_lt positive inside
  have place := Tile.order_lt (within test (position / lanes * lanes)) (tile_small few _) lane
  unfold origin
  omega

theorem arranged_origin (trans : TransitiveBelow test size) :
    Arranged test size lanes (origin test size lanes) := by
  refine ⟨?_, ?_⟩
  · intro position inside
    refine ⟨origin_lt positive few inside, ?_⟩
    have lane := tile_lt positive inside
    have place := Tile.order_lt (within test (position / lanes * lanes)) (tile_small few _)
      lane
    unfold origin
    apply Nat.div_eq_of_lt_le
    · omega
    · rw [Nat.succ_mul]
      omega
  · intro first second lower inside same
    have firstLane := Nat.div_mul_le_self first lanes
    have secondLane := tile_lt positive inside
    unfold origin
    rw [same] at firstLane ⊢
    rw [← precedes_within]
    exact Tile.precedes_order (transitiveBelow_within trans (by omega)) (tile_small few _)
      (by omega) secondLane

end Lanes

end TileSort

/-- Where the pairs come from that are in place after the first launch and a number of
merge passes. -/
def arrangement (test : Nat → Nat → Bool) (size lanes : Nat) : Nat → Nat → Nat
  | 0, position => TileSort.origin test size lanes position
  | passes + 1, position =>
      arrangement test size lanes passes
        (MergePass.origin (testAt test (arrangement test size lanes passes)) size
          (lanes * 2 ^ passes) lanes position)

variable {test : Nat → Nat → Bool} {size lanes : Nat}

theorem arrangement_lt (fits : Grid.Fits size lanes) (passes : Nat) {position : Nat}
    (inside : position < size) : arrangement test size lanes passes position < size := by
  induction passes generalizing position with
  | zero => exact TileSort.origin_lt fits.positive fits.lanes_le inside
  | succ passes ih =>
      have positive : 0 < lanes * 2 ^ passes :=
        Nat.mul_pos fits.positive (Nat.two_pow_pos passes)
      exact ih (MergePass.origin_lt _ lanes positive inside)

theorem arranged_arrangement (fits : Grid.Fits size lanes) (trans : TransitiveBelow test size)
    (passes : Nat) :
    Arranged test size (lanes * 2 ^ passes) (arrangement test size lanes passes) := by
  induction passes with
  | zero =>
      rw [Nat.pow_zero, Nat.mul_one]
      exact TileSort.arranged_origin fits.positive fits.lanes_le trans
  | succ passes ih =>
      have positive : 0 < lanes * 2 ^ passes :=
        Nat.mul_pos fits.positive (Nat.two_pow_pos passes)
      have doubled := MergePass.arranged_origin ih trans lanes positive
      rw [Nat.pow_succ, Nat.mul_comm (2 ^ passes) 2, Nat.mul_left_comm]
      exact doubled

/-- The arrangement that the passes of a sort end with. -/
def sortedFrom (test : Nat → Nat → Bool) (size lanes position : Nat) : Nat :=
  arrangement test size lanes (Size.doublings lanes size).length position

theorem sortedFrom_lt (fits : Grid.Fits size lanes) {position : Nat}
    (inside : position < size) : sortedFrom test size lanes position < size :=
  arrangement_lt fits _ inside

theorem arranged_sortedFrom (fits : Grid.Fits size lanes) (trans : TransitiveBelow test size) :
    ∃ width, 0 < width ∧ size ≤ width ∧
      Arranged test size width (sortedFrom test size lanes) :=
  ⟨_, Nat.mul_pos fits.positive (Nat.two_pow_pos _),
    Size.le_mul_two_pow_length fits.positive fits.size_le, arranged_arrangement fits trans _⟩

end GridSort
