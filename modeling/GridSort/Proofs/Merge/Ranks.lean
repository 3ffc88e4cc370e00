import GridSort.Merge.Tile
import GridSort.Proofs.Merge.Arranged
import GridSort.Proofs.Merge.Search

namespace GridSort

/-! Where the elements of a pair of runs land. Each counts what comes before it in the
other run. In an order the counts are exact, so elements land as the order says. -/

open RunPair

/-- The place where `index` lands, found by a search over the other run of its pair. -/
inductive Lands (after : Nat → Nat → Bool) (size width index : Nat) : Nat → Prop
  | left (passed : Nat) (inLeft : index < mid size width index)
      (cuts : Cuts (fun place => !after (mid size width index + place) index) 0
        (stop size width index - mid size width index) passed) :
      Lands after size width index (index + passed)
  | right (passed : Nat) (inRight : mid size width index ≤ index)
      (cuts : Cuts (fun place => after index (base width index + place)) 0
        (mid size width index - base width index) passed) :
      Lands after size width index (base width index + (index - mid size width index) + passed)

namespace Lands

variable {after : Nat → Nat → Bool} {size width index rank : Nat}

theorem mem_pair (h : Lands after size width index rank) (positive : 0 < width)
    (inside : index < size) :
    base width index ≤ rank ∧ rank < stop size width index := by
  have fromBase := base_le width index
  have beforeStop := lt_stop positive inside
  have baseMid := base_le_mid width inside
  have midStop := mid_le_stop size width index
  cases h with
  | left passed inLeft cuts =>
      have := cuts.upper
      omega
  | right passed inRight cuts =>
      have := cuts.upper
      omega

theorem rank_lt (h : Lands after size width index rank) (positive : 0 < width)
    (inside : index < size) : rank < size :=
  Nat.lt_of_lt_of_le (h.mem_pair positive inside).2 (stop_le size width index)

end Lands

section Ordered

variable {test : Nat → Nat → Bool} {size width index passed : Nat} {content : Nat → Nat}
variable (arranged : Arranged test size width content) (trans : TransitiveBelow test size)
include arranged trans

theorem precedes_left_iff (inLeft : index < mid size width index)
    (cuts : Cuts (fun place => !testAt test content (mid size width index + place) index) 0
      (stop size width index - mid size width index) passed)
    (place : Nat) (low : mid size width index ≤ place) (high : place < stop size width index) :
    Precedes test (content place) (content index) ↔ place < mid size width index + passed := by
  have fromBase := base_le width index
  constructor
  · intro ordered
    apply Nat.lt_of_not_le
    intro beyond
    rcases cuts.after with atEnd | answer
    · omega
    · simp only [Bool.not_eq_true'] at answer
      have lower : content index < content (mid size width index + passed) :=
        content_lt arranged index fromBase inLeft (Nat.le_add_right _ _) (by omega)
      exact precedes_asymm ordered
        (widen_left arranged trans index fromBase (Nat.le_refl _) inLeft (Nat.le_add_right _ _)
          beyond high ((precedes_of_lt lower).mpr answer))
  · intro within
    rcases cuts.before with atStart | answer
    · omega
    · simp only [Bool.not_eq_false'] at answer
      have upper := cuts.upper
      have lower : content index < content (mid size width index + (passed - 1)) :=
        content_lt arranged index fromBase inLeft (Nat.le_add_right _ _) (by omega)
      exact widen_right arranged trans index low (by omega) (by omega) fromBase
        (Nat.le_refl _) inLeft ((precedes_of_gt lower).mpr answer)

theorem precedes_right_iff (inRight : mid size width index ≤ index)
    (beforeStop : index < stop size width index)
    (cuts : Cuts (fun place => testAt test content index (base width index + place)) 0
      (mid size width index - base width index) passed)
    (place : Nat) (low : base width index ≤ place) (high : place < mid size width index) :
    Precedes test (content place) (content index) ↔ place < base width index + passed := by
  constructor
  · intro ordered
    apply Nat.lt_of_not_le
    intro beyond
    rcases cuts.after with atEnd | answer
    · omega
    · have lower : content (base width index + passed) < content index :=
        content_lt arranged index (Nat.le_add_right _ _) (by omega) inRight beforeStop
      exact precedes_asymm ordered
        (widen_right arranged trans index inRight (Nat.le_refl _) beforeStop
          (Nat.le_add_right _ _) beyond high ((precedes_of_gt lower).mpr answer))
  · intro within
    rcases cuts.before with atStart | answer
    · omega
    · have upper := cuts.upper
      have lower : content (base width index + (passed - 1)) < content index :=
        content_lt arranged index (Nat.le_add_right _ _) (by omega) inRight beforeStop
      exact widen_left arranged trans index low (by omega) (by omega) inRight
        (Nat.le_refl _) beforeStop ((precedes_of_lt lower).mpr answer)

/-- Of two elements of the left run, the later one passes no less of the right run. -/
theorem passed_le_of_left {first second firstPassed secondPassed : Nat}
    (secondInside : second < size)
    (same : first / (2 * width) = second / (2 * width))
    (firstLeft : first < mid size width first) (secondLeft : second < mid size width second)
    (firstCuts : Cuts (fun place => !testAt test content (mid size width first + place) first) 0
      (stop size width first - mid size width first) firstPassed)
    (secondCuts : Cuts (fun place => !testAt test content (mid size width second + place) second)
      0 (stop size width second - mid size width second) secondPassed)
    (ordered : Precedes test (content first) (content second)) :
    firstPassed ≤ secondPassed := by
  have sameMid : mid size width first = mid size width second := mid_congr size same
  have sameStop : stop size width first = stop size width second := stop_congr size same
  have upper := firstCuts.upper
  have stopLe := stop_le size width first
  have midLe : mid size width first ≤ size := Nat.min_le_right _ _
  have below : ∀ place, place < size → content place < size :=
    fun place inside => (arranged.stays place inside).1
  apply Nat.le_of_not_lt
  intro more
  have passedByFirst := (precedes_left_iff arranged trans firstLeft firstCuts
    (mid size width first + secondPassed) (by omega) (by omega)).mpr (by omega)
  have passedBySecond := (precedes_left_iff arranged trans secondLeft secondCuts
    (mid size width first + secondPassed) (by omega) (by omega)).mp
      (trans _ _ _ (below _ (by omega)) (below _ (by omega)) (below _ secondInside)
        passedByFirst ordered)
  omega

theorem passed_le_of_right {first second firstPassed secondPassed : Nat}
    (firstInside : first < size) (secondInside : second < size) (positive : 0 < width)
    (same : first / (2 * width) = second / (2 * width))
    (firstRight : mid size width first ≤ first) (secondRight : mid size width second ≤ second)
    (firstCuts : Cuts (fun place => testAt test content first (base width first + place)) 0
      (mid size width first - base width first) firstPassed)
    (secondCuts : Cuts (fun place => testAt test content second (base width second + place)) 0
      (mid size width second - base width second) secondPassed)
    (ordered : Precedes test (content first) (content second)) :
    firstPassed ≤ secondPassed := by
  have sameBase : base width first = base width second := base_congr same
  have sameMid : mid size width first = mid size width second := mid_congr size same
  have upper := firstCuts.upper
  have midLe : mid size width first ≤ size := Nat.min_le_right _ _
  have below : ∀ place, place < size → content place < size :=
    fun place inside => (arranged.stays place inside).1
  apply Nat.le_of_not_lt
  intro more
  have passedByFirst := (precedes_right_iff arranged trans firstRight
    (lt_stop positive firstInside) firstCuts
    (base width first + secondPassed) (by omega) (by omega)).mpr (by omega)
  have passedBySecond := (precedes_right_iff arranged trans secondRight
    (lt_stop positive secondInside) secondCuts
    (base width first + secondPassed) (by omega) (by omega)).mp
      (trans _ _ _ (below _ (by omega)) (below _ firstInside) (below _ secondInside)
        passedByFirst ordered)
  omega

theorem Lands.lt_of_precedes {first second firstRank secondRank : Nat}
    (positive : 0 < width) (firstInside : first < size) (secondInside : second < size)
    (same : first / (2 * width) = second / (2 * width))
    (hfirst : Lands (testAt test content) size width first firstRank)
    (hsecond : Lands (testAt test content) size width second secondRank)
    (ordered : Precedes test (content first) (content second)) :
    firstRank < secondRank := by
  have sameBase : base width first = base width second := base_congr same
  have sameMid : mid size width first = mid size width second := mid_congr size same
  have sameStop : stop size width first = stop size width second := stop_congr size same
  have firstLow := base_le width first
  have secondLow := base_le width second
  have firstHigh := lt_stop positive firstInside
  have secondHigh := lt_stop positive secondInside
  have notBack := precedes_asymm ordered
  cases hfirst with
  | left firstPassed firstLeft firstCuts =>
      cases hsecond with
      | left secondPassed secondLeft secondCuts =>
          have lower : first < second := by
            apply arranged.lt_of_precedes firstInside secondInside ?_ ordered
            rw [block_of_left size firstLow firstLeft, same,
              block_of_left size secondLow secondLeft]
          have counts := passed_le_of_left arranged trans secondInside same firstLeft
            secondLeft firstCuts secondCuts ordered
          omega
      | right secondPassed secondRight secondCuts =>
          have notPassed := mt (precedes_left_iff arranged trans firstLeft firstCuts
            second (by omega) (by omega)).mpr notBack
          have passed := (precedes_right_iff arranged trans secondRight secondHigh secondCuts
            first (by omega) (by omega)).mp ordered
          omega
  | right firstPassed firstRight firstCuts =>
      cases hsecond with
      | left secondPassed secondLeft secondCuts =>
          have passed := (precedes_left_iff arranged trans secondLeft secondCuts
            first (by omega) (by omega)).mp ordered
          have notPassed := mt (precedes_right_iff arranged trans firstRight firstHigh firstCuts
            second (by omega) (by omega)).mpr notBack
          omega
      | right secondPassed secondRight secondCuts =>
          have lower : first < second := by
            apply arranged.lt_of_precedes firstInside secondInside ?_ ordered
            rw [block_of_right size firstRight firstHigh, same,
              block_of_right size secondRight secondHigh]
          have counts := passed_le_of_right arranged trans firstInside secondInside positive
            same firstRight secondRight firstCuts secondCuts ordered
          omega

end Ordered

/-! Where all elements of a tile land. In an order no two of them meet, so they fill the tile. -/

namespace Lands

variable {test : Nat → Nat → Bool} {size width : Nat} {content : Nat → Nat} {rank : Nat → Nat}
  (arranged : Arranged test size width content) (trans : TransitiveBelow test size)
  (positive : 0 < width)
  (lands : ∀ lane, lane < size → Lands (testAt test content) size width lane (rank lane))
include arranged trans positive lands

theorem precedes_of_rank_le {first second : Nat} (hfirst : first < size)
    (hsecond : second < size) (same : first / (2 * width) = second / (2 * width))
    (distinct : first ≠ second) (le : rank first ≤ rank second) :
    Precedes test (content first) (content second) := by
  have different : content first ≠ content second :=
    fun equal => distinct (arranged.injective hfirst hsecond equal)
  rcases precedes_total test different with ordered | ordered
  · exact ordered
  · have lower := Lands.lt_of_precedes arranged trans positive hsecond hfirst same.symm
      (lands second hsecond) (lands first hfirst) ordered
    exact absurd le (Nat.not_le_of_lt lower)

omit arranged trans in
theorem rank_div {lane : Nat} (inside : lane < size) :
    rank lane / (2 * width) = lane / (2 * width) := by
  obtain ⟨low, high⟩ := (lands lane inside).mem_pair positive inside
  exact pair_eq_of_mem size low high

theorem rank_injective {first second : Nat} (hfirst : first < size) (hsecond : second < size)
    (equal : rank first = rank second) : first = second := by
  by_contra distinct
  have same : first / (2 * width) = second / (2 * width) := by
    rw [← rank_div positive lands hfirst, equal, rank_div positive lands hsecond]
  have before := precedes_of_rank_le arranged trans positive lands hfirst hsecond same
    distinct (Nat.le_of_eq equal)
  have behind := precedes_of_rank_le arranged trans positive lands hsecond hfirst same.symm
    (Ne.symm distinct) (Nat.le_of_eq equal.symm)
  exact precedes_asymm before behind

theorem exists_lane {place : Nat} (inside : place < size) :
    ∃ lane, lane < size ∧ rank lane = place := by
  have everywhere : ((List.range size).map rank).Perm (List.range size) := by
    apply map_perm List.nodup_range
    · intro lane member
      rw [List.mem_range] at member ⊢
      exact (lands lane member).rank_lt positive member
    · intro first hfirst second hsecond
      exact rank_injective arranged trans positive lands (List.mem_range.mp hfirst)
        (List.mem_range.mp hsecond)
  obtain ⟨lane, member, landed⟩ :=
    List.mem_map.mp (everywhere.mem_iff.mpr (List.mem_range.mpr inside))
  exact ⟨lane, List.mem_range.mp member, landed⟩

/-- Once each element has been moved to where it lands, each pair of runs is one run. -/
theorem arranged_of_moved {moved : Nat → Nat}
    (found : ∀ lane, lane < size → moved (rank lane) = content lane) :
    Arranged test size (2 * width) moved := by
  refine ⟨?_, ?_⟩
  · intro place inside
    obtain ⟨lane, laneInside, rfl⟩ := exists_lane arranged trans positive lands inside
    obtain ⟨below, block⟩ := arranged.stays lane laneInside
    rw [found lane laneInside, rank_div positive lands laneInside]
    refine ⟨below, ?_⟩
    rw [div_two_mul, block, ← div_two_mul]
  · intro first second lower inside same
    obtain ⟨lane, laneInside, rfl⟩ :=
      exists_lane arranged trans positive lands (Nat.lt_trans lower inside)
    obtain ⟨other, otherInside, rfl⟩ := exists_lane arranged trans positive lands inside
    rw [rank_div positive lands laneInside, rank_div positive lands otherInside] at same
    rw [found lane laneInside, found other otherInside]
    refine precedes_of_rank_le arranged trans positive lands laneInside otherInside same ?_
      (Nat.le_of_lt lower)
    rintro rfl
    exact Nat.lt_irrefl _ lower

end Lands

end GridSort
