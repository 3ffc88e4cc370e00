import GridSort.Proofs.Merge.Heads

namespace GridSort

/-! A merge pass on arranged positions. The heads always split their pair of runs in
order, and two such splits are nested, so outputs of different windows are in order
as well: what one takes is taken already where the other one starts. -/

/-- What is taken comes before what is left over on the other side. -/
structure Heads.Splits (test : Nat → Nat → Bool) (content : Nat → Nat)
    (base mid stop : Nat) (heads : Heads) : Prop where
  left_first : ∀ taken rest, base ≤ taken → taken < heads.left → heads.right ≤ rest →
    rest < stop → Precedes test (content taken) (content rest)
  right_first : ∀ taken rest, mid ≤ taken → taken < heads.right → heads.left ≤ rest →
    rest < mid → Precedes test (content taken) (content rest)

/-- In an order, of two splits the shorter one takes a part of what the longer takes. -/
theorem Heads.Splits.nested {test : Nat → Nat → Bool} {content : Nat → Nat}
    {base mid stop out later : Nat} {heads other : Heads}
    (h : heads.Splits test content base mid stop)
    (hother : other.Splits test content base mid stop)
    (runs : heads.InRuns base mid stop out) (otherRuns : other.InRuns base mid stop later)
    (le : out ≤ later) : heads.left ≤ other.left ∧ heads.right ≤ other.right := by
  obtain ⟨base_le, left_le, mid_le, right_le, taken⟩ := runs
  obtain ⟨otherBase, otherLeft, otherMid, otherRight, otherTaken⟩ := otherRuns
  constructor
  · apply Nat.le_of_not_lt
    intro more
    exact precedes_asymm
      (h.left_first other.left heads.right otherBase more (Nat.le_refl _) (by omega))
      (hother.right_first heads.right other.left mid_le (by omega) (Nat.le_refl _) (by omega))
  · apply Nat.le_of_not_lt
    intro more
    exact precedes_asymm
      (h.right_first other.right heads.left otherMid more (Nat.le_refl _) (by omega))
      (hother.left_first heads.left other.right base_le (by omega) (Nat.le_refl _) (by omega))

namespace MergePass

open RunPair

variable {test : Nat → Nat → Bool} {size width : Nat} {content : Nat → Nat}

section Ordered

variable (arranged : Arranged test size width content) (trans : TransitiveBelow test size)
include arranged trans

/-- The search stops where the elements on its diagonal change places in the order. -/
theorem splits_start {out diagonal : Nat} (inside : out < size)
    (inPair : base width out + diagonal ≤ stop size width out) :
    (start (testAt test content) size width out diagonal).Splits test content
      (base width out) (mid size width out) (stop size width out) := by
  obtain ⟨lower, upper, before, after⟩ :=
    cuts_split (testAt test content) inPair
  generalize taken_eq : split (testAt test content) size width out diagonal = taken
    at lower upper before after
  have baseMid : base width out ≤ mid size width out := base_le_mid width inside
  have midStop := mid_le_stop size width out
  rw [start, taken_eq]
  constructor
  · intro left right leftLow leftHigh rightLow rightHigh
    dsimp only at leftHigh rightLow
    have same : mid size width out + diagonal - 1 - (taken - 1) =
        mid size width out + (diagonal - taken) := by omega
    rcases before with atEnd | before
    · omega
    · rw [same] at before
      have lower : content (base width out + (taken - 1)) <
          content (mid size width out + (diagonal - taken)) :=
        content_lt arranged out (by omega) (by omega) (by omega) (by omega)
      exact widen_left arranged trans out leftLow (by omega) (by omega) (by omega) rightLow
        rightHigh ((precedes_of_lt lower).mpr before)
  · intro right left rightLow rightHigh leftLow leftHigh
    dsimp only at rightHigh leftLow
    have same : mid size width out + diagonal - 1 - taken =
        mid size width out + (diagonal - taken - 1) := by omega
    rcases after with atEnd | after
    · omega
    · rw [same] at after
      have lower : content (base width out + taken) <
          content (mid size width out + (diagonal - taken - 1)) :=
        content_lt arranged out (by omega) (by omega) (by omega) (by omega)
      exact widen_right arranged trans out rightLow (by omega) (by omega) (by omega) leftLow
        leftHigh ((precedes_of_gt lower).mpr after)

theorem splits_step {out later : Nat} {heads : Heads}
    (h : heads.Splits test content (base width out) (mid size width out)
      (stop size width out))
    (runs : heads.InRuns (base width out) (mid size width out) (stop size width out) later)
    (inside : later < stop size width out) :
    (heads.step (testAt test content) (mid size width out)
      (stop size width out)).Splits test content (base width out) (mid size width out)
        (stop size width out) := by
  have choice := runs.choice inside (testAt test content)
  obtain ⟨base_le, left_le, mid_le, right_le, taken⟩ := runs
  rcases choice with ⟨-, step, bound, answer⟩ | ⟨-, step, bound, answer⟩
  · rw [step]
    constructor
    · intro left right leftLow leftHigh rightLow rightHigh
      dsimp only at leftHigh rightLow
      have lower := content_lt arranged out base_le bound mid_le (by omega)
      exact widen_left arranged trans out leftLow (by omega) bound mid_le rightLow rightHigh
        ((precedes_of_lt lower).mpr (answer (by omega)))
    · intro right left rightLow rightHigh leftLow leftHigh
      exact h.right_first right left rightLow rightHigh (Nat.le_of_succ_le leftLow) leftHigh
  · rw [step]
    constructor
    · intro left right leftLow leftHigh rightLow rightHigh
      exact h.left_first left right leftLow leftHigh (Nat.le_of_succ_le rightLow) rightHigh
    · intro right left rightLow rightHigh leftLow leftHigh
      dsimp only at rightHigh leftLow
      have lower := content_lt arranged out base_le (by omega) mid_le bound
      exact widen_right arranged trans out rightLow (by omega) bound base_le leftLow leftHigh
        ((precedes_of_gt lower).mpr (answer (by omega)))

theorem splits_advance {out later : Nat} {heads : Heads}
    (h : heads.Splits test content (base width out) (mid size width out)
      (stop size width out))
    (runs : heads.InRuns (base width out) (mid size width out) (stop size width out) later)
    (count : Nat) (inside : later + count ≤ stop size width out) :
    (heads.advance (testAt test content) (mid size width out) (stop size width out)
      count).Splits test content (base width out) (mid size width out)
        (stop size width out) := by
  induction count with
  | zero => exact h
  | succ count ih =>
      rw [Heads.advance_succ]
      exact splits_step arranged trans (ih (by omega))
        (runs.advance _ count (by omega)) (by omega)

theorem splits_heads (lanes : Nat) (positive : 0 < width) {out : Nat} (inside : out < size) :
    (heads (testAt test content) size width lanes out).Splits test content
      (base width out) (mid size width out) (stop size width out) := by
  have := base_le_first width lanes out
  have := first_le width lanes out
  have := lt_stop positive inside
  have inPair : base width out + (first width lanes out - base width out) ≤
      stop size width out := by omega
  exact splits_advance arranged trans (splits_start arranged trans inside inPair)
    (inRuns_start _ inside inPair) _ (by omega)

theorem arranged_origin (lanes : Nat) (positive : 0 < width) :
    Arranged test size (2 * width) fun out =>
      content (origin (testAt test content) size width lanes out) := by
  refine ⟨?_, ?_⟩
  · intro out inside
    obtain ⟨low, high⟩ := origin_mem (testAt test content) lanes positive inside
    obtain ⟨below, block⟩ := arranged.stays _
      (origin_lt (testAt test content) lanes positive inside)
    refine ⟨below, ?_⟩
    rw [div_two_mul, block, ← div_two_mul]
    exact pair_eq_of_mem size low high
  · intro out later lower inside same
    have sameBase : base width later = base width out := base_congr same.symm
    have sameMid : mid size width later = mid size width out := mid_congr size same.symm
    have sameStop : stop size width later = stop size width out := stop_congr size same.symm
    have outInside : out < size := Nat.lt_trans lower inside
    have beforeStop := lt_stop positive outInside
    have laterStop := lt_stop positive inside
    have runs := inRuns_heads (testAt test content) lanes positive outInside
    have laterRuns := inRuns_heads (testAt test content) lanes positive inside
    have laterSplits := splits_heads arranged trans lanes positive inside
    rw [sameBase, sameMid, sameStop] at laterRuns laterSplits
    rw [sameStop] at laterStop
    have nested := (splits_step arranged trans
      (splits_heads arranged trans lanes positive outInside) runs beforeStop).nested laterSplits
      (runs.step beforeStop _) laterRuns lower
    have choice := runs.choice beforeStop (testAt test content)
    have laterChoice := laterRuns.choice laterStop (testAt test content)
    rw [origin, origin, sameMid, sameStop]
    have bounds := runs.base_le
    have runMid := runs.mid_le
    have stopLe : stop size width out ≤ size := Nat.min_le_right _ _
    have midLe : mid size width out ≤ size := Nat.min_le_right _ _
    rcases choice with ⟨next, step, bound, -⟩ | ⟨next, step, bound, -⟩ <;>
      rw [step] at nested <;> dsimp only at nested <;>
      rcases laterChoice with ⟨laterNext, -, laterBound, -⟩ | ⟨laterNext, -, laterBound, -⟩ <;>
      rw [next, laterNext]
    · apply arranged.sorted _ _ nested.1 (by omega)
      rw [block_of_left size bounds bound, block_of_left size (by omega) laterBound]
    · exact laterSplits.left_first _ _ bounds nested.1 (Nat.le_refl _) laterBound
    · exact laterSplits.right_first _ _ runMid nested.2 (Nat.le_refl _) laterBound
    · apply arranged.sorted _ _ nested.2 (by omega)
      rw [block_of_right size runMid bound, block_of_right size (by omega) laterBound]

end Ordered

end MergePass

end GridSort
