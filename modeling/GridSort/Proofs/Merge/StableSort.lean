import GridSort.Proofs.Merge.Arranged
import GridSort.Proofs.Predicate.WeakOrder

namespace GridSort

/-! A stable sort: its output is in order, it is made of the input, and ties are as they
were. Positions that are put into the order of a merge sort give one, if the predicate is
a strict weak order. -/

/-- The answers of the predicate for positions, as far as there are any. -/
def Predicate.answerAt (less : Predicate α) (content : Nat → α) (first second : Nat) : Bool :=
  match less (content first) (content second) with
  | .ok answer => answer
  | .error _ => false

/-- The output is the stable sort of the input. -/
structure StableSort (less : Predicate α) (input output : List α) : Prop where
  ordered : output.Pairwise fun first second => less second first = .ok false
  perm : output.Perm input
  stable : ∀ element ∈ input,
    output.filter (less.ties element) = input.filter (less.ties element)

section Positions

variable {less : Predicate α} {content : Nat → α} {size : Nat}

/-- What stands at the positions of a sort. -/
def HeldBelow (content : Nat → α) (size : Nat) (element : α) : Prop :=
  ∃ position, position < size ∧ content position = element

/-- Pairs are ordered by their keys. -/
theorem weaklyOrders_fst {keys : Predicate β} {pairs : Nat → β × γ}
    (orders : keys.WeaklyOrders (HeldBelow (fun position => (pairs position).1) size)) :
    (keys.on Prod.fst).WeaklyOrders (HeldBelow pairs size) :=
  (orders.on Prod.fst).mono fun _ ⟨position, inside, held⟩ =>
    ⟨position, inside, congrArg Prod.fst held⟩

theorem answerAt_eq (orders : less.WeaklyOrders (HeldBelow content size))
    {first second : Nat} (hfirst : first < size) (hsecond : second < size) :
    less (content first) (content second) = .ok (less.answerAt content first second) := by
  obtain ⟨answer, answered⟩ :=
    orders.answers _ _ ⟨first, hfirst, rfl⟩ ⟨second, hsecond, rfl⟩
  rw [Predicate.answerAt, answered]

theorem not_before_of_precedes (orders : less.WeaklyOrders (HeldBelow content size))
    {first second : Nat} (hfirst : first < size) (hsecond : second < size)
    (precedes : Precedes (less.answerAt content) first second) :
    less (content second) (content first) = .ok false := by
  rcases Nat.lt_trichotomy first second with lower | rfl | upper
  · rw [answerAt_eq orders hsecond hfirst, (precedes_of_lt lower).mp precedes]
  · exact absurd precedes (not_precedes_self first)
  · refine orders.asymm ⟨first, hfirst, rfl⟩ ⟨second, hsecond, rfl⟩ ?_
    rw [answerAt_eq orders hfirst hsecond, (precedes_of_gt upper).mp precedes]

theorem transitiveBelow_answerAt (orders : less.WeaklyOrders (HeldBelow content size)) :
    TransitiveBelow (less.answerAt content) size := by
  intro first second third hfirst hsecond hthird before later
  have secondFirst := not_before_of_precedes orders hfirst hsecond before
  have thirdSecond := not_before_of_precedes orders hsecond hthird later
  have negTransitive : ∀ {one two three : Nat}, one < size → two < size → three < size →
      less (content one) (content two) = .ok false →
        less (content two) (content three) = .ok false →
          less (content one) (content three) = .ok false :=
    fun hone htwo hthree =>
      orders.negTransitive ⟨_, hone, rfl⟩ ⟨_, htwo, rfl⟩ ⟨_, hthree, rfl⟩
  have thirdFirst := negTransitive hthird hsecond hfirst thirdSecond secondFirst
  rw [answerAt_eq orders hthird hfirst, Except.ok.injEq] at thirdFirst
  rcases Nat.lt_trichotomy first third with lower | rfl | upper
  · exact (precedes_of_lt lower).mpr thirdFirst
  · exact absurd later (precedes_asymm before)
  · rw [precedes_of_gt upper]
    cases answer : less.answerAt content first third with
    | true => rfl
    | false =>
        -- All three are ties, and then they stand in the order of their positions.
        have firstThird : less (content first) (content third) = .ok false := by
          rw [answerAt_eq orders hfirst hthird, answer]
        have firstSecond := negTransitive hfirst hthird hsecond firstThird thirdSecond
        have secondThird := negTransitive hsecond hfirst hthird secondFirst firstThird
        rw [answerAt_eq orders hfirst hsecond, Except.ok.injEq] at firstSecond
        rw [answerAt_eq orders hsecond hthird, Except.ok.injEq] at secondThird
        have lowFirst : first < second := by
          rcases Nat.lt_trichotomy first second with lower | rfl | upper
          · exact lower
          · exact absurd before (not_precedes_self first)
          · rw [precedes_of_gt upper, firstSecond] at before
            cases before
        have lowSecond : second < third := by
          rcases Nat.lt_trichotomy second third with lower | rfl | upper
          · exact lower
          · exact absurd later (not_precedes_self second)
          · rw [precedes_of_gt upper, secondThird] at later
            cases later
        omega

theorem StableSort.of_precedes (orders : less.WeaklyOrders (HeldBelow content size))
    {positions origins : List Nat} (ascending : positions.Pairwise (· < ·))
    (inside : ∀ position ∈ positions, position < size) (perm : origins.Perm positions)
    (pairwise : origins.Pairwise (Precedes (less.answerAt content))) :
    StableSort less (positions.map content) (origins.map content) := by
  have below : ∀ position ∈ origins, position < size := fun position member =>
    inside position (perm.mem_iff.mp member)
  refine ⟨?_, perm.map content, ?_⟩
  · rw [List.pairwise_map]
    refine pairwise.imp_of_mem ?_
    intro first second hfirst hsecond precedes
    exact not_before_of_precedes orders (below first hfirst) (below second hsecond) precedes
  · intro element member
    obtain ⟨place, hplace, rfl⟩ := List.mem_map.mp member
    have placeBelow := inside place hplace
    rw [List.filter_map, List.filter_map]
    congr 1
    have sorted : (origins.filter (less.ties (content place) ∘ content)).Pairwise (· < ·) := by
      rw [List.pairwise_filter]
      refine pairwise.imp_of_mem ?_
      intro first second hfirst hsecond precedes tiedFirst tiedSecond
      have firstBelow := below first hfirst
      have secondBelow := below second hsecond
      obtain ⟨-, firstPlace⟩ := Predicate.ties_iff.mp tiedFirst
      obtain ⟨placeSecond, -⟩ := Predicate.ties_iff.mp tiedSecond
      have tied := orders.negTransitive ⟨first, firstBelow, rfl⟩ ⟨place, placeBelow, rfl⟩
        ⟨second, secondBelow, rfl⟩ firstPlace placeSecond
      rw [answerAt_eq orders firstBelow secondBelow, Except.ok.injEq] at tied
      rcases Nat.lt_trichotomy first second with lower | rfl | upper
      · exact lower
      · exact absurd precedes (not_precedes_self first)
      · rw [precedes_of_gt upper, tied] at precedes
        cases precedes
    exact (perm.filter _).eq_of_pairwise
      (fun _ _ _ _ lower upper => absurd upper (Nat.lt_asymm lower)) sorted
      (ascending.filter _)

/-- Each block of what is arranged is the stable sort of its own positions. -/
theorem Arranged.stableSort_block {width : Nat} {origin : Nat → Nat}
    (arranged : Arranged (less.answerAt content) size width origin) (positive : 0 < width)
    (orders : less.WeaklyOrders (HeldBelow content size)) (index : Nat) :
    StableSort less ((block size width index).map content)
      ((block size width index).map fun position => content (origin position)) := by
  have sorted := StableSort.of_precedes orders (pairwise_lt_block size width index)
    (fun position member => ((mem_block positive).mp member).1)
    (arranged.perm_block positive index) (arranged.pairwise_block positive index)
  rwa [List.map_map] at sorted

end Positions

end GridSort
