import GridSort.Proofs.Merge.Sequential
import GridSort.Proofs.Program.Inspection

namespace GridSort

/-! Where the first outputs of a stable merge come from. The merge itself says so if its elements
are marked with the run they come from. The search on a diagonal finds the same number without a
merge: in an order, what comes from the left is before all that is left over on the right, and the
other way round, so the test on the diagonal changes in one place only. -/

/-- An element without its mark. -/
def unmarked : α ⊕ α → α
  | .inl element => element
  | .inr element => element

/-- The stable merge of two runs, the left one's elements marked `inl`, the right one's `inr`. -/
def mergeMarked (less : Predicate α) (left right : List α) : List (α ⊕ α) :=
  List.merge (left.map Sum.inl) (right.map Sum.inr) fun first second =>
    less.keeps (unmarked first) (unmarked second)

/-- How many of the first `count` outputs of the stable merge come from the left run. -/
def leftAmong (less : Predicate α) (left right : List α) (count : Nat) : Nat :=
  ((mergeMarked less left right).take count).countP Sum.isLeft

section LeftAmong

variable {less : Predicate α} {left right : List α} {count : Nat}

/-- The marks change nothing about the merge. -/
theorem map_unmarked_mergeMarked (less : Predicate α) (left right : List α) :
    (mergeMarked less left right).map unmarked = List.merge left right less.keeps := by
  have left_id : (left.map Sum.inl).map unmarked = left := by simp [Function.comp_def, unmarked]
  have right_id : (right.map Sum.inr).map unmarked = right := by simp [Function.comp_def, unmarked]
  rw [mergeMarked, List.map_merge (s := less.keeps) fun _ _ _ _ => rfl, left_id, right_id]

theorem perm_mergeMarked (less : Predicate α) (left right : List α) :
    (mergeMarked less left right).Perm (left.map Sum.inl ++ right.map Sum.inr) :=
  List.merge_perm_append _

@[simp] theorem length_mergeMarked (less : Predicate α) (left right : List α) :
    (mergeMarked less left right).length = left.length + right.length := by
  simpa using (perm_mergeMarked less left right).length_eq

theorem countP_isLeft_mergeMarked (less : Predicate α) (left right : List α) :
    (mergeMarked less left right).countP Sum.isLeft = left.length := by
  rw [(perm_mergeMarked less left right).countP_eq]
  simp [List.countP_append, List.countP_map, Function.comp_def]

theorem leftAmong_le (less : Predicate α) (left right : List α) (count : Nat) :
    leftAmong less left right count ≤ count :=
  List.countP_le_length.trans (List.length_take_le _ _)

/-- Neither run gives more outputs than it has elements. -/
theorem leftAmong_bounds (less : Predicate α) (inside : count ≤ left.length + right.length) :
    count - right.length ≤ leftAmong less left right count ∧
      leftAmong less left right count ≤ min count left.length := by
  have upTo := leftAmong_le less left right count
  have part : leftAmong less left right count ≤
      (mergeMarked less left right).countP Sum.isLeft := (List.take_sublist _ _).countP_le
  have rest : (mergeMarked less left right).countP Sum.isLeft ≤
      leftAmong less left right count + (left.length + right.length - count) := by
    rw [leftAmong, ← length_mergeMarked less left right, ← List.length_drop]
    nth_rewrite 1 [← List.take_append_drop count (mergeMarked less left right)]
    rw [List.countP_append]
    exact Nat.add_le_add_left List.countP_le_length _
  rw [countP_isLeft_mergeMarked] at part rest
  omega

theorem leftAmong_succ (less : Predicate α) (left right : List α) (count : Nat) :
    leftAmong less left right (count + 1) = leftAmong less left right count ∨
      leftAmong less left right (count + 1) = leftAmong less left right count + 1 := by
  rw [leftAmong, leftAmong, List.take_add_one, List.countP_append]
  cases (mergeMarked less left right)[count]? with
  | none => simp
  | some output => cases output <;> simp

theorem monotone_leftAmong (less : Predicate α) (left right : List α) :
    Monotone (leftAmong less left right) :=
  monotone_nat_of_le_succ fun count => by
    rcases leftAmong_succ less left right count with same | more <;> omega

theorem leftAmong_cons_left {first : α}
    (stays : ∀ other ∈ right.head?, less.keeps first other = true) :
    leftAmong less (first :: left) right (count + 1) = leftAmong less left right count + 1 := by
  have merged : mergeMarked less (first :: left) right =
      Sum.inl first :: mergeMarked less left right := by
    apply merge_cons_left
    intro other head
    obtain ⟨key, member, rfl⟩ := by simpa using head
    exact stays key member
  simp [leftAmong, merged, List.countP_cons]

theorem leftAmong_cons_right {first : α}
    (leaves : ∀ other ∈ left.head?, less.keeps other first = false) :
    leftAmong less left (first :: right) (count + 1) = leftAmong less left right count := by
  have merged : mergeMarked less left (first :: right) =
      Sum.inr first :: mergeMarked less left right := by
    apply merge_cons_right
    intro other head
    obtain ⟨key, member, rfl⟩ := by simpa using head
    exact leaves key member
  simp [leftAmong, merged]

end LeftAmong

/-- Of a split of two runs: what it takes from one run stays before all that it leaves of the
other one. -/
structure SplitsRuns (less : Predicate α) (left right : List α) (taken passed : Nat) : Prop where
  leftFirst : ∀ first ∈ left.take taken, ∀ second ∈ right.drop passed,
    less second first = .ok false
  rightFirst : ∀ first ∈ right.take passed, ∀ second ∈ left.drop taken,
    less first second = .ok true

section Splits

variable {less : Predicate α} {first other : α} {left right : List α} {taken passed : Nat}

/-- The left head is taken, and stays before all of the right run. -/
theorem SplitsRuns.takeLeft (rest : SplitsRuns less left (other :: right) taken passed)
    (stays : ∀ second ∈ other :: right, less second first = .ok false) :
    SplitsRuns less (first :: left) (other :: right) (taken + 1) passed where
  leftFirst key member second remains := by
    rcases List.mem_cons.mp member with rfl | later
    · exact stays second (List.mem_of_mem_drop remains)
    · exact rest.leftFirst key later second remains
  rightFirst := rest.rightFirst

/-- The right head is taken, and comes before all of the left run. -/
theorem SplitsRuns.takeRight (rest : SplitsRuns less (first :: left) right taken passed)
    (before : ∀ second ∈ first :: left, less other second = .ok true) :
    SplitsRuns less (first :: left) (other :: right) taken (passed + 1) where
  leftFirst := rest.leftFirst
  rightFirst key member second remains := by
    rcases List.mem_cons.mp member with rfl | later
    · exact before second (List.mem_of_mem_drop remains)
    · exact rest.rightFirst key later second remains

/-- A merge of sorted runs splits them wherever it is stopped. -/
theorem splitsRuns_leftAmong {present : α → Prop} (orders : less.WeaklyOrders present)
    (leftPresent : ∀ key ∈ left, present key) (rightPresent : ∀ key ∈ right, present key)
    (leftSorted : less.Sorted left) (rightSorted : less.Sorted right) (count : Nat) :
    SplitsRuns less left right (leftAmong less left right count)
      (count - leftAmong less left right count) := by
  -- Each output takes a head. The induction is on the outputs, for all runs at once.
  induction count generalizing left right with
  | zero => constructor <;> simp [leftAmong]
  | succ count ih =>
      cases left with
      | nil => constructor <;> simp
      | cons first left =>
          cases right with
          | nil => constructor <;> simp
          | cons other right =>
              obtain ⟨firstPresent, restPresent⟩ := List.forall_mem_cons.mp leftPresent
              obtain ⟨otherPresent, laterPresent⟩ := List.forall_mem_cons.mp rightPresent
              obtain ⟨answer, answered⟩ := orders.answers _ _ otherPresent firstPresent
              cases answer with
              | false =>
                  have rest := ih restPresent rightPresent (List.pairwise_cons.mp leftSorted).2
                    rightSorted
                  rw [leftAmong_cons_left (by simp [Predicate.keeps, answered]),
                    Nat.add_sub_add_right]
                  exact rest.takeLeft fun second member => Predicate.Sorted.not_before_of_head
                    orders rightSorted rightPresent firstPresent member answered
              | true =>
                  have rest := ih leftPresent laterPresent leftSorted
                    (List.pairwise_cons.mp rightSorted).2
                  rw [leftAmong_cons_right (by simp [Predicate.keeps, answered]),
                    Nat.sub_add_comm (leftAmong_le _ _ _ _)]
                  exact rest.takeRight fun second member => Predicate.Sorted.before_of_head
                    orders leftSorted leftPresent otherPresent member answered

end Splits

/-! The search on a diagonal of two runs in a slice. -/

theorem inspects_bisect {memory : Memory} {readable : Region → Prop} {faults : Fault → Prop}
    {test : Nat → Program Bool} {low high : Nat} (ordered : low ≤ high)
    (each : ∀ candidate, low ≤ candidate → candidate < high →
      (test candidate).Inspects memory readable faults fun _ => True) :
    (bisect test low high).Inspects memory readable faults
      fun place => low ≤ place ∧ place ≤ high := by
  fun_induction bisect test low high with
  | case1 low high inside lower upper =>
      refine (each _ (Nat.le_add_right _ _) (by omega)).bind fun crossed _ => ?_
      cases crossed with
      | true =>
          exact (lower (Nat.le_add_right _ _) fun candidate hlow hhigh =>
            each candidate hlow (by omega)).mono fun place within => ⟨within.1, by omega⟩
      | false =>
          exact (upper (by omega) fun candidate hlow hhigh =>
            each candidate (by omega) hhigh).mono fun place within => ⟨by omega, within.2⟩
  | case2 low high outside => exact ⟨Nat.le_refl low, ordered⟩

theorem Program.lift_bind_of_ok {result : Except Fault α} {value : α} (h : result = .ok value)
    (next : α → Program β) : ((liftM result : Program α) >>= next) = next value := by
  subst h
  rfl

/-- The run has an element at the index. -/
def Span.Holds (span : Span) (index : Nat) : Prop := span.start ≤ index ∧ index < span.stop

namespace Slice

variable {type : ElementType}

/-- The elements of a run in a slice. -/
def elements (slice : Slice type) (span : Span) (memory : Memory) : List (Element type) :=
  between (slice.get memory) span.start span.stop

@[simp] theorem length_elements (slice : Slice type) (span : Span) (memory : Memory) :
    (slice.elements span memory).length = span.length := length_between _ _ _

theorem mem_take_elements {slice : Slice type} {span : Span} {memory : Memory} {index count : Nat}
    (held : span.Holds index) (early : index < span.start + count) :
    slice.get memory index ∈ (slice.elements span memory).take count := by
  rw [elements, take_between, mem_between]
  exact ⟨index, held.1, Nat.lt_min.mpr ⟨early, held.2⟩, rfl⟩

theorem mem_drop_elements {slice : Slice type} {span : Span} {memory : Memory} {index count : Nat}
    (held : span.Holds index) (late : span.start + count ≤ index) :
    slice.get memory index ∈ (slice.elements span memory).drop count := by
  rw [elements, drop_between, mem_between]
  exact ⟨index, late, held.2, rfl⟩

end Slice

section Runs

variable {type : ElementType} {less : Predicate (Element type)} {keys : Slice type}
  {memory : Memory} {left right : Span} {diagonal : Nat}
  (small : keys.length < 2 ^ 63) (leftInside : left.stop ≤ keys.length)
  (rightInside : right.stop ≤ keys.length) (onDiagonal : diagonal ≤ left.length + right.length)

/-- The candidates on a diagonal have an element in each run. -/
theorem holds_of_candidate {candidate : Nat} (low : diagonal - right.length ≤ candidate)
    (high : candidate < min diagonal left.length) :
    left.Holds (left.start + candidate) ∧ right.Holds (right.start + diagonal - 1 - candidate) := by
  unfold Span.length at low high
  constructor <;> constructor <;> omega

include small leftInside rightInside onDiagonal

theorem crosses_eq {candidate : Nat} (low : diagonal - right.length ≤ candidate)
    (high : candidate < min diagonal left.length) :
    crosses less keys left right diagonal candidate =
      (do
        let leftKey ← keys.read (left.start + candidate)
        let rightKey ← keys.read (right.start + diagonal - 1 - candidate)
        less rightKey leftKey) := by
  have largest : Size.largest = 2 ^ 64 - 1 := rfl
  unfold Span.length at low high onDiagonal
  rw [crosses, Program.lift_bind_of_ok (Size.add_eq_ok (by omega))]
  refine bind_congr fun leftKey => ?_
  rw [Program.lift_bind_of_ok (Size.add_eq_ok (by omega)),
    Program.lift_bind_of_ok (Size.sub_eq_ok (by omega)),
    Program.lift_bind_of_ok (Size.sub_eq_ok (by omega))]

/-- Whatever the predicate answers, and in whatever order the keys are: the search reads keys of
the two runs, and finds a number that both runs can make up. Only the predicate can fault. -/
theorem inspects_mergeSplit (less : Predicate (Element type)) (memory : Memory) :
    (mergeSplit less keys left right diagonal).Inspects memory
      (fun region => ∃ index, (left.Holds index ∨ right.Holds index) ∧
        region = keys.region index)
      (fun fault => ∃ leftIndex rightIndex, left.Holds leftIndex ∧ right.Holds rightIndex ∧
        less (keys.get memory rightIndex) (keys.get memory leftIndex) = .error fault)
      fun taken => diagonal - right.length ≤ taken ∧ taken ≤ min diagonal left.length := by
  refine inspects_bisect (by omega) fun candidate low high => ?_
  obtain ⟨inLeft, inRight⟩ := holds_of_candidate low high
  rw [crosses_eq small leftInside rightInside onDiagonal low high]
  refine (Program.Inspects.read (Nat.lt_of_lt_of_le inLeft.2 leftInside)
    ⟨_, Or.inl inLeft, rfl⟩).bind ?_
  rintro leftKey rfl
  refine (Program.Inspects.read (Nat.lt_of_lt_of_le inRight.2 rightInside)
    ⟨_, Or.inr inRight, rfl⟩).bind ?_
  rintro rightKey rfl
  cases answered : less (keys.get memory (right.start + diagonal - 1 - candidate))
      (keys.get memory (left.start + candidate)) with
  | ok answer => exact trivial
  | error fault => exact ⟨_, _, inLeft, inRight, answered⟩

variable {present : Element type → Prop} (orders : less.WeaklyOrders present)
  (leftPresent : ∀ key ∈ keys.elements left memory, present key)
  (rightPresent : ∀ key ∈ keys.elements right memory, present key)
  (leftSorted : less.Sorted (keys.elements left memory))
  (rightSorted : less.Sorted (keys.elements right memory))
include orders leftPresent rightPresent leftSorted rightSorted

omit small leftInside rightInside onDiagonal in
/-- On a diagonal, the keys change their order where the merge has split the runs. -/
theorem less_of_candidate {candidate : Nat} (low : diagonal - right.length ≤ candidate)
    (high : candidate < min diagonal left.length) :
    less (keys.get memory (right.start + diagonal - 1 - candidate))
        (keys.get memory (left.start + candidate)) =
      .ok (decide (leftAmong less (keys.elements left memory) (keys.elements right memory)
        diagonal ≤ candidate)) := by
  have splits := splitsRuns_leftAmong orders leftPresent rightPresent leftSorted rightSorted
    diagonal
  obtain ⟨inLeft, inRight⟩ := holds_of_candidate low high
  generalize leftAmong less _ _ diagonal = taken at splits
  by_cases beyond : taken ≤ candidate
  · rw [decide_eq_true beyond]
    exact splits.rightFirst _ (Slice.mem_take_elements inRight (by omega)) _
      (Slice.mem_drop_elements inLeft (by omega))
  · rw [decide_eq_false beyond]
    exact splits.leftFirst _ (Slice.mem_take_elements inLeft (by omega)) _
      (Slice.mem_drop_elements inRight (by omega))

/-- In an order, the search finds how many of the first outputs of the merge are from the left. -/
theorem run_mergeSplit :
    (mergeSplit less keys left right diagonal).run memory =
      (.ok (leftAmong less (keys.elements left memory) (keys.elements right memory) diagonal),
        memory) := by
  have answers : ∀ candidate, diagonal - right.length ≤ candidate →
      candidate < min diagonal left.length →
        (crosses less keys left right diagonal candidate).Performs memory (fun _ => True) []
          (decide (leftAmong less (keys.elements left memory) (keys.elements right memory)
            diagonal ≤ candidate)) := by
    intro candidate low high
    obtain ⟨inLeft, inRight⟩ := holds_of_candidate low high
    rw [crosses_eq small leftInside rightInside onDiagonal low high]
    exact (Slice.performs_read (Nat.lt_of_lt_of_le inLeft.2 leftInside) trivial memory).bind
      ((Slice.performs_read (Nat.lt_of_lt_of_le inRight.2 rightInside) trivial memory).bind
        (.lift (less_of_candidate orders leftPresent rightPresent leftSorted rightSorted low high)
          memory _))
  have within : diagonal ≤
      (keys.elements left memory).length + (keys.elements right memory).length := by
    simpa using onDiagonal
  have bounds := leftAmong_bounds less within
  simp only [Slice.length_elements] at bounds
  rw [mergeSplit, (performs_bisect answers).run,
    cut_eq_of_changes bounds.1 bounds.2 fun _ _ _ => rfl]
  rfl

end Runs

/-- Two sorted runs, anywhere in a slice: on each diagonal the search finds how many of the first
outputs of their stable merge come from the left run. So the number never falls from one diagonal
to a later one, and it grows by one at most from one to the next.

For keys in any order and any predicate the search ends within the bounds that the lengths of the
runs give, unless the predicate faults on two of their keys. It reads no other keys, and it leaves
memory as it was. -/
theorem mergeSplit_follows_merge {type : ElementType} (keys : Slice type) (memory : Memory)
    (left right : Span) (small : keys.length < 2 ^ 63) (leftInside : left.stop ≤ keys.length)
    (rightInside : right.stop ≤ keys.length) (less : Predicate (Element type)) :
    (less.WeaklyOrders (· ∈ keys.elements left memory ++ keys.elements right memory) →
      less.Sorted (keys.elements left memory) → less.Sorted (keys.elements right memory) →
        ∃ split : Nat → Nat,
          (∀ diagonal ≤ left.length + right.length,
            (mergeSplit less keys left right diagonal).run memory =
                (.ok (split diagonal), memory) ∧
              split diagonal = leftAmong less (keys.elements left memory)
                (keys.elements right memory) diagonal) ∧
          (∀ diagonal later, diagonal ≤ later → later ≤ left.length + right.length →
            split diagonal ≤ split later) ∧
          ∀ diagonal < left.length + right.length,
            split (diagonal + 1) = split diagonal ∨
              split (diagonal + 1) = split diagonal + 1) ∧
    ∀ diagonal ≤ left.length + right.length,
      (∀ region ∈ (mergeSplit less keys left right diagonal).loads memory,
        ∃ index, (left.Holds index ∨ right.Holds index) ∧ region = keys.region index) ∧
      ((∃ taken, (mergeSplit less keys left right diagonal).run memory = (.ok taken, memory) ∧
          max 0 (diagonal - right.length) ≤ taken ∧ taken ≤ min diagonal left.length) ∨
        ∃ fault, (mergeSplit less keys left right diagonal).run memory = (.error fault, memory) ∧
          ∃ leftIndex rightIndex, left.Holds leftIndex ∧ right.Holds rightIndex ∧
            less (keys.get memory rightIndex) (keys.get memory leftIndex) = .error fault) := by
  constructor
  · intro orders leftSorted rightSorted
    refine ⟨leftAmong less (keys.elements left memory) (keys.elements right memory), ?_, ?_, ?_⟩
    · intro diagonal onDiagonal
      exact ⟨run_mergeSplit small leftInside rightInside onDiagonal orders
        (fun _ => List.mem_append_left _) (fun _ => List.mem_append_right _) leftSorted
        rightSorted, rfl⟩
    · exact fun _ _ earlier _ => monotone_leftAmong _ _ _ earlier
    · exact fun diagonal _ => leftAmong_succ _ _ _ diagonal
  · intro diagonal onDiagonal
    have inspects := inspects_mergeSplit small leftInside rightInside onDiagonal less memory
    refine ⟨inspects.loads, ?_⟩
    simpa only [Nat.zero_max] using inspects.run

/-! Five keys before four others, with ties in both runs and across them. -/

namespace SmallDiagonal

def memory : Memory := ⟨#[#[1, 3, 3, 7, 8, 2, 3, 4, 9]]⟩

def keys : Slice .byte := ⟨0, 0, 9⟩

theorem orders (present : Element .byte → Prop) : Predicate.less.WeaklyOrders present :=
  (Predicate.less_weaklyOrders _).mono fun _ _ => ⟨_, rfl⟩

theorem sorted_left : Predicate.less.Sorted (keys.elements ⟨0, 5⟩ memory) := by
  unfold Predicate.Sorted
  decide

theorem sorted_right : Predicate.less.Sorted (keys.elements ⟨5, 9⟩ memory) := by
  unfold Predicate.Sorted
  decide

theorem leftAmong_four :
    leftAmong .less (keys.elements ⟨0, 5⟩ memory) (keys.elements ⟨5, 9⟩ memory) 4 = 3 := by
  cbv

end SmallDiagonal

theorem mergeSplit_follows_merge_small :
    (mergeSplit .less SmallDiagonal.keys ⟨0, 5⟩ ⟨5, 9⟩ 4).run SmallDiagonal.memory =
        (.ok 3, SmallDiagonal.memory) ∧
      ∃ taken, (mergeSplit .always SmallDiagonal.keys ⟨3, 8⟩ ⟨1, 4⟩ 6).run SmallDiagonal.memory =
        (.ok taken, SmallDiagonal.memory) ∧ 3 ≤ taken ∧ taken ≤ 5 := by
  constructor
  · obtain ⟨ordered, -⟩ := mergeSplit_follows_merge SmallDiagonal.keys SmallDiagonal.memory
      ⟨0, 5⟩ ⟨5, 9⟩ (by decide) (by decide) (by decide) .less
    obtain ⟨split, found, -, -⟩ := ordered (SmallDiagonal.orders _) SmallDiagonal.sorted_left
      SmallDiagonal.sorted_right
    obtain ⟨run, count⟩ := found 4 (by decide)
    rw [run, count, SmallDiagonal.leftAmong_four]
  · obtain ⟨-, anyKeys⟩ := mergeSplit_follows_merge SmallDiagonal.keys SmallDiagonal.memory
      ⟨3, 8⟩ ⟨1, 4⟩ (by decide) (by decide) (by decide) .always
    rcases (anyKeys 6 (by decide)).2 with ⟨taken, run, low, high⟩ | ⟨fault, -, _, _, -, -, faults⟩
    · exact ⟨taken, run, low, high⟩
    · cases faults

end GridSort
