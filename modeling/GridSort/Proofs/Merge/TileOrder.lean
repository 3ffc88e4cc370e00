import GridSort.Proofs.Merge.Doublings
import GridSort.Proofs.Merge.Ranks
import GridSort.Proofs.Merge.Renaming

namespace GridSort

/-! The rounds of a tile. For any predicate that answers, a round puts every element
somewhere in its pair of runs. In an order no two elements meet, and the round doubles
the width of the arranged blocks. -/

open RunPair

section Landing

variable {less : Predicate α} {tile : Array α} {after : Nat → Nat → Bool}
  {index width : Nat}

theorem exists_border_extract (test : α → Except Fault Bool) (answers : Nat → Bool)
    (start : Nat) {stop : Nat} (bound : stop ≤ tile.size)
    (total : ∀ place (inside : place < tile.size), test tile[place] = .ok (answers place)) :
    ∃ count, border (tile.extract start stop) test = .ok count ∧
      Cuts (fun place => !answers (start + place)) 0 (stop - start) count := by
  have size : (tile.extract start stop).size = stop - start := by
    rw [Array.size_extract, Nat.min_eq_left bound]
  rw [← size]
  apply exists_border
  intro place inside
  rw [Array.getElem_extract]
  exact total _ (by omega)

/-- With sizes that are words, a lane only searches the other run of its pair. -/
theorem landing_eq (less : Predicate α) (positive : 0 < width) (wide : 2 * width ≤ Size.largest)
    (small : 2 * tile.size ≤ Size.largest) (inside : index < tile.size) :
    landing less tile index width =
      if index < mid tile.size width index then
        (countBefore less (tile.extract (mid tile.size width index)
          (stop tile.size width index)) tile[index]).bind fun passed =>
            Size.add index passed
      else
        (Size.add (base width index) (index - mid tile.size width index)).bind fun own =>
          (countNotAfter less (tile.extract (base width index)
            (mid tile.size width index)) tile[index]).bind fun passed =>
              Size.add own passed := by
  have fromBase := base_le width index
  have whole : base width index = 0 ∨ 2 * width ≤ base width index := by
    rcases Nat.eq_zero_or_pos (index / (2 * width)) with first | later
    · exact Or.inl (by rw [base, first, Nat.zero_mul])
    · exact Or.inr (Nat.le_mul_of_pos_left _ later)
  have pairWidth : Size.mul 2 width = .ok (2 * width) := Size.mul_eq_ok wide
  have pair : Size.div index (2 * width) = .ok (index / (2 * width)) :=
    Size.div_eq_ok (by omega)
  have middle : Size.add (base width index) width = .ok (base width index + width) :=
    Size.add_eq_ok (by omega)
  have ending : Size.add (base width index) (2 * width) =
      .ok (base width index + 2 * width) := Size.add_eq_ok (by omega)
  rw [landing, Array.getElem?_eq_getElem inside, pairWidth]
  change (Size.div index (2 * width)).bind _ = _
  rw [pair]
  change (Size.add (base width index) width).bind _ = _
  rw [middle]
  change (Size.add (base width index) (2 * width)).bind _ = _
  rw [ending]
  rfl

theorem exists_landing
    (total : ∀ left right (hleft : left < tile.size) (hright : right < tile.size),
      less tile[left] tile[right] = .ok (after left right))
    (positive : 0 < width) (wide : 2 * width ≤ Size.largest)
    (small : 2 * tile.size ≤ Size.largest) (inside : index < tile.size) :
    ∃ rank, landing less tile index width = .ok rank ∧
      Lands after tile.size width index rank := by
  have fromBase := base_le width index
  have midLe : mid tile.size width index ≤ tile.size := Nat.min_le_right _ _
  have stopLe := stop_le tile.size width index
  have baseMid := base_le_mid width inside
  have midStop := mid_le_stop tile.size width index
  have beforeStop := lt_stop positive inside
  rw [landing_eq less positive wide small inside]
  by_cases inLeft : index < mid tile.size width index
  · obtain ⟨passed, counted, cuts⟩ := exists_border_extract
      (fun element => less element tile[index]) (fun place => after place index)
      (mid tile.size width index) stopLe fun place hplace => total place index hplace inside
    have upper := cuts.upper
    rw [if_pos inLeft, countBefore, counted]
    exact ⟨index + passed, Size.add_eq_ok (by omega), .left passed inLeft cuts⟩
  · have inRight := Nat.le_of_not_lt inLeft
    obtain ⟨passed, counted, cuts⟩ := exists_border_extract
      (fun element => (less tile[index] element).map not) (fun place => !after index place)
      (base width index) midLe fun place hplace => by
        rw [total index place inside hplace]
        rfl
    have upper := cuts.upper
    simp only [Bool.not_not] at cuts
    rw [if_neg inLeft, Size.add_eq_ok (by omega)]
    change ∃ rank, (countNotAfter less _ tile[index]).bind _ = .ok rank ∧ _
    rw [countNotAfter, counted]
    exact ⟨_, Size.add_eq_ok (by omega), .right passed inRight cuts⟩

/-- The first `count` lanes have put their elements where they land, the last one of
those that land in one place. -/
structure Scattered (tile : Array α) (rank : Nat → Nat) (count : Nat) (filled : Array α) :
    Prop where
  size : filled.size = tile.size
  slots : ∀ lane, lane < count →
    (∀ later, lane < later → later < count → rank later ≠ rank lane) →
      filled[rank lane]? = tile[lane]?

theorem Scattered.scatter {rank : Nat → Nat} {lane : Nat} {filled : Array α}
    (h : Scattered tile rank lane filled) (inside : lane < tile.size)
    (found : landing less tile lane width = .ok (rank lane)) (room : rank lane < tile.size) :
    ∃ next, GridSort.scatter less tile width filled lane = .ok next ∧
      Scattered tile rank (lane + 1) next := by
  rw [← h.size] at room
  refine ⟨filled.set (rank lane) tile[lane] room, ?_, ?_, ?_⟩
  · rw [GridSort.scatter, found, Array.getElem?_eq_getElem inside]
    exact dif_pos room
  · rw [Array.size_set, h.size]
  · intro other earlier last
    rcases Nat.lt_or_eq_of_le (Nat.le_of_lt_succ earlier) with before | rfl
    · rw [Array.getElem?_set_ne room (last lane before (Nat.lt_succ_self lane))]
      exact h.slots other before fun later hlow hhigh =>
        last later hlow (Nat.lt_succ_of_lt hhigh)
    · rw [Array.getElem?_set_self, Array.getElem?_eq_getElem inside]

theorem exists_ranks
    (total : ∀ left right (hleft : left < tile.size) (hright : right < tile.size),
      less tile[left] tile[right] = .ok (after left right))
    (positive : 0 < width) (wide : 2 * width ≤ Size.largest)
    (small : 2 * tile.size ≤ Size.largest) :
    ∃ rank : Nat → Nat, ∀ lane, lane < tile.size →
      landing less tile lane width = .ok (rank lane) ∧
        Lands after tile.size width lane (rank lane) := by
  have each : ∀ lane, lane < tile.size → ∃ rank,
      landing less tile lane width = .ok rank ∧ Lands after tile.size width lane rank :=
    fun _ inside => exists_landing total positive wide small inside
  choose! rank ranks using each
  exact ⟨rank, ranks⟩

theorem exists_round {spare : Array α} {rank : Nat → Nat} (positive : 0 < width)
    (ranks : ∀ lane, lane < tile.size → landing less tile lane width = .ok (rank lane) ∧
      Lands after tile.size width lane (rank lane))
    (sizes : spare.size = tile.size) :
    ∃ filled : Array α, Tile.round less ⟨tile, spare⟩ width = .ok ⟨filled, tile⟩ ∧
      Scattered tile rank tile.size filled := by
  have started : Scattered tile rank 0 spare :=
    ⟨sizes, fun lane impossible => absurd impossible (Nat.not_lt_zero lane)⟩
  obtain ⟨filled, folded, scattered⟩ := exists_foldlM_range (Scattered tile rank) started
    fun lane inside filled scattered =>
      scattered.scatter inside (ranks lane inside).1
        ((ranks lane inside).2.rank_lt positive inside)
  refine ⟨filled, ?_, scattered⟩
  rw [Tile.round, folded]
  rfl

end Landing

/-! What is sorted is the numbers of the elements: the predicate then is a test of
positions, and the result says where each element comes from. -/

namespace Tile

variable {test : Nat → Nat → Bool} {size width : Nat}

def held (order : Array (Fin size)) (place : Nat) : Nat :=
  match order[place]? with
  | some element => element
  | none => place

theorem held_eq {order : Array (Fin size)} {place : Nat} (inside : place < order.size) :
    held order place = order[place] := by
  rw [held, Array.getElem?_eq_getElem inside]

/-- Lanes that land in order land apart, and everywhere. -/
theorem arranged_filled {tile filled : Array (Fin size)} {rank : Nat → Nat}
    (arranged : Arranged test size width (held tile)) (trans : TransitiveBelow test size)
    (positive : 0 < width)
    (lands : ∀ lane, lane < size →
      Lands (testAt test (held tile)) size width lane (rank lane))
    (tileSize : tile.size = size) (scattered : Scattered tile rank size filled) :
    Arranged test size (2 * width) (held filled) := by
  refine Lands.arranged_of_moved arranged trans positive lands fun lane inside => ?_
  have slot := scattered.slots lane inside fun later hlow hhigh equal =>
    Nat.ne_of_gt hlow (Lands.rank_injective arranged trans positive lands hhigh inside equal)
  rw [held, slot, Array.getElem?_eq_getElem (by omega), held_eq (by omega)]

theorem arranged_ofFn (test : Nat → Nat → Bool) (size : Nat) :
    Arranged test size 1 (held (Array.ofFn (id : Fin size → Fin size))) := by
  have same : ∀ place, place < size → held (Array.ofFn (id : Fin size → Fin size)) place =
      place := by
    intro place inside
    rw [held_eq (by rwa [Array.size_ofFn]), Array.getElem_ofFn]
    rfl
  refine ⟨fun place inside => ?_, fun first second lower inside block => ?_⟩
  · rw [same place inside]
    exact ⟨inside, rfl⟩
  · rw [Nat.div_one, Nat.div_one] at block
    omega

/-- A tile between two rounds. -/
structure Rounds (test : Nat → Nat → Bool) (size count : Nat) (tile : Tile (Fin size)) :
    Prop where
  currentSize : tile.current.size = size
  spareSize : tile.spare.size = size
  arranged : TransitiveBelow test size → Arranged test size (2 ^ count) (held tile.current)

theorem Rounds.round {count : Nat} {tile : Tile (Fin size)} (h : Rounds test size count tile)
    (narrow : 2 ^ count < size) (small : 3 * size ≤ Size.largest) :
    ∃ next, Tile.round (Predicate.ofTest fun left right : Fin size => test left right) tile
        (2 ^ count) = .ok next ∧ Rounds test size (count + 1) next := by
  obtain ⟨current, spare⟩ := tile
  obtain ⟨currentSize, spareSize, arranged⟩ := h
  dsimp only at currentSize spareSize arranged
  have positive : 0 < 2 ^ count := Nat.two_pow_pos count
  have total : ∀ left right (hleft : left < current.size) (hright : right < current.size),
      Predicate.ofTest (fun left right : Fin size => test left right) current[left]
        current[right] = .ok (testAt test (held current) left right) := by
    intro left right hleft hright
    rw [testAt, held_eq hleft, held_eq hright]
    rfl
  obtain ⟨rank, ranks⟩ := exists_ranks total positive (by omega) (by omega)
  obtain ⟨filled, rounded, scattered⟩ :=
    exists_round positive ranks (spareSize.trans currentSize.symm)
  have lands := fun lane inside => (ranks lane inside).2
  refine ⟨⟨filled, current⟩, rounded, scattered.size.trans currentSize, currentSize, ?_⟩
  intro trans
  rw [currentSize] at scattered lands
  rw [Nat.pow_succ, Nat.mul_comm]
  exact arranged_filled (arranged trans) trans positive lands currentSize scattered

theorem exists_sort (test : Nat → Nat → Bool) (small : 3 * size ≤ Size.largest) :
    ∃ order, Tile.sort (Predicate.ofTest fun left right : Fin size => test left right)
        (Array.ofFn id) = .ok order ∧ order.size = size ∧
      (TransitiveBelow test size → ∀ first second, first < second → second < size →
        Precedes test (held order first) (held order second)) := by
  have bounded : size ≤ Size.largest := by omega
  have initial : Rounds test size 0 ⟨Array.ofFn id, Array.ofFn id⟩ :=
    ⟨Array.size_ofFn, Array.size_ofFn, fun _ => arranged_ofFn test size⟩
  obtain ⟨tile, folded, rounds⟩ := exists_foldlM_range (Rounds test size) initial
    fun count (inside : count < (Size.doublings 1 size).length) tile rounds =>
      rounds.round (by simpa using Size.mul_two_pow_lt Nat.one_pos bounded inside) small
  refine ⟨tile.current, ?_, rounds.currentSize, ?_⟩
  · have widths : Size.doublings 1 size =
        (List.range (Size.doublings 1 size).length).map (2 ^ ·) := by
      simpa using Size.doublings_eq_map Nat.one_pos bounded
    rw [Tile.sort, Array.size_ofFn, widths, List.foldlM_map, folded]
    rfl
  · intro trans first second lower inside
    have wide := Size.le_mul_two_pow_length Nat.one_pos bounded
    rw [Nat.one_mul] at wide
    apply (rounds.arranged trans).sorted first second lower inside
    rw [Nat.div_eq_of_lt (by omega), Nat.div_eq_of_lt (by omega)]

/-- The element that a sorted tile of `size` elements has at a place. -/
def order (test : Nat → Nat → Bool) (size place : Nat) : Nat :=
  match Tile.sort (Predicate.ofTest fun left right : Fin size => test left right)
    (Array.ofFn id) with
  | .ok sorted => held sorted place
  | .error _ => place

theorem order_lt (test : Nat → Nat → Bool) (small : 3 * size ≤ Size.largest) {place : Nat}
    (inside : place < size) : order test size place < size := by
  obtain ⟨sorted, succeeded, sortedSize, -⟩ := exists_sort test small
  rw [order, succeeded]
  dsimp only
  rw [held_eq (by omega)]
  exact Fin.isLt _

theorem precedes_order (trans : TransitiveBelow test size) (small : 3 * size ≤ Size.largest)
    {first second : Nat} (lower : first < second) (inside : second < size) :
    Precedes test (order test size first) (order test size second) := by
  obtain ⟨sorted, succeeded, -, ordered⟩ := exists_sort test small
  rw [order, order, succeeded]
  exact ordered trans first second lower inside

/-- A tile of any elements is sorted as the numbers of its elements are. -/
theorem sort_eq {less : Predicate α} {elements : Array α}
    (total : ∀ left right (hleft : left < elements.size) (hright : right < elements.size),
      less elements[left] elements[right] = .ok (test left right))
    (small : 3 * elements.size ≤ Size.largest) :
    ∃ sorted, Tile.sort less elements = .ok sorted ∧ sorted.size = elements.size ∧
      ∀ place (inside : place < sorted.size),
        elements[order test elements.size place]? = some sorted[place] := by
  obtain ⟨numbers, succeeded, numbersSize, -⟩ := exists_sort test small
  have named : (Array.ofFn id).map (fun index : Fin elements.size => elements[index]) =
      elements := by
    apply Array.ext
    · simp
    · intro index _ _
      simp
  have same : less.on (fun index : Fin elements.size => elements[index]) =
      Predicate.ofTest fun left right : Fin elements.size => test left right := by
    funext left right
    exact total left right left.isLt right.isLt
  refine ⟨numbers.map fun index => elements[index], ?_, ?_, ?_⟩
  · have renamed := sort_map (fun index : Fin elements.size => elements[index]) less
      (Array.ofFn id)
    rw [named, same, succeeded] at renamed
    exact renamed
  · rw [Array.size_map, numbersSize]
  · intro place inside
    rw [Array.size_map] at inside
    rw [order, succeeded]
    dsimp only
    rw [held_eq inside, Array.getElem_map]
    exact Array.getElem?_eq_getElem _

end Tile

/-- The answers of a test for the keys of a list. -/
def answersOf (test : α → α → Bool) (keys : List α) (first second : Nat) : Bool :=
  match keys[first]?, keys[second]? with
  | some key, some other => test key other
  | _, _ => false

namespace Tile

theorem sort_of_size_le_one (less : Predicate α) {elements : Array α} (few : elements.size ≤ 1) :
    Tile.sort less elements = .ok elements := by
  rw [Tile.sort, Size.doublings_of_le few]
  rfl

end Tile

end GridSort
