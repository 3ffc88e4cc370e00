import GridSort.Sample
import GridSort.Proofs.Merge.Doublings

namespace GridSort

/-! What samples look like, whatever is drawn for them. A swap moves two elements at most, so a
few swaps leave most of an ascending array where it was, also when they meet. -/

/-- Whether an element is at another place than the one that its value names. -/
def Sample.isMoved (element : UInt32 × Nat) : Bool := element.1.toNat != element.2

namespace Sample

theorem movedCount_eq_countP (data : Array UInt32) :
    movedCount data = data.toList.zipIdx.countP isMoved := by
  rw [List.countP_eq_length_filter, movedCount, ← Array.length_toList, Array.toList_filter,
    Array.toList_zipIdx]
  rfl

/-- A list that differs in one element has at most one more that meets a test. -/
theorem countP_zipIdx_set_le (test : α × Nat → Bool) (elements : List α) (place start : Nat)
    (element : α) :
    ((elements.set place element).zipIdx start).countP test ≤
      (elements.zipIdx start).countP test + 1 := by
  induction elements generalizing place start with
  | nil => simp
  | cons head rest ih =>
      cases place with
      | zero =>
          simp only [List.set_cons_zero, List.zipIdx_cons, List.countP_cons]
          split <;> omega
      | succ place =>
          have later := ih place (start + 1)
          simp only [List.set_cons_succ, List.zipIdx_cons, List.countP_cons]
          omega

theorem movedCount_swap_le (data : Array UInt32) {first second : Nat} (hfirst : first < data.size)
    (hsecond : second < data.size) :
    movedCount (data.swap first second hfirst hsecond) ≤ movedCount data + 2 := by
  rw [movedCount_eq_countP, movedCount_eq_countP, Array.swap_def, Array.toList_set,
    Array.toList_set]
  have inner := countP_zipIdx_set_le isMoved data.toList first 0 data[second]
  have outer := countP_zipIdx_set_le isMoved (data.toList.set first data[second]) second 0
    data[first]
  omega

end Sample

namespace Distribution

variable {size : Nat}

theorem map_toNat_ascending (small : size < 2 ^ 32) :
    (ascending size).toList.map UInt32.toNat = List.range size := by
  have whole : size % Nat.pow 2 32 = size := Nat.mod_eq_of_lt small
  rw [ascending, whole, Array.toList_map, Array.toList_range, List.map_map]
  refine (List.map_congr_left fun number member => ?_).trans (List.map_id _)
  exact UInt32.toNat_ofNat_of_lt' (Nat.lt_trans (List.mem_range.mp member) small)

/-- Numbers that are in order are all where they belong. -/
theorem movedCount_of_range {data : Array UInt32}
    (ordered : data.toList.map UInt32.toNat = List.range size) : Sample.movedCount data = 0 := by
  rw [Sample.movedCount_eq_countP, List.countP_eq_zero]
  rintro ⟨value, place⟩ member
  obtain ⟨inside, held⟩ := List.mem_zipIdx' member
  have length : data.toList.length = size := by simpa using congrArg List.length ordered
  have home : (data.toList.map UInt32.toNat)[place]? = some place := by
    rw [ordered, List.getElem?_range (length ▸ inside)]
  rw [List.getElem?_map, List.getElem?_eq_getElem inside, ← held] at home
  simpa [Sample.isMoved] using home

/-- After some swaps: all numbers are still there, and each swap has moved two of them at most. -/
structure Shuffled (size count : Nat) (data : Array UInt32) : Prop where
  perm : (data.toList.map UInt32.toNat).Perm (List.range size)
  moved : Sample.movedCount data ≤ 2 * count

theorem shuffled_ascending (small : size < 2 ^ 32) : Shuffled size 0 (ascending size) where
  perm := .of_eq (map_toNat_ascending small)
  moved := Nat.le_of_eq (movedCount_of_range (map_toNat_ascending small))

theorem Shuffled.size_eq {count : Nat} {data : Array UInt32} (shuffled : Shuffled size count data) :
    data.size = size := by
  simpa using shuffled.perm.length_eq

/-- Each swap is in bounds, because draws are. -/
theorem Shuffled.exists_swapDrawn {count : Nat} {data : Array UInt32}
    (shuffled : Shuffled size count data) (positive : 1 ≤ size) (draws : Draws) :
    ∃ next, swapDrawn draws size data count = .ok next ∧ Shuffled size (count + 1) next := by
  obtain rfl := shuffled.size_eq
  have hfirst := draws.next_lt (2 * count) _ positive
  have hsecond := draws.next_lt (2 * count + 1) _ positive
  refine ⟨data.swap _ _ hfirst hsecond, ?_, ?_, ?_⟩
  · simp [swapDrawn, Draws.below, swap, hfirst, hsecond, Nat.ne_of_gt positive, bind, Except.bind]
  · exact ((Array.swap_perm hfirst hsecond).toList.map _).trans shuffled.perm
  · have moved := shuffled.moved
    have more := Sample.movedCount_swap_le data hfirst hsecond
    omega

/-- No index is out of bounds. The numbers below the size are all there, and no more are moved
than two for each swap. -/
theorem exists_nearlySorted (draws : Draws) (positive : 1 ≤ size) (small : size < 2 ^ 32) :
    ∃ data, nearlySorted.sample draws size = .ok data ∧ Shuffled size (swapCount size) data :=
  exists_foldlM_range (Shuffled size) (shuffled_ascending small) fun _ _ _ shuffled =>
    shuffled.exists_swapDrawn positive draws

theorem toNat_fewUnique (draws : Draws) (index : Nat) :
    (UInt32.ofNat (draws.next index 16) * 17).toNat = draws.next index 16 * 17 := by
  have drawn := draws.next_lt index 16 (by decide)
  rw [UInt32.toNat_mul, UInt32.toNat_ofNat_of_lt' (Nat.lt_trans drawn (by decide))]
  exact Nat.mod_eq_of_lt (by change _ * 17 < 2 ^ 32; omega)

/-- Whatever is drawn: a nearly sorted sample is a permutation that has moved no more than two
elements for each of its swaps, of which there is one for each hundred elements and at least one.
A sample with few unique elements has as many elements as were asked for, all of them multiples of
17 that fit into a byte. -/
theorem samples_of_any_draws (draws : Draws) (size : Nat) :
    (1 ≤ size → size < 2 ^ 32 → ∃ data, nearlySorted.sample draws size = .ok data ∧
      (data.toList.map UInt32.toNat).Perm (List.range size) ∧
      Sample.movedCount data ≤ 2 * max (size / 100) 1) ∧
    ∃ data, fewUnique.sample draws size = .ok data ∧ data.size = size ∧
      ∀ value ∈ data, 17 ∣ value.toNat ∧ value.toNat ≤ 255 := by
  constructor
  · intro positive small
    obtain ⟨data, sampled, shuffled⟩ := exists_nearlySorted draws positive small
    exact ⟨data, sampled, shuffled.perm, shuffled.moved⟩
  · refine ⟨_, rfl, by simp, fun value member => ?_⟩
    obtain ⟨index, -, rfl⟩ := Array.mem_map.mp member
    have drawn := draws.next_lt index 16 (by decide)
    rw [toNat_fewUnique]
    exact ⟨Nat.dvd_mul_left 17 _, by omega⟩

/-- Draws that go round the numbers below the bound. -/
def roundRobin : Draws := ⟨fun index bound => index % bound, fun _ _ => Nat.mod_lt _⟩

theorem samples_of_any_draws_small :
    (∃ data, nearlySorted.sample roundRobin 250 = .ok data ∧
      (data.toList.map UInt32.toNat).Perm (List.range 250) ∧ Sample.movedCount data ≤ 4) ∧
    ∃ data, fewUnique.sample roundRobin 250 = .ok data ∧ data.size = 250 ∧
      ∀ value ∈ data, 17 ∣ value.toNat ∧ value.toNat ≤ 255 := by
  obtain ⟨nearly, few⟩ := samples_of_any_draws roundRobin 250
  exact ⟨nearly (by decide) (by decide), few⟩

/-- A swap needs an element to draw. -/
example (draws : Draws) : nearlySorted.sample draws 0 = .error .emptyRange := rfl

end Distribution

end GridSort
