import GridSort.Proofs.Program.Footprint
import GridSort.Size
import GridSort.Stream

namespace GridSort

/-! The groups of a launch. Each works on a window of its own, and if no group reads
what another one writes, each does what it would do alone, in every order. -/

theorem range'_sub_append {low middle high : Nat} (first : low ≤ middle)
    (second : middle ≤ high) :
    List.range' low (high - low) =
      List.range' low (middle - low) ++ List.range' middle (high - middle) := by
  have joined : List.range' low (middle - low) ++
        List.range' (low + (middle - low)) (high - middle) =
      List.range' low (middle - low + (high - middle)) := List.range'_append_1
  rw [Nat.add_sub_cancel' first] at joined
  rw [joined]
  congr 1
  omega

namespace Grid

/-- As many groups as it takes to give each position a lane. -/
def covering (size lanes : Nat) : Grid := ⟨Size.ceilDiv size lanes, lanes⟩

/-- Sizes for which no index of a launch leaves the word range. -/
structure Fits (size lanes : Nat) : Prop where
  size_lt : size < 2 ^ 63
  positive : 0 < lanes
  lanes_le : lanes ≤ maxLanes

theorem Fits.add_le {size lanes : Nat} (fits : Fits size lanes) :
    size + lanes ≤ Size.largest := by
  have := fits.size_lt
  have : lanes ≤ 1024 := fits.lanes_le
  have : Size.largest = 2 ^ 64 - 1 := rfl
  omega

theorem Fits.size_le {size lanes : Nat} (fits : Fits size lanes) : size ≤ Size.largest :=
  Nat.le_trans (Nat.le_add_right size lanes) fits.add_le

theorem Fits.double_le {size lanes : Nat} (fits : Fits size lanes) :
    2 * size ≤ Size.largest := by
  have := fits.size_lt
  have : Size.largest = 2 ^ 64 - 1 := rfl
  omega

theorem Fits.covering_le {size lanes : Nat} (fits : Fits size lanes) :
    (covering size lanes).groups * (covering size lanes).lanes ≤ Size.largest :=
  Nat.le_trans (Nat.le_of_lt (Size.roundUp_lt size fits.positive)) fits.add_le

theorem mul_lanes_lt {size lanes id : Nat} (positive : 0 < lanes)
    (inside : id < (covering size lanes).groups) : id * lanes < size := by
  have whole : (id + 1) * lanes ≤ size + lanes - 1 :=
    (Nat.le_div_iff_mul_le positive).mp inside
  rw [Nat.succ_mul] at whole
  omega

end Grid

namespace Group

/-- The positions below `size` that belong to the group. -/
def window (group : Group) (size : Nat) : List Nat :=
  List.range' (group.id * group.lanes) (min group.lanes (size - group.id * group.lanes))

theorem mem_window {group : Group} {size index : Nat} :
    index ∈ group.window size ↔
      group.id * group.lanes ≤ index ∧ index < (group.id + 1) * group.lanes ∧
        index < size := by
  rw [window, List.mem_range'_1, Nat.succ_mul]
  omega

theorem lt_of_mem_window {group : Group} {size index : Nat}
    (member : index ∈ group.window size) : index < size :=
  (mem_window.mp member).2.2

theorem id_eq_of_mem_window {group : Group} {size index : Nat}
    (member : index ∈ group.window size) : index / group.lanes = group.id := by
  obtain ⟨low, high, -⟩ := mem_window.mp member
  exact Nat.div_eq_of_lt_le low high

theorem flatMap_window (grid : Grid) (size count : Nat) :
    (List.range count).flatMap (fun id => (⟨id, grid⟩ : Group).window size) =
      List.range (min (count * grid.lanes) size) := by
  induction count with
  | zero => simp
  | succ count ih =>
      rw [List.range_succ, List.flatMap_append, ih, List.flatMap_singleton, window,
        List.range_eq_range', List.range_eq_range', Nat.succ_mul]
      change List.range' 0 (min (count * grid.lanes) size) ++
        List.range' (count * grid.lanes) (min grid.lanes (size - count * grid.lanes)) = _
      by_cases full : count * grid.lanes ≤ size
      · have upTo : min grid.lanes (size - count * grid.lanes) =
            min (count * grid.lanes + grid.lanes) size - count * grid.lanes := by omega
        have joined := range'_sub_append (Nat.zero_le (count * grid.lanes))
          (show count * grid.lanes ≤ min (count * grid.lanes + grid.lanes) size by omega)
        rw [Nat.sub_zero, Nat.sub_zero] at joined
        rw [Nat.min_eq_left full, upTo]
        exact joined.symm
      · have empty : min grid.lanes (size - count * grid.lanes) = 0 := by omega
        rw [empty, List.range'_zero, List.append_nil]
        congr 1
        omega

theorem flatMap_window_eq_range {lanes : Nat} (positive : 0 < lanes) (size : Nat) :
    (List.range (Grid.covering size lanes).groups).flatMap
        (fun id => (⟨id, Grid.covering size lanes⟩ : Group).window size) =
      List.range size := by
  rw [flatMap_window]
  congr 1
  apply Nat.min_eq_right
  exact Size.le_roundUp size positive

end Group

namespace Program.Performs

theorem transfer {program : Program α} {memory other : Memory}
    {readable : Region → Prop} {writes : List Write} {value : α}
    (h : program.Performs memory readable writes value) (shape : memory.SameShape other)
    (agree : ∀ region, readable region → memory.load region = other.load region) :
    program.Performs other readable writes value := by
  obtain ⟨sameLoads, sameStores, sameResult⟩ := program.replay shape
    fun region member => agree region (h.loads region member)
  refine ⟨?_, ?_, ?_⟩
  · rw [sameResult, h.result]
  · rw [sameStores, h.stores]
  · rw [sameLoads]
    exact h.loads

end Program.Performs

namespace Launch

variable {kernel : Kernel} {grid : Grid} {memory : Memory}
  {readable : Nat → Region → Prop} {writes : Nat → List Write}

/-- No group may read where another one writes. -/
def ReadsApart (readable : Nat → Region → Prop) (writes : Nat → List Write) : Prop :=
  ∀ reader writer, reader ≠ writer → ∀ region, readable reader region →
    ∀ write ∈ writes writer, region.Disjoint write.region

theorem ReadsApart.performs_after (apart : ReadsApart readable writes) {finished : List Nat}
    {id : Nat} (absent : id ∉ finished)
    (performs : (kernel.run ⟨id, grid⟩).Performs memory (readable id) (writes id) ()) :
    (kernel.run ⟨id, grid⟩).Performs (memory.storeAll (finished.flatMap writes))
      (readable id) (writes id) () := by
  refine performs.transfer (Memory.sameShape_storeAll memory _) ?_
  intro region reads
  refine (Memory.load_storeAll_of_disjoint ?_).symm
  intro write written
  obtain ⟨earlier, member, written⟩ := List.mem_flatMap.mp written
  refine apart id earlier ?_ region reads write written
  rintro rfl
  exact absent member

theorem runGroups_append_of_none {first : List Nat} {middle : Memory}
    (completes : runGroups kernel grid first memory = (none, middle)) (second : List Nat) :
    runGroups kernel grid (first ++ second) memory = runGroups kernel grid second middle := by
  induction first generalizing memory with
  | nil =>
      cases completes
      rfl
  | cons id rest ih =>
      rw [runGroups] at completes
      rw [List.cons_append, runGroups]
      cases found : (kernel.run ⟨id, grid⟩).run memory with
      | mk result next =>
          rw [found] at completes
          cases result with
          | ok _ => exact ih completes
          | error _ => cases completes

private theorem runGroups_after (apart : ReadsApart readable writes)
    (finished order : List Nat) (distinct : (finished ++ order).Nodup)
    (performs : ∀ id ∈ order,
      (kernel.run ⟨id, grid⟩).Performs memory (readable id) (writes id) ()) :
    runGroups kernel grid order (memory.storeAll (finished.flatMap writes)) =
      (none, memory.storeAll ((finished ++ order).flatMap writes)) := by
  induction order generalizing finished with
  | nil => rw [runGroups, List.append_nil]
  | cons id rest ih =>
      have absent : id ∉ finished := fun member =>
        (List.nodup_append.mp distinct).2.2 id member id List.mem_cons_self rfl
      have here := apart.performs_after absent (performs id List.mem_cons_self)
      have later := ih (finished ++ [id])
        (by rwa [List.append_assoc, List.singleton_append])
        (fun other member => performs other (List.mem_cons_of_mem _ member))
      rw [List.flatMap_append, List.flatMap_singleton, Memory.storeAll_append,
        List.append_assoc, List.singleton_append] at later
      rw [runGroups, here.run]
      exact later

/-- Groups that do not disturb each other make the stores that each makes alone. -/
theorem runGroups_of_readsApart (apart : ReadsApart readable writes) {order : List Nat}
    (distinct : order.Nodup)
    (performs : ∀ id ∈ order,
      (kernel.run ⟨id, grid⟩).Performs memory (readable id) (writes id) ()) :
    runGroups kernel grid order memory =
      (none, memory.storeAll (order.flatMap writes)) :=
  runGroups_after apart [] order distinct performs

end Launch

end GridSort
