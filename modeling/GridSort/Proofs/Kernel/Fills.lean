import GridSort.Proofs.Kernel.Groups
import GridSort.Proofs.Pairs.Contents

namespace GridSort

/-! Launches that fill a place with pairs, each group its own window of it. -/

variable {keyType valueType : ElementType}

namespace Pairs

/-- No byte of one place is a byte of the other. -/
structure Apart (source target : Pairs keyType valueType) : Prop where
  keysKeys : source.keys.extent.Disjoint target.keys.extent
  keysValues : source.keys.extent.Disjoint target.values.extent
  valuesKeys : source.values.extent.Disjoint target.keys.extent
  valuesValues : source.values.extent.Disjoint target.values.extent

variable {source target : Pairs keyType valueType}

theorem Apart.symm (h : source.Apart target) : target.Apart source :=
  ⟨h.keysKeys.symm, h.valuesKeys.symm, h.keysValues.symm, h.valuesValues.symm⟩

theorem Apart.regions (h : source.Apart target) {size first second : Nat}
    (sourceRoom : source.HasRoom size) (targetRoom : target.HasRoom size)
    (hfirst : first < size) (hsecond : second < size) {region other : Region}
    (member : region ∈ source.regions first) (otherMember : other ∈ target.regions second) :
    region.Disjoint other := by
  have sourceKeys := Nat.lt_of_lt_of_le hfirst sourceRoom.1
  have targetKeys := Nat.lt_of_lt_of_le hsecond targetRoom.1
  rcases mem_regions.mp member with rfl | ⟨stored, rfl⟩ <;>
    rcases mem_regions.mp otherMember with rfl | ⟨otherStored, rfl⟩
  · exact Slice.region_disjoint_of_extent h.keysKeys sourceKeys targetKeys
  · exact Slice.region_disjoint_of_extent h.keysValues sourceKeys
      (Nat.lt_of_lt_of_le hsecond (targetRoom.2 otherStored))
  · exact Slice.region_disjoint_of_extent h.valuesKeys
      (Nat.lt_of_lt_of_le hfirst (sourceRoom.2 stored)) targetKeys
  · exact Slice.region_disjoint_of_extent h.valuesValues
      (Nat.lt_of_lt_of_le hfirst (sourceRoom.2 stored))
      (Nat.lt_of_lt_of_le hsecond (targetRoom.2 otherStored))

theorem Apart.get_storeAll_fill (h : source.Apart target) {size index : Nat}
    (sourceRoom : source.HasRoom size) (targetRoom : target.HasRoom size)
    (inside : index < size) {positions : List Nat}
    (positionsInside : ∀ position ∈ positions, position < size)
    (content : Nat → Element keyType × Element valueType) (memory : Memory) :
    source.get (memory.storeAll (target.fill positions content)) index =
      source.get memory index := by
  rw [← get_toSource, Source.get_storeAll, get_toSource]
  intro region member write written
  obtain ⟨position, hposition, otherMember⟩ := exists_of_mem_fill written
  exact h.regions sourceRoom targetRoom inside (positionsInside position hposition) member
    otherMember

theorem Apart.get_storeAll_writes (h : source.Apart target) {size index position : Nat}
    (sourceRoom : source.HasRoom size) (targetRoom : target.HasRoom size)
    (inside : index < size) (positionInside : position < size)
    (pair : Element keyType × Element valueType) (memory : Memory) :
    source.get (memory.storeAll (target.writes position pair)) index =
      source.get memory index := by
  have kept := h.get_storeAll_fill sourceRoom targetRoom inside
    (List.forall_mem_singleton.mpr positionInside) (fun _ => pair) memory
  rwa [Pairs.fill, List.flatMap_singleton] at kept

end Pairs

namespace Kernel

/-- Each group fills its window, and reads nothing that another group fills. -/
structure Fills (kernel : Kernel) (grid : Grid) (memory : Memory)
    (target : Pairs keyType valueType) (size : Nat) (readable : Nat → Region → Prop)
    (content : Nat → Element keyType × Element valueType) : Prop where
  performs : ∀ id, id < grid.groups →
    (kernel.run ⟨id, grid⟩).Performs memory (readable id)
      (target.fill ((⟨id, grid⟩ : Group).window size) content) ()
  apart : ∀ reader writer, reader ≠ writer → ∀ region, readable reader region →
    ∀ index ∈ (⟨writer, grid⟩ : Group).window size, ∀ other ∈ target.regions index,
      region.Disjoint other

variable {kernel : Kernel} {memory : Memory} {target : Pairs keyType valueType}
  {size lanes : Nat} {readable : Nat → Region → Prop}
  {content : Nat → Element keyType × Element valueType}

theorem readsApart_fill {grid : Grid}
    (apart : ∀ reader writer, reader ≠ writer → ∀ region, readable reader region →
      ∀ index ∈ (⟨writer, grid⟩ : Group).window size, ∀ other ∈ target.regions index,
        region.Disjoint other)
    (content : Nat → Element keyType × Element valueType) :
    Launch.ReadsApart readable
      fun id => target.fill ((⟨id, grid⟩ : Group).window size) content := by
  intro reader writer distinct region reads write written
  obtain ⟨index, inside, member⟩ := Pairs.exists_of_mem_fill written
  exact apart reader writer distinct region reads index inside _ member

theorem Fills.readsApart {grid : Grid}
    (h : kernel.Fills grid memory target size readable content) :
    Launch.ReadsApart readable
      fun id => target.fill ((⟨id, grid⟩ : Group).window size) content :=
  readsApart_fill h.apart content

theorem Fills.performs_after {grid : Grid}
    (h : kernel.Fills grid memory target size readable content) {finished : List Nat} {id : Nat}
    (distinct : (id :: finished).Nodup) (present : ∀ other ∈ id :: finished, other < grid.groups) :
    ∃ reached, Launch.runGroups kernel grid finished memory = (none, reached) ∧
      (kernel.run ⟨id, grid⟩).Performs reached (readable id)
        (target.fill ((⟨id, grid⟩ : Group).window size) content) () := by
  obtain ⟨absent, distinctFinished⟩ := List.nodup_cons.mp distinct
  refine ⟨_, Launch.runGroups_of_readsApart h.readsApart distinctFinished fun other member =>
    h.performs other (present other (List.mem_cons_of_mem _ member)), ?_⟩
  exact h.readsApart.performs_after absent (h.performs id (present id List.mem_cons_self))

/-- Whatever the grid, the groups fill the positions that have a lane. -/
theorem Fills.runGroups {grid : Grid}
    (h : kernel.Fills grid memory target size readable content) (room : target.HasRoom size)
    (separate : target.keys.extent.Disjoint target.values.extent) {order : List Nat}
    (complete : order.Perm (List.range grid.groups)) :
    Launch.runGroups kernel grid order memory =
      (none, memory.storeAll
        (target.fill (List.range (min (grid.groups * grid.lanes) size)) content)) := by
  have distinct : order.Nodup := complete.nodup_iff.mpr List.nodup_range
  have stored := Launch.runGroups_of_readsApart h.readsApart distinct fun id member =>
    h.performs id (List.mem_range.mp (complete.mem_iff.mp member))
  have reordered := Memory.storeAll_flatMap_perm memory complete
    (fun id => target.fill ((⟨id, grid⟩ : Group).window size) content) ?_
  · have joined : (List.range grid.groups).flatMap (fun id =>
          target.fill ((⟨id, grid⟩ : Group).window size) content) =
        target.fill (List.range (min (grid.groups * grid.lanes) size)) content := by
      rw [← Group.flatMap_window, Pairs.flatMap_fill]
    rw [stored, reordered, joined]
  · intro first _ second _ different write written other otherWritten
    obtain ⟨index, inside, member⟩ := Pairs.exists_of_mem_fill written
    obtain ⟨otherIndex, otherInside, otherMember⟩ := Pairs.exists_of_mem_fill otherWritten
    refine Pairs.regions_disjoint room separate (Group.lt_of_mem_window inside)
      (Group.lt_of_mem_window otherInside) ?_ member otherMember
    rintro rfl
    exact different ((Group.id_eq_of_mem_window inside).symm.trans
      (Group.id_eq_of_mem_window otherInside))

theorem Fills.runGroups_covering
    (h : kernel.Fills (Grid.covering size lanes) memory target size readable content)
    (positive : 0 < lanes) (room : target.HasRoom size)
    (separate : target.keys.extent.Disjoint target.values.extent) {order : List Nat}
    (complete : order.Perm (List.range (Grid.covering size lanes).groups)) :
    Launch.runGroups kernel (Grid.covering size lanes) order memory =
      (none, memory.storeAll (target.fill (List.range size) content)) := by
  have everywhere : size ≤ (Grid.covering size lanes).groups * (Grid.covering size lanes).lanes :=
    Size.le_roundUp size positive
  rw [h.runGroups room separate complete, Nat.min_eq_right everywhere]

end Kernel

end GridSort
