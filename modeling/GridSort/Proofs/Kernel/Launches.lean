import GridSort.Proofs.Host.Waiting
import GridSort.Proofs.Kernel.Fills
import GridSort.Proofs.Program.Conduct

namespace GridSort

/-! Single launches, on any grid, that fill the positions that have a lane. -/

variable {keyType valueType : ElementType}

namespace Pairs

/-- Only pairs at positions below the count have changed. -/
structure ChangedBelow (target : Pairs keyType valueType) (count : Nat)
    (before after : Memory) : Prop where
  keys : ∀ position, count ≤ position → position < target.keys.length →
    target.keys.get after position = target.keys.get before position
  values : ∀ position, count ≤ position → position < target.values.length →
    target.values.get after position = target.values.get before position
  elsewhere : before.UnchangedOutside (fun region =>
    ∃ position, position < count ∧ region ∈ target.regions position) after

theorem changedBelow_storeAll_fill {target : Pairs keyType valueType} {count : Nat}
    (room : target.HasRoom count) (separate : target.keys.extent.Disjoint target.values.extent)
    (content : Nat → Element keyType × Element valueType) (memory : Memory) :
    target.ChangedBelow count memory
      (memory.storeAll (target.fill (List.range count) content)) := by
  have elsewhere : memory.UnchangedOutside (fun region =>
      ∃ position, position < count ∧ region ∈ target.regions position)
      (memory.storeAll (target.fill (List.range count) content)) := by
    intro region apart
    apply Memory.load_storeAll_of_disjoint
    intro write written
    obtain ⟨position, inside, member⟩ := exists_of_mem_fill written
    exact apart _ ⟨position, List.mem_range.mp inside, member⟩
  refine ⟨fun position beyond inside => ?_, fun position beyond inside => ?_, elsewhere⟩
  · apply Slice.get_eq_of_load
    apply elsewhere
    rintro region ⟨filled, below, member⟩
    rcases mem_regions.mp member with rfl | ⟨stored, rfl⟩
    · exact Slice.region_disjoint (by omega)
    · exact Slice.region_disjoint_of_extent separate inside
        (Nat.lt_of_lt_of_le below (room.2 stored))
  · apply Slice.get_eq_of_load
    apply elsewhere
    rintro region ⟨filled, below, member⟩
    rcases mem_regions.mp member with rfl | ⟨stored, rfl⟩
    · exact Slice.region_disjoint_of_extent separate.symm inside
        (Nat.lt_of_lt_of_le below room.1)
    · exact Slice.region_disjoint (by omega)

end Pairs

/-- A launch that fills a place completes and does no more than that. -/
theorem Kernel.Fills.exists_leadsTo {kernel : Kernel} {grid : Grid} {memory : Memory}
    {target : Pairs keyType valueType} {size : Nat} {readable : Nat → Region → Prop}
    {content : Nat → Element keyType × Element valueType}
    (fills : kernel.Fills grid memory target size readable content)
    (room : target.HasRoom size) (held : target.SoundIn memory) (valid : grid.isValid = true)
    (answers : kernel.answersWorker = true) :
    ∃ final, kernel.LeadsTo grid memory final ∧
      (∀ position, position < min (grid.groups * grid.lanes) size →
        target.get final position = content position) ∧
      target.ChangedBelow (min (grid.groups * grid.lanes) size) memory final := by
  have fewer : min (grid.groups * grid.lanes) size ≤ size := Nat.min_le_right _ _
  have enough : target.HasRoom (min (grid.groups * grid.lanes) size) :=
    ⟨Nat.le_trans fewer room.1, fun stored => Nat.le_trans fewer (room.2 stored)⟩
  refine ⟨_, Kernel.leadsTo valid answers fun order complete =>
    fills.runGroups room held.apart complete, fun position inside => ?_,
    Pairs.changedBelow_storeAll_fill enough held.apart content memory⟩
  exact Pairs.get_storeAll_fill enough held List.nodup_range
    (fun _ member => List.mem_range.mp member) content (List.mem_range.mpr inside)

end GridSort
