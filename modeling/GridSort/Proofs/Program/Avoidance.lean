import GridSort.Kernel.Probe
import GridSort.Proofs.Program.Footprint
import GridSort.Stream

namespace GridSort

/-! Programs that keep away from a region. A store to the region can be made before or after
them: they do the same, and what is in memory in the end is the same. -/

namespace Program

/-- Whatever memory holds, the program neither loads nor stores a byte of the region. -/
def Avoids (region : Region) : Program α → Prop
  | .done _ => True
  | .fail _ => True
  | .load source next => source.Disjoint region ∧ ∀ bytes, (next bytes).Avoids region
  | .store target bytes next =>
      Region.Disjoint ⟨target, bytes.length⟩ region ∧ next.Avoids region

variable {region : Region}

theorem Avoids.bind {program : Program α} {next : α → Program β} (first : program.Avoids region)
    (second : ∀ value, (next value).Avoids region) : (program >>= next).Avoids region := by
  change (program.bind next).Avoids region
  induction program with
  | done value => exact second value
  | fail fault => trivial
  | load source rest ih => exact ⟨first.1, fun bytes => ih bytes (first.2 bytes)⟩
  | store target bytes rest ih => exact ⟨first.1, ih first.2⟩

theorem avoids_ofExcept (result : Except Fault α) : (ofExcept result).Avoids region := by
  cases result with
  | ok value => trivial
  | error fault => trivial

theorem Avoids.run_store {program : Program α} {write : Write}
    (avoids : program.Avoids write.region) (memory : Memory) :
    program.run (memory.store write.target write.bytes) =
      ((program.run memory).1, (program.run memory).2.store write.target write.bytes) := by
  induction program generalizing memory with
  | done value => rfl
  | fail fault => rfl
  | load source next ih =>
      have found : (memory.store write.target write.bytes).load source = memory.load source :=
        Memory.load_store_of_disjoint avoids.1
      rw [run, run, found]
      exact ih _ (avoids.2 _) memory
  | store target bytes next ih =>
      have apart : (⟨target, bytes⟩ : Write).region.Disjoint write.region := avoids.1
      have swapped := Memory.store_comm memory apart
      rw [run, run, ← swapped]
      exact ih avoids.2 _

end Program

namespace Slice

variable {type : ElementType} {slice : Slice type} {index : Nat} {region : Region}

theorem avoids_write (apart : slice.extent.Disjoint region) (index : Nat)
    (element : Element type) : (slice.write index element).Avoids region := by
  unfold write
  split
  · refine ⟨?_, trivial⟩
    rw [Element.length_encode]
    exact apart.mono (region_within ‹_›) (.refl _)
  · trivial

end Slice

/-- No group of the launch loads or stores a byte of the region. -/
def Launch.Avoids (launch : Launch) (region : Region) : Prop :=
  ∀ id, (launch.kernel.run ⟨id, launch.grid⟩).Avoids region

namespace Launch

variable {launch : Launch} {write : Write}

theorem Avoids.runGroups_store (avoids : launch.Avoids write.region) (order : List Nat)
    (memory : Memory) :
    runGroups launch.kernel launch.grid order (memory.store write.target write.bytes) =
      ((runGroups launch.kernel launch.grid order memory).1,
        (runGroups launch.kernel launch.grid order memory).2.store write.target write.bytes) := by
  induction order generalizing memory with
  | nil => rfl
  | cons id rest ih =>
      rw [runGroups, runGroups, (avoids id).run_store memory]
      cases (launch.kernel.run ⟨id, launch.grid⟩).run memory with
      | mk result after =>
          cases result with
          | ok _ => exact ih after
          | error fault => rfl

theorem Avoids.run_store (avoids : launch.Avoids write.region) (memory : Memory) :
    (launch.run (memory.store write.target write.bytes)).2 =
      (launch.run memory).2.store write.target write.bytes :=
  congrArg Prod.snd (avoids.runGroups_store (launch.order launch.grid.groups) memory)

theorem sameShape_run (launch : Launch) (memory : Memory) :
    memory.SameShape (launch.run memory).2 := by
  unfold run
  generalize launch.order launch.grid.groups = order
  induction order generalizing memory with
  | nil => exact fun _ => rfl
  | cons id rest ih =>
      have first := Memory.sameShape_storeAll memory
        ((launch.kernel.run ⟨id, launch.grid⟩).stores memory)
      rw [← Program.memory_run] at first
      rw [runGroups]
      cases found : (launch.kernel.run ⟨id, launch.grid⟩).run memory with
      | mk result after =>
          rw [found] at first
          cases result with
          | ok _ => exact first.trans (ih after)
          | error fault => exact first

end Launch

namespace Kernel

variable {type : ElementType} {slice : Slice type} {region : Region}

theorem avoids_fillLanes (apart : slice.extent.Disjoint region) (element : Element type)
    (limit : Option Nat) (offset count lane : Nat) :
    (fillLanes slice element limit offset count lane).Avoids region := by
  induction count generalizing lane with
  | zero => trivial
  | succ count ih =>
      refine (Program.avoids_ofExcept _).bind fun index => ?_
      split
      · exact (Slice.avoids_write apart index element).bind fun _ => ih (lane + 1)
      · trivial

theorem avoids_fill (apart : slice.extent.Disjoint region) (element : Element type)
    (limit : Option Nat) (grid : Grid) (order : Nat → List Nat) :
    Launch.Avoids ⟨fill slice element limit, grid, order⟩ region := fun _ =>
  (Program.avoids_ofExcept _).bind fun offset => avoids_fillLanes apart element limit offset _ 0

end Kernel

end GridSort
