import GridSort.Memory.Buffer
import GridSort.Stream

namespace GridSort

/-! Letting go of buffers, slices and streams. An allocation is shared by its handles: buffers,
slices, and the launches in a queue that work on them. It is given back with the last one. -/

namespace Memory

/-- The allocation is given back, and anything may be found there from then on. -/
def release (memory : Memory) (allocation : Nat) (leftover : Array UInt8) : Memory :=
  ⟨memory.allocations.setIfInBounds allocation leftover⟩

theorem load_release_of_ne (memory : Memory) {allocation : Nat} {source : Region}
    (other : source.allocation ≠ allocation) (leftover : Array UInt8) :
    (memory.release allocation leftover).load source = memory.load source := by
  simp [load, byteAt, release, Array.getD_eq_getD_getElem?,
    Array.getElem?_setIfInBounds_ne other.symm]

end Memory

/-- Memory, and for each handle on it the number of its allocation. -/
structure Holdings where
  memory : Memory
  handles : List Nat

namespace Holdings

def drop (leftover : Nat → Array UInt8) (holdings : Holdings) (allocation : Nat) : Holdings :=
  { memory :=
      if allocation ∈ holdings.handles.erase allocation then holdings.memory
      else holdings.memory.release allocation (leftover allocation)
    handles := holdings.handles.erase allocation }

def dropAll (leftover : Nat → Array UInt8) (dropped : List Nat) (holdings : Holdings) : Holdings :=
  dropped.foldl (drop leftover) holdings

variable {leftover : Nat → Array UInt8} {type : ElementType} {slice : Slice type}

theorem handles_dropAll_subset (dropped : List Nat) (holdings : Holdings) :
    (holdings.dropAll leftover dropped).handles ⊆ holdings.handles := by
  induction dropped generalizing holdings with
  | nil => exact List.Subset.refl _
  | cons allocation rest ih =>
      exact List.Subset.trans (ih (holdings.drop leftover allocation)) List.erase_subset

/-- A slice that still has its handle finds its allocation as it was. -/
theorem get_drop {holdings : Holdings} {allocation : Nat}
    (kept : slice.allocation ∈ (holdings.drop leftover allocation).handles) (index : Nat) :
    slice.get (holdings.drop leftover allocation).memory index =
      slice.get holdings.memory index := by
  change slice.allocation ∈ holdings.handles.erase allocation at kept
  unfold drop
  dsimp only
  split
  · rfl
  · have other : slice.allocation ≠ allocation := fun same => ‹allocation ∉ _› (same ▸ kept)
    rw [Slice.get, Slice.get, Memory.load_release_of_ne holdings.memory other]

theorem get_dropAll (dropped : List Nat) {holdings : Holdings}
    (kept : slice.allocation ∈ (holdings.dropAll leftover dropped).handles) (index : Nat) :
    slice.get (holdings.dropAll leftover dropped).memory index =
      slice.get holdings.memory index := by
  induction dropped generalizing holdings with
  | nil => rfl
  | cons allocation rest ih =>
      have first : slice.allocation ∈ (holdings.drop leftover allocation).handles :=
        handles_dropAll_subset rest _ kept
      exact (ih kept).trans (get_drop first index)

end Holdings

/-- The caller lets go of the stream, and waits until its worker has ended: there are no more
launches to come, and the worker takes those in the queue. -/
def Stream.close (stream : Stream) (device : Device) : Device :=
  (stream.drain device).2

end GridSort
