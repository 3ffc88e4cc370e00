import GridSort.Failure

namespace GridSort

/-! Device memory: allocations of bytes, numbered in the order they were made.
Numbers are not given twice, so a handle stays meaningful for good. -/

structure Address where
  allocation : Nat
  offset : Nat
  deriving DecidableEq, Repr

structure Region extends Address where
  length : Nat
  deriving DecidableEq, Repr

/-- Replaces the bytes from `offset` on; what would fall outside is dropped. -/
def overwrite (block : Array UInt8) (offset : Nat) : List UInt8 → Array UInt8
  | [] => block
  | byte :: rest => overwrite (block.setIfInBounds offset byte) (offset + 1) rest

@[simp] theorem size_overwrite (block : Array UInt8) (offset : Nat)
    (bytes : List UInt8) : (overwrite block offset bytes).size = block.size := by
  induction bytes generalizing block offset with
  | nil => rfl
  | cons byte rest ih => simp [overwrite, ih]

theorem getElem?_overwrite (block : Array UInt8) (offset : Nat)
    (bytes : List UInt8) (index : Nat) :
    (overwrite block offset bytes)[index]? =
      if index < block.size ∧ offset ≤ index ∧ index < offset + bytes.length then
        bytes[index - offset]?
      else block[index]? := by
  induction bytes generalizing block offset with
  | nil =>
      rw [overwrite, if_neg]
      simp only [List.length_nil]
      omega
  | cons byte rest ih =>
      rw [overwrite, ih, Array.size_setIfInBounds, List.length_cons]
      by_cases head : index = offset
      · subst head
        rw [if_neg (by omega), Array.getElem?_setIfInBounds_self]
        by_cases inside : index < block.size
        · rw [if_pos inside, if_pos ⟨inside, by omega, by omega⟩]
          simp
        · rw [if_neg inside, if_neg (fun h => inside h.1),
            Array.getElem?_eq_none (by omega)]
      · rw [Array.getElem?_setIfInBounds_ne (fun h => head h.symm)]
        by_cases tail : index < block.size ∧ offset + 1 ≤ index ∧
            index < offset + 1 + rest.length
        · rw [if_pos tail, if_pos (by omega)]
          have later : index - offset = (index - (offset + 1)) + 1 := by omega
          rw [later, List.getElem?_cons_succ]
        · rw [if_neg tail, if_neg (by omega)]

structure Memory where
  allocations : Array (Array UInt8)

namespace Memory

def empty : Memory := ⟨#[]⟩

/-- Base alignment of every allocation. -/
def alignment : Nat := 256

/-- The largest request that can be served at all: rounded up to the alignment it
stays below half of the address range. -/
def capacity : Nat := Nat.pow 2 63 - alignment

def byteAt (memory : Memory) (address : Address) : UInt8 :=
  (memory.allocations.getD address.allocation #[]).getD address.offset 0

def load (memory : Memory) (source : Region) : List UInt8 :=
  (List.range source.length).map fun index =>
    memory.byteAt ⟨source.allocation, source.offset + index⟩

def store (memory : Memory) (target : Address) (bytes : List UInt8) : Memory :=
  ⟨memory.allocations.modify target.allocation fun block =>
    overwrite block target.offset bytes⟩

/-- A new allocation of zeros, if the allocator has that many bytes to give. -/
def allocate (granted : Nat → Bool) (memory : Memory) (bytes : Nat) :
    Except Failure (Nat × Memory) :=
  if bytes ≤ capacity ∧ granted bytes then
    .ok (memory.allocations.size,
      ⟨memory.allocations.push (Array.replicate bytes 0)⟩)
  else
    .error (.outOfMemory bytes)

@[simp] theorem length_load (memory : Memory) (source : Region) :
    (memory.load source).length = source.length := by
  simp [load]

@[simp] theorem store_nil (memory : Memory) (target : Address) :
    memory.store target [] = memory := by
  cases memory
  simp only [store, overwrite, mk.injEq]
  apply Array.ext
  · simp
  · intro index _ _
    simp [Array.getElem_modify]

@[simp] theorem size_store (memory : Memory) (target : Address) (bytes : List UInt8) :
    (memory.store target bytes).allocations.size = memory.allocations.size := by
  simp [store]

end Memory

end GridSort
