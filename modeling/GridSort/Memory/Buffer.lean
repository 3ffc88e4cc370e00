import GridSort.Element.Bytes
import GridSort.Program
import GridSort.Size

namespace GridSort

/-! Typed handles on device memory. A slice is a run of elements somewhere in an
allocation; a buffer is an allocation that holds elements from its start. -/

structure Slice (type : ElementType) where
  allocation : Nat
  offset : Nat
  length : Nat
  deriving DecidableEq, Repr

namespace Slice

variable {type : ElementType}

/-- A slice for elements that take no room: nothing in memory is behind it. -/
def unbacked (length : Nat) : Slice type := ⟨0, 0, length⟩

def address (slice : Slice type) (index : Nat) : Address :=
  ⟨slice.allocation, slice.offset + index * type.size⟩

def region (slice : Slice type) (index : Nat) : Region :=
  ⟨slice.address index, type.size⟩

def read (slice : Slice type) (index : Nat) : Program (Element type) :=
  if index < slice.length then
    .load (slice.region index) fun bytes => .done (Element.decode bytes)
  else
    .fail (.readOutOfBounds index slice.length)

def write (slice : Slice type) (index : Nat) (element : Element type) : Program Unit :=
  if index < slice.length then
    .store (slice.address index) element.encode (.done ())
  else
    .fail (.writeOutOfBounds index slice.length)

def get (slice : Slice type) (memory : Memory) (index : Nat) : Element type :=
  Element.decode (memory.load (slice.region index))

def contents (slice : Slice type) (memory : Memory) : List (Element type) :=
  (List.range slice.length).map (slice.get memory)

theorem run_read {slice : Slice type} {index : Nat} (inside : index < slice.length)
    (memory : Memory) :
    (slice.read index).run memory = (.ok (slice.get memory index), memory) := by
  rw [read, if_pos inside]
  rfl

theorem run_read_outside {slice : Slice type} {index : Nat}
    (outside : slice.length ≤ index) (memory : Memory) :
    (slice.read index).run memory =
      (.error (.readOutOfBounds index slice.length), memory) := by
  rw [read, if_neg (Nat.not_lt.mpr outside)]
  rfl

theorem run_write {slice : Slice type} {index : Nat} (inside : index < slice.length)
    (element : Element type) (memory : Memory) :
    (slice.write index element).run memory =
      (.ok (), memory.store (slice.address index) element.encode) := by
  rw [write, if_pos inside]
  rfl

theorem run_write_outside {slice : Slice type} {index : Nat}
    (outside : slice.length ≤ index) (element : Element type) (memory : Memory) :
    (slice.write index element).run memory =
      (.error (.writeOutOfBounds index slice.length), memory) := by
  rw [write, if_neg (Nat.not_lt.mpr outside)]
  rfl

@[simp] theorem length_contents (slice : Slice type) (memory : Memory) :
    (slice.contents memory).length = slice.length := by
  simp [contents]

end Slice

structure Buffer (type : ElementType) where
  allocation : Nat
  length : Nat
  deriving DecidableEq, Repr

namespace Buffer

variable {type : ElementType}

def zeroed (granted : Nat → Bool) (type : ElementType) (length : Nat)
    (memory : Memory) : Except Failure (Buffer type × Memory) := do
  match Size.fit? (length * type.size) with
  | none => .error (.outOfMemory Size.largest)
  | some bytes =>
      let (allocation, memory) ← memory.allocate granted bytes
      .ok (⟨allocation, length⟩, memory)

def start (buffer : Buffer type) : Address := ⟨buffer.allocation, 0⟩

/-- Puts the elements at the start of the buffer. -/
def fill (buffer : Buffer type) (elements : List (Element type)) (memory : Memory) :
    Memory :=
  memory.store buffer.start (elements.flatMap Element.encode)

def ofList (granted : Nat → Bool) (elements : List (Element type)) (memory : Memory) :
    Except Failure (Buffer type × Memory) := do
  let (buffer, memory) ← zeroed granted type elements.length memory
  .ok (buffer, buffer.fill elements memory)

/-- A new buffer with the same element everywhere. -/
def filled (granted : Nat → Bool) (element : Element type) (length : Nat)
    (memory : Memory) : Except Failure (Buffer type × Memory) := do
  let (buffer, memory) ← zeroed granted type length memory
  if type.isStored then
    .ok (buffer, buffer.fill (List.replicate length element) memory)
  else
    .ok (buffer, memory)

def slice (buffer : Buffer type) : Slice type := ⟨buffer.allocation, 0, buffer.length⟩

def part (buffer : Buffer type) (start stop : Nat) :
    Except Failure (Slice type) :=
  if start ≤ stop ∧ stop ≤ buffer.length then
    .ok ⟨buffer.allocation, start * type.size, stop - start⟩
  else
    .error (.invalidValue (.rangeOutOfBounds start stop buffer.length))

/-- Elements of another type over the bytes from `offset` on. An allocation starts
aligned for every type whose alignment divides 256, and the types here have no other,
so the offset alone decides the alignment. -/
def view (buffer : Buffer .byte) (type : ElementType) (offset length : Nat) :
    Except Failure (Slice type) :=
  match (Size.fit? (length * type.size)).bind fun bytes => Size.fit? (bytes + offset) with
  | none => .error (.invalidValue .viewOverflow)
  | some needed =>
      if needed ≤ buffer.length then
        if offset % type.alignment = 0 then
          .ok ⟨buffer.allocation, offset, length⟩
        else
          .error (.invalidValue (.misaligned offset type.alignment))
      else
        .error (.invalidValue (.viewTooLong needed buffer.length))

def contents (buffer : Buffer type) (memory : Memory) : List (Element type) :=
  buffer.slice.contents memory

end Buffer

end GridSort
