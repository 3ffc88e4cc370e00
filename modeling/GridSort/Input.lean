import GridSort.Memory.Buffer

namespace GridSort

/-! Where a sort reads its input from: device memory, or the numbers from a start
on, which take no memory. Counting wraps around at the width of the type. -/

inductive Input (type : ElementType)
  | slice (source : Slice type)
  | counting (start : Element type)
  deriving DecidableEq, Repr

namespace Input

variable {type : ElementType}

def counted (start : Element type) (index : Nat) : Element type :=
  start + BitVec.ofNat (8 * type.size) index

def read : Input type → Nat → Program (Element type)
  | .slice source, index => source.read index
  | .counting start, index => .done (counted start index)

/-- Whether the input has at least `size` elements. -/
def Covers (input : Input type) (size : Nat) : Prop :=
  match input with
  | .slice source => size ≤ source.length
  | .counting _ => True

def get (input : Input type) (memory : Memory) (index : Nat) : Element type :=
  match input with
  | .slice source => source.get memory index
  | .counting start => counted start index

theorem run_read {input : Input type} {size index : Nat}
    (covers : input.Covers size) (inside : index < size) (memory : Memory) :
    (input.read index).run memory = (.ok (input.get memory index), memory) := by
  cases input with
  | slice source => exact Slice.run_read (Nat.lt_of_lt_of_le inside covers) memory
  | counting start => rfl

end Input

end GridSort
