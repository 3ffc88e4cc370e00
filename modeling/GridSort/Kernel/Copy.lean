import GridSort.Kernel.Basic
import GridSort.Pairs

namespace GridSort

/-! Copies pairs from one place to another, one lane per pair. -/

structure Copy (keyType valueType : ElementType) where
  source : Pairs keyType valueType
  target : Pairs keyType valueType
  size : Nat

namespace Copy

variable {keyType valueType : ElementType}

/-- The lanes from `lane` on, `count` of them, up to the end of the data. -/
def copyLanes (copy : Copy keyType valueType) (offset : Nat) :
    (count lane : Nat) → Program Unit
  | 0, _ => pure ()
  | count + 1, lane => do
      let index ← Size.add offset lane
      if index < copy.size then
        copy.source.move copy.target index index
        copy.copyLanes offset count (lane + 1)

def program (copy : Copy keyType valueType) (group : Group) : Program Unit := do
  let offset ← Size.mul group.id group.lanes
  copy.copyLanes offset group.lanes 0

def kernel (copy : Copy keyType valueType) : Kernel :=
  { name := "block_copy", run := copy.program }

end Copy

end GridSort
