import GridSort.Kernel.Basic
import GridSort.Memory.Buffer

namespace GridSort.Kernel

/-! Small kernels that show what a stream does with a launch. -/

variable {type : ElementType}

def fillLanes (slice : Slice type) (element : Element type) (limit : Option Nat)
    (offset : Nat) : (count lane : Nat) → Program Unit
  | 0, _ => pure ()
  | count + 1, lane => do
      let index ← Size.add offset lane
      if limit.all (index < ·) then
        slice.write index element
        fillLanes slice element limit offset count (lane + 1)

/-- Every lane writes the element at its own position; a group stops at the limit. -/
def fill (slice : Slice type) (element : Element type) (limit : Option Nat) : Kernel :=
  { name := "fill"
    run := fun group => do
      let offset ← Size.mul group.id group.lanes
      fillLanes slice element limit offset group.lanes 0 }

/-- Every group writes what it knows of itself: its number, its block size, how many
groups there are, and how many lanes it has. -/
def describe (slice : Slice (.unsigned .w64)) : Kernel :=
  { name := "describe"
    run := fun group => do
      let base ← Size.mul 4 group.id
      let facts := [group.id, group.lanes, group.grid.groups, group.lanes]
      facts.zipIdx.forM fun (fact, place) => do
        slice.write (← Size.add base place) (BitVec.ofNat _ fact) }

/-- Does nothing, except that one group faults. -/
def faulting (name : String) (id : Nat) (fault : Fault) : Kernel :=
  faultingIn { name, run := fun _ => pure () } id fault

/-- Does nothing, and gives the worker no name. -/
def mute : Kernel :=
  { name := "mute", answersWorker := false, run := fun _ => pure () }

end GridSort.Kernel
