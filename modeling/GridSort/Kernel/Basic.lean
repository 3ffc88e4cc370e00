import GridSort.Grid
import GridSort.Program

namespace GridSort

/-! A kernel is what every group of a launch runs. A stream asks for its name when
the launch is made, and its worker asks once more before it runs the launch. -/

structure Kernel where
  name : String
  /-- Whether the worker gets an answer. If not, asking is the end of the worker. -/
  answersWorker : Bool := true
  run : Group → Program Unit

namespace Kernel

/-- The same kernel, but the given group faults before it does anything. -/
def faultingIn (kernel : Kernel) (id : Nat) (fault : Fault) : Kernel :=
  { kernel with
    run := fun group => if group.id = id then .fail fault else kernel.run group }

end Kernel

end GridSort
