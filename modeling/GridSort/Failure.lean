import GridSort.Fault
import GridSort.Grid

namespace GridSort

/-! Outcomes of device operations other than success. Each constructor is one
cause; the wording is in `message`. -/

inductive Part
  | keys
  | values
  deriving DecidableEq, Repr

namespace Part

def name : Part → String
  | .keys => "keys"
  | .values => "values"

end Part

inductive InvalidValue
  | scratchOverflow (size : Nat)
  | zeroBlockSize
  | shortOutput (part : Part) (length size : Nat)
  | viewOverflow
  | viewTooLong (needed held : Nat)
  | misaligned (offset alignment : Nat)
  | rangeOutOfBounds (start stop length : Nat)
  | lengthMismatch (given held : Nat)
  deriving DecidableEq, Repr

namespace InvalidValue

def message : InvalidValue → String
  | .scratchOverflow size => s!"scratch size for {size} elements overflows usize"
  | .zeroBlockSize => "block_size must be positive"
  | .shortOutput part length size =>
      let name := part.name
      s!"{name} output holds {length} elements, sort needs {size}"
  | .viewOverflow => "scratch view size overflows"
  | .viewTooLong needed held =>
      s!"scratch view needs {needed} bytes, buffer holds {held}"
  | .misaligned offset alignment => s!"offset {offset} is not aligned to {alignment}"
  | .rangeOutOfBounds start stop length =>
      s!"range {start}..{stop} out of bounds for buffer of {length} elements"
  | .lengthMismatch given held =>
      s!"host slice has {given} elements, buffer has {held}"

end InvalidValue

inductive Failure
  | invalidConfiguration (kernel : String) (grid : Grid)
  | launchFailure (kernel reason : String)
  | kernelFault (kernel : String) (fault : Fault)
  | invalidValue (cause : InvalidValue)
  | outOfMemory (bytes : Nat)
  deriving DecidableEq, Repr

namespace Failure

def message : Failure → String
  | .invalidConfiguration kernel grid =>
      let groups := grid.groups
      let lanes := grid.lanes
      s!"invalid launch configuration for `{kernel}`: grid={groups}, block={lanes}"
  | .launchFailure kernel reason => s!"failed to launch `{kernel}`: {reason}"
  | .kernelFault kernel fault =>
      let cause := fault.message
      s!"kernel `{kernel}` faulted: {cause}"
  | .invalidValue cause =>
      let cause := cause.message
      s!"invalid value: {cause}"
  | .outOfMemory bytes => s!"out of device memory: requested {bytes} bytes"

end Failure

end GridSort
