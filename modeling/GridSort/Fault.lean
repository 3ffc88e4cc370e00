namespace GridSort

/-! Causes that stop a group of lanes, or a computation on the calling thread. -/

inductive Arithmetic
  | add
  | subtract
  | multiply
  deriving DecidableEq, Repr

namespace Arithmetic

def verb : Arithmetic → String
  | .add => "add"
  | .subtract => "subtract"
  | .multiply => "multiply"

end Arithmetic

inductive Fault
  | overflow (operation : Arithmetic)
  | divisionByZero
  | indexOutOfBounds (index length : Nat)
  | emptyRange
  | readOutOfBounds (index length : Nat)
  | writeOutOfBounds (index length : Nat)
  | raised (message : String)
  | unexplained
  deriving DecidableEq, Repr

namespace Fault

def message : Fault → String
  | .overflow operation =>
      let verb := operation.verb
      s!"attempt to {verb} with overflow"
  | .divisionByZero => "attempt to divide by zero"
  | .indexOutOfBounds index length =>
      s!"index out of bounds: the len is {length} but the index is {index}"
  | .emptyRange => "cannot sample empty range"
  | .readOutOfBounds index length =>
      s!"device read out of bounds: index {index}, len {length}"
  | .writeOutOfBounds index length =>
      s!"device write out of bounds: index {index}, len {length}"
  | .raised message => message
  | .unexplained => "unknown fault"

end Fault

end GridSort
