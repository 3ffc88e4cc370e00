namespace GridSort

/-! A launch runs a kernel once per group of its grid, and each group has the
same number of lanes. -/

structure Grid where
  groups : Nat
  lanes : Nat
  deriving DecidableEq, Repr

namespace Grid

/-- The largest group that a device accepts. -/
def maxLanes : Nat := 1024

def isValid (grid : Grid) : Bool :=
  1 ≤ grid.groups && 1 ≤ grid.lanes && grid.lanes ≤ maxLanes

theorem isValid_iff (grid : Grid) :
    grid.isValid = true ↔
      1 ≤ grid.groups ∧ 1 ≤ grid.lanes ∧ grid.lanes ≤ maxLanes := by
  simp [isValid, and_assoc]

end Grid

structure Group where
  id : Nat
  grid : Grid
  deriving DecidableEq, Repr

namespace Group

def lanes (group : Group) : Nat := group.grid.lanes

end Group

end GridSort
