import GridSort.Predicate

namespace GridSort

/-! Binary searches on a run. A run that is sorted under the predicate passes each
test on a first part and fails it on the rest; the search finds the border. On any
other run it still ends, at a place where the answers change. -/

def probe (run : Array α) (test : α → Except Fault Bool) (index : Nat) :
    Except Fault Bool :=
  match run[index]? with
  | none => .error (.indexOutOfBounds index run.size)
  | some element => test element

/-- Halves the window of `size` elements at `base` until one element is left. Its
first element passes the test, unless it is the first of the run. -/
def narrow (run : Array α) (test : α → Except Fault Bool) (base size : Nat) :
    Except Fault Nat :=
  if 1 < size then
    match probe run test (base + size / 2) with
    | .error fault => .error fault
    | .ok true => narrow run test (base + size / 2) (size - size / 2)
    | .ok false => narrow run test base (size - size / 2)
  else
    .ok base
termination_by size
decreasing_by all_goals omega

/-- How many elements lie before the border of the test. -/
def border (run : Array α) (test : α → Except Fault Bool) : Except Fault Nat :=
  if run.isEmpty then
    .ok 0
  else do
    let last ← narrow run test 0 run.size
    if ← probe run test last then
      .ok (last + 1)
    else
      .ok last

/-- Counts the elements of a sorted run that come strictly before the key. -/
def countBefore (less : Predicate α) (run : Array α) (key : α) : Except Fault Nat :=
  border run fun element => less element key

/-- Counts the elements of a sorted run that do not come after the key. -/
def countNotAfter (less : Predicate α) (run : Array α) (key : α) : Except Fault Nat :=
  border run fun element => (less key element).map not

theorem probe_of_lt {run : Array α} {index : Nat} (inside : index < run.size)
    (test : α → Except Fault Bool) : probe run test index = test run[index] := by
  simp [probe, inside]

@[simp] theorem border_empty (test : α → Except Fault Bool) :
    border #[] test = .ok 0 := rfl

end GridSort
