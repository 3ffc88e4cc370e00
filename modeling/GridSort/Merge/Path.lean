import GridSort.Memory.Buffer
import GridSort.Predicate

namespace GridSort

/-! Where the first `diagonal` outputs of a stable merge of two runs come from. The
split is found by a search over the left run, before anything is merged. -/

structure Span where
  start : Nat
  stop : Nat
  deriving DecidableEq, Repr

namespace Span

def length (span : Span) : Nat := span.stop - span.start

end Span

/-- Halves the candidates between `low` and `high`: the answer is the first one
whose test holds. -/
def bisect (test : Nat → Program Bool) (low high : Nat) : Program Nat :=
  if low < high then
    (test (low + (high - low) / 2)).bind fun
      | true => bisect test low (low + (high - low) / 2)
      | false => bisect test (low + (high - low) / 2 + 1) high
  else
    .done low
termination_by high - low
decreasing_by all_goals omega

variable {type : ElementType}

/-- Whether, of the candidates on the diagonal, the right one comes strictly before
the left one. -/
def crosses (less : Predicate (Element type)) (keys : Slice type) (left right : Span)
    (diagonal candidate : Nat) : Program Bool := do
  let leftKey ← keys.read (← Size.add left.start candidate)
  let reach ← Size.add right.start diagonal
  let last ← Size.sub reach 1
  let rightKey ← keys.read (← Size.sub last candidate)
  less rightKey leftKey

/-- How many of the first `diagonal` outputs come from the left run. -/
def mergeSplit (less : Predicate (Element type)) (keys : Slice type) (left right : Span)
    (diagonal : Nat) : Program Nat :=
  bisect (crosses less keys left right diagonal)
    (diagonal - right.length) (min diagonal left.length)

theorem bisect_of_le (test : Nat → Program Bool) {low high : Nat} (h : high ≤ low) :
    bisect test low high = .done low := by
  rw [bisect, if_neg (Nat.not_lt.mpr h)]

end GridSort
