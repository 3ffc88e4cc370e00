import GridSort.Kernel.Basic
import GridSort.Merge.Path
import GridSort.Pairs

namespace GridSort

/-! One merge pass: pairs of adjacent sorted runs become runs of twice the width.
Each group fills one block of the output. It finds where its block begins in the
two runs, and merges head to head from there. -/

structure RunMerge (keyType valueType : ElementType) where
  source : Pairs keyType valueType
  target : Pairs keyType valueType
  size : Nat
  runWidth : Nat
  less : Predicate (Element keyType)

namespace RunMerge

variable {keyType valueType : ElementType}

/-- Whether the next output is the head of the left run: the right run is used up,
or its head does not come strictly before the left one. -/
def leftIsNext (merge : RunMerge keyType valueType) (mid stop left right : Nat) :
    Program Bool :=
  if stop ≤ right then
    pure true
  else if left < mid then do
    let rightKey ← merge.source.keys.read right
    let leftKey ← merge.source.keys.read left
    let rightFirst ← merge.less rightKey leftKey
    pure (!rightFirst)
  else
    pure false

/-- Moves `count` pairs to the output from position `out` on. -/
def mergeHeads (merge : RunMerge keyType valueType) (mid stop : Nat) :
    (count out left right : Nat) → Program Unit
  | 0, _, _, _ => pure ()
  | count + 1, out, left, right => do
      if ← merge.leftIsNext mid stop left right then
        let next ← Size.add left 1
        merge.source.move merge.target left out
        merge.mergeHeads mid stop count (out + 1) next right
      else
        let next ← Size.add right 1
        merge.source.move merge.target right out
        merge.mergeHeads mid stop count (out + 1) left next

/-- Fills the output from `first` to before `last`, which lie in the pair of runs
that starts at `base`. -/
def fillWindow (merge : RunMerge keyType valueType) (base first last : Nat) :
    Program Unit := do
  let mid := min (Size.clampedAdd base merge.runWidth) merge.size
  let stop := min (Size.clampedAdd base (Size.double merge.runWidth)) merge.size
  let diagonal ← Size.sub first base
  let taken ← mergeSplit merge.less merge.source.keys ⟨base, mid⟩ ⟨mid, stop⟩ diagonal
  let left ← Size.add base taken
  let right ← Size.add mid (← Size.sub diagonal taken)
  merge.mergeHeads mid stop (last - first) first left right

/-- Fills the output from `out` to before `stop`, one pair of runs after the other.
Each window holds at least one position, so `fuel` positions take no more windows. -/
def fillBlock (merge : RunMerge keyType valueType) (stop : Nat) :
    (fuel out : Nat) → Program Unit
  | 0, _ => pure ()
  | fuel + 1, out =>
      if out < stop then do
        let pairWidth := Size.double merge.runWidth
        let pair ← Size.div out pairWidth
        let base := pair * pairWidth
        let last := min (Size.clampedAdd base pairWidth) stop
        merge.fillWindow base out last
        merge.fillBlock stop fuel last
      else
        pure ()

def program (merge : RunMerge keyType valueType) (group : Group) : Program Unit := do
  let start ← Size.mul group.id group.lanes
  let stop := min (Size.clampedAdd start group.lanes) merge.size
  merge.fillBlock stop (stop - start) start

def kernel (merge : RunMerge keyType valueType) : Kernel :=
  { name := "block_merge", run := merge.program }

end RunMerge

end GridSort
