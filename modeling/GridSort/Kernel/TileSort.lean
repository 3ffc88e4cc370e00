import GridSort.Kernel.Basic
import GridSort.Merge.Tile
import GridSort.Pairs

namespace GridSort

/-! The first launch of a sort: each group loads one block of the input, sorts it
on its own, and stores it in the same place of the output. -/

structure TileSort (keyType valueType : ElementType) where
  source : Source keyType valueType
  target : Pairs keyType valueType
  size : Nat
  less : Predicate (Element keyType)

namespace TileSort

variable {keyType valueType : ElementType}

def load (sort : TileSort keyType valueType) (offset count : Nat) :
    Program (List (Element keyType × Element valueType)) :=
  (List.range count).mapM fun lane => do
    sort.source.read (← Size.add offset lane)

def store (sort : TileSort keyType valueType) (offset : Nat) :
    Nat → List (Element keyType × Element valueType) → Program Unit
  | _, [] => pure ()
  | lane, pair :: rest => do
      sort.target.write (← Size.add offset lane) pair
      sort.store offset (lane + 1) rest

/-- A group past the end of the input faults; the last one may be short. -/
def program (sort : TileSort keyType valueType) (group : Group) : Program Unit := do
  let offset ← Size.mul group.id group.lanes
  let rest ← Size.sub sort.size offset
  let loaded ← sort.load offset (min group.lanes rest)
  let sorted ← Tile.sort (sort.less.on Prod.fst) loaded.toArray
  sort.store offset 0 sorted.toList

def kernel (sort : TileSort keyType valueType) : Kernel :=
  { name := "block_sort", run := sort.program }

end TileSort

end GridSort
