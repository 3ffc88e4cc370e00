import GridSort.Merge.Count
import GridSort.Size

namespace GridSort

/-! Sorting a tile in rounds. In a round each lane finds where its element goes
when the two sorted runs around it are merged, and puts it there. -/

/-- Where `tile[index]` lands when the sorted runs of `width` elements are merged
pair by pair. An element of the left run goes before its equals in the right run. -/
def landing (less : Predicate α) (tile : Array α) (index width : Nat) :
    Except Fault Nat := do
  let pairWidth ← Size.mul 2 width
  let pair ← Size.div index pairWidth
  let base := pair * pairWidth
  let mid := min (← Size.add base width) tile.size
  let stop := min (← Size.add base pairWidth) tile.size
  match tile[index]? with
  | none => .error (.indexOutOfBounds index tile.size)
  | some key =>
      if index < mid then do
        let passed ← countBefore less (tile.extract mid stop) key
        Size.add index passed
      else do
        let own ← Size.add base (index - mid)
        let passed ← countNotAfter less (tile.extract base mid) key
        Size.add own passed

def place (target : Array α) (rank : Nat) (element : α) : Except Fault (Array α) :=
  if h : rank < target.size then
    .ok (target.set rank element h)
  else
    .error (.indexOutOfBounds rank target.size)

def scatter (less : Predicate α) (tile : Array α) (width : Nat) (target : Array α)
    (lane : Nat) : Except Fault (Array α) := do
  let rank ← landing less tile lane width
  match tile[lane]? with
  | none => .error (.indexOutOfBounds lane tile.size)
  | some element => place target rank element

/-- The elements of a tile, and the space that the next round fills. A slot that no
lane of a round writes keeps what was in it two rounds before. -/
structure Tile (α : Type) where
  current : Array α
  spare : Array α

namespace Tile

def round (less : Predicate α) (tile : Tile α) (width : Nat) : Except Fault (Tile α) := do
  let filled ← (List.range tile.current.size).foldlM
    (scatter less tile.current width) tile.spare
  .ok ⟨filled, tile.current⟩

def sort (less : Predicate α) (elements : Array α) : Except Fault (Array α) := do
  let tile ← (Size.doublings 1 elements.size).foldlM (round less) ⟨elements, elements⟩
  .ok tile.current

end Tile

theorem size_place {target placed : Array α} {rank : Nat} {element : α}
    (h : place target rank element = .ok placed) : placed.size = target.size := by
  unfold place at h
  split at h
  · cases h
    exact Array.size_set _
  · cases h

end GridSort
