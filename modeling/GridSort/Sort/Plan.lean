import GridSort.Kernel.Copy
import GridSort.Kernel.RunMerge
import GridSort.Kernel.TileSort

namespace GridSort

/-! The launches of a sort, known before the first one is made: they depend on the
size and the block size alone. Merge passes go back and forth between the output and
the scratch memory; if the last one ends in scratch, a copy brings the result home. -/

/-- The two places that the pairs of a sort are moved between. -/
inductive Side
  | output
  | scratch
  deriving DecidableEq, Repr

def Side.other : Side → Side
  | .output => .scratch
  | .scratch => .output

/-- What is to be sorted, where to, and how. -/
structure SortRequest (keyType valueType : ElementType) where
  source : Source keyType valueType
  target : Pairs keyType valueType
  size : Nat
  less : Predicate (Element keyType)
  blockSize : Nat

structure Stage where
  label : String
  kernel : Kernel

/-- Merge passes, their number, and the side that holds the pairs after them. -/
structure MergePasses where
  stages : List Stage
  count : Nat
  current : Side

structure SortPlan where
  grid : Grid
  tileSort : Stage
  passes : List Stage
  passCount : Nat
  copyBack : Option Stage

namespace SortRequest

variable {keyType valueType : ElementType}

/-- The block size of a sort whose caller names none. -/
def defaultBlockSize : Nat := 256

def pairs (source : Source keyType valueType) (target : Pairs keyType valueType)
    (size : Nat) (less : Predicate (Element keyType)) : SortRequest keyType valueType :=
  ⟨source, target, size, less, defaultBlockSize⟩

/-- Keys alone: the values are of the type that takes no room. -/
def keysOnly (keys : Input keyType) (output : Slice keyType) (size : Nat)
    (less : Predicate (Element keyType)) : SortRequest keyType .nothing :=
  pairs ⟨keys, .slice (.unbacked size)⟩ ⟨output, .unbacked size⟩ size less

def grid (request : SortRequest keyType valueType) : Grid :=
  ⟨Size.ceilDiv request.size request.blockSize, request.blockSize⟩

def place (request : SortRequest keyType valueType) (scratch : Pairs keyType valueType) :
    Side → Pairs keyType valueType
  | .output => request.target
  | .scratch => scratch

def tileSort (request : SortRequest keyType valueType) : Stage :=
  { label := "group_sort"
    kernel := (⟨request.source, request.target, request.size, request.less⟩ :
      TileSort keyType valueType).kernel }

/-- Merges the sorted runs of a width on one side to runs twice as wide on another. -/
def mergeInto (request : SortRequest keyType valueType) (scratch : Pairs keyType valueType)
    (current next : Side) (width : Nat) : Stage :=
  { label := if next = .scratch then "merge_into_scratch" else "merge_into_output"
    kernel := (⟨request.place scratch current, request.place scratch next, request.size,
      width, request.less⟩ : RunMerge keyType valueType).kernel }

/-- The passes that are left when the runs on a side are sorted up to a width. A block
size is positive and a size is a word, so that the guard says no more than that the
width is below the size. -/
def mergePasses (request : SortRequest keyType valueType) (scratch : Pairs keyType valueType)
    (current : Side) (width count : Nat) : MergePasses :=
  if 0 < width ∧ width < min request.size Size.largest then
    let next := current.other
    let rest := request.mergePasses scratch next (Size.double width) (count + 1)
    { rest with stages := request.mergeInto scratch current next width :: rest.stages }
  else
    ⟨[], count, current⟩
termination_by Size.largest - width
decreasing_by
  simp only [Size.double]
  omega

def copyBack (request : SortRequest keyType valueType)
    (scratch : Pairs keyType valueType) : Stage :=
  { label := "copy_back"
    kernel := (⟨scratch, request.target, request.size⟩ : Copy keyType valueType).kernel }

def plan (request : SortRequest keyType valueType) (scratch : Pairs keyType valueType) :
    SortPlan :=
  let merged := request.mergePasses scratch .output request.blockSize 0
  { grid := request.grid
    tileSort := request.tileSort
    passes := merged.stages
    passCount := merged.count
    copyBack := if merged.current = .scratch then some (request.copyBack scratch) else none }

end SortRequest

/-- All launches in order. -/
def SortPlan.stages (plan : SortPlan) : List Stage :=
  plan.tileSort :: plan.passes ++ plan.copyBack.toList

end GridSort
