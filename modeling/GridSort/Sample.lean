import GridSort.Size

namespace GridSort

/-! Sample data for measuring a sort. All choices come from a generator of draws, which
is started from a seed; what holds of a sample holds for every generator. -/

/-- Scrambles a seed. Each step can be undone, so different seeds stay different. -/
def scramble (seed : UInt64) : UInt64 :=
  let seed := (seed ^^^ (seed >>> 30)) * 0xBF58476D1CE4E5B9
  let seed := (seed ^^^ (seed >>> 27)) * 0x94D049BB133111EB
  seed ^^^ (seed >>> 31)

/-- Numbered draws below a bound. Below nothing there is nothing to draw. -/
structure Draws where
  next : (index bound : Nat) → Nat
  next_lt : ∀ index bound, 0 < bound → next index bound < bound

def Draws.below (draws : Draws) (index bound : Nat) : Except Fault Nat :=
  if bound = 0 then .error .emptyRange else .ok (draws.next index bound)

inductive Distribution
  | randomUniform
  | nearlySorted
  | fewUnique
  deriving DecidableEq, Repr

namespace Distribution

def all : List Distribution := [.randomUniform, .nearlySorted, .fewUnique]

def label : Distribution → String
  | .randomUniform => "random_uniform"
  | .nearlySorted => "nearly_sorted_1pct_swaps"
  | .fewUnique => "few_unique"

def ofLabel? (label : String) : Option Distribution :=
  all.find? fun distribution => distribution.label == label

def seed (size : Nat) (salt : UInt64) : UInt64 :=
  scramble (0x5EED2026 ^^^ UInt64.ofNat size ^^^ salt)

/-- One swap per hundred elements, and at least one. -/
def swapCount (size : Nat) : Nat := max (size / 100) 1

def swap (data : Array UInt32) (first second : Nat) : Except Fault (Array UInt32) :=
  if hfirst : first < data.size then
    if hsecond : second < data.size then
      .ok (data.swap first second)
    else
      .error (.indexOutOfBounds second data.size)
  else
    .error (.indexOutOfBounds first data.size)

def swapDrawn (draws : Draws) (size : Nat) (data : Array UInt32) (index : Nat) :
    Except Fault (Array UInt32) := do
  let first ← draws.below (2 * index) size
  let second ← draws.below (2 * index + 1) size
  swap data first second

/-- The numbers from zero on, as many as fit into 32 bits. -/
def ascending (size : Nat) : Array UInt32 :=
  (Array.range (size % Nat.pow 2 32)).map UInt32.ofNat

def sample (draws : Draws) (size : Nat) : Distribution → Except Fault (Array UInt32)
  | .randomUniform =>
      .ok ((Array.range size).map fun index => UInt32.ofNat (draws.next index (Nat.pow 2 32)))
  | .nearlySorted =>
      (List.range (swapCount size)).foldlM (swapDrawn draws size) (ascending size)
  | .fewUnique =>
      .ok ((Array.range size).map fun index => UInt32.ofNat (draws.next index 16) * 17)

/-- A sample by a generator that `seeding` starts. -/
def generate (seeding : UInt64 → Draws) (distribution : Distribution) (size : Nat)
    (salt : UInt64) : Except Fault (Array UInt32) :=
  distribution.sample (seeding (seed size salt)) size

end Distribution

/-! What can be said of a sample. -/

namespace Sample

def isPermutation (data : Array UInt32) : Bool :=
  (data.toList.mergeSort fun first second => first ≤ second)
    == (Distribution.ascending data.size).toList

/-- How many elements are not at the place that their value names. -/
def movedCount (data : Array UInt32) : Nat :=
  (data.zipIdx.filter fun (value, index) => value.toNat != index).size

def isMultiplesOf17 (data : Array UInt32) : Bool :=
  data.all fun value => value % 17 == 0 && value ≤ 255

end Sample

end GridSort
