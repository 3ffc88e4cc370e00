import GridSort.Failure
import GridSort.Element.Basic
import GridSort.Size

namespace GridSort

/-! How a sort divides its scratch memory: a region for the keys, then one for the
values. Each region is padded, so that the next one is aligned for every type. -/

structure Layout where
  keyBytes : Nat
  valueBytes : Nat
  deriving DecidableEq, Repr

namespace Layout

def alignment : Nat := 256

/-- What a sort asks for when it needs no scratch: an allocation of no bytes is
never requested. -/
def emptyRequest : Nat := 4

def padded? (bytes : Nat) : Option Nat := Size.fit? (Size.roundUp bytes alignment)

def regionBytes? (type : ElementType) (size : Nat) : Option Nat :=
  (Size.fit? (size * type.size)).bind padded?

def ofSize? (keyType valueType : ElementType) (size : Nat) : Option Layout := do
  let keyBytes ← regionBytes? keyType size
  let valueBytes ← regionBytes? valueType size
  let _ ← Size.fit? (keyBytes + valueBytes)
  pure ⟨keyBytes, valueBytes⟩

def ofSize (keyType valueType : ElementType) (size : Nat) :
    Except Failure Layout :=
  match ofSize? keyType valueType size with
  | some layout => .ok layout
  | none => .error (.invalidValue (.scratchOverflow size))

def total (layout : Layout) : Nat := layout.keyBytes + layout.valueBytes

def bytesNeeded (layout : Layout) : Nat :=
  if layout.total = 0 then emptyRequest else layout.total

theorem bytesNeeded_pos (layout : Layout) : 0 < layout.bytesNeeded := by
  unfold bytesNeeded
  split
  · decide
  · omega

theorem total_le_bytesNeeded (layout : Layout) : layout.total ≤ layout.bytesNeeded := by
  unfold bytesNeeded
  split <;> omega

end Layout

end GridSort
