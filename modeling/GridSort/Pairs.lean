import GridSort.Input

namespace GridSort

/-! Keys and the values that go with them. Values of a type that takes no room are
neither read nor written. -/

variable {keyType valueType : ElementType}

/-- Where pairs are stored. -/
structure Pairs (keyType valueType : ElementType) where
  keys : Slice keyType
  values : Slice valueType
  deriving DecidableEq, Repr

namespace Pairs

def write (pairs : Pairs keyType valueType) (index : Nat)
    (pair : Element keyType × Element valueType) : Program Unit := do
  pairs.keys.write index pair.1
  if valueType.isStored then
    pairs.values.write index pair.2

/-- Copies one pair: its key first, then its value. -/
def move (source target : Pairs keyType valueType) (origin destination : Nat) :
    Program Unit := do
  let key ← source.keys.read origin
  target.keys.write destination key
  if valueType.isStored then
    let value ← source.values.read origin
    target.values.write destination value

end Pairs

/-- Where the input pairs of a sort come from. -/
structure Source (keyType valueType : ElementType) where
  keys : Input keyType
  values : Input valueType
  deriving DecidableEq, Repr

namespace Source

def read (source : Source keyType valueType) (index : Nat) :
    Program (Element keyType × Element valueType) := do
  let key ← source.keys.read index
  if valueType.isStored then
    let value ← source.values.read index
    pure (key, value)
  else
    pure (key, 0)

end Source

end GridSort
