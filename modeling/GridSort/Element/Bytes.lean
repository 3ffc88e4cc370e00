import GridSort.Element.Basic

namespace GridSort

/-! Elements in memory: the least significant byte comes first. -/

namespace Bytes

def ofNat : Nat → Nat → List UInt8
  | 0, _ => []
  | length + 1, value => UInt8.ofNat (value % 256) :: ofNat length (value / 256)

def toNat : List UInt8 → Nat
  | [] => 0
  | byte :: rest => byte.toNat + 256 * toNat rest

@[simp] theorem length_ofNat (length value : Nat) :
    (ofNat length value).length = length := by
  induction length generalizing value with
  | zero => rfl
  | succ length ih => simp [ofNat, ih]

end Bytes

namespace Element

variable {type : ElementType}

def encode (element : Element type) : List UInt8 :=
  Bytes.ofNat type.size element.toNat

def decode (bytes : List UInt8) : Element type :=
  BitVec.ofNat (8 * type.size) (Bytes.toNat bytes)

@[simp] theorem length_encode (element : Element type) :
    (encode element).length = type.size :=
  Bytes.length_ofNat _ _

end Element

end GridSort
