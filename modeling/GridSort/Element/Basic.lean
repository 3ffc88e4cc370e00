namespace GridSort

/-! Types of the elements that device memory can hold. An element is its bit
pattern: every pattern is a value, and moving an element keeps every bit. -/

/-- Widths are also alignments. Numbers have up to 128 bits; the wider widths are those
of blocks that ask for more alignment. -/
inductive Width
  | w8
  | w16
  | w32
  | w64
  | w128
  | w256
  | w512
  | w1024
  | w2048
  deriving DecidableEq, Repr

namespace Width

def bytes : Width → Nat
  | .w8 => 1
  | .w16 => 2
  | .w32 => 4
  | .w64 => 8
  | .w128 => 16
  | .w256 => 32
  | .w512 => 64
  | .w1024 => 128
  | .w2048 => 256

def bits (width : Width) : Nat := 8 * width.bytes

theorem bytes_pos (width : Width) : 0 < width.bytes := by
  cases width <;> decide

theorem bytes_dvd_256 (width : Width) : width.bytes ∣ 256 := by
  cases width <;> decide

end Width

inductive FloatFormat
  | single
  | double
  deriving DecidableEq, Repr

namespace FloatFormat

def width : FloatFormat → Width
  | .single => .w32
  | .double => .w64

/-- Bits of the fraction, below exponent and sign. -/
def fractionBits : FloatFormat → Nat
  | .single => 23
  | .double => 52

end FloatFormat

inductive ElementType
  | unsigned (width : Width)
  | signed (width : Width)
  | float (format : FloatFormat)
  | tuple (width : Width) (count : Nat)
  deriving DecidableEq, Repr

namespace ElementType

/-- The byte, of which scratch memory consists. -/
abbrev byte : ElementType := .unsigned .w8

/-- The type without content: its one element takes no room. -/
abbrev nothing : ElementType := .tuple .w8 0

def component : ElementType → Width
  | .unsigned width => width
  | .signed width => width
  | .float format => format.width
  | .tuple width _ => width

def size : ElementType → Nat
  | .unsigned width => width.bytes
  | .signed width => width.bytes
  | .float format => format.width.bytes
  | .tuple width count => count * width.bytes

def alignment (type : ElementType) : Nat := type.component.bytes

/-- Whether elements of the type take any room in memory. -/
def isStored (type : ElementType) : Bool := type.size != 0

@[simp] theorem size_byte : byte.size = 1 := rfl

@[simp] theorem size_nothing : nothing.size = 0 := rfl

theorem alignment_pos (type : ElementType) : 0 < type.alignment :=
  type.component.bytes_pos

theorem alignment_dvd_256 (type : ElementType) : type.alignment ∣ 256 :=
  type.component.bytes_dvd_256

theorem alignment_dvd_size (type : ElementType) : type.alignment ∣ type.size := by
  cases type with
  | unsigned width => exact Nat.dvd_refl _
  | signed width => exact Nat.dvd_refl _
  | float format => exact Nat.dvd_refl _
  | tuple width count => exact Nat.dvd_mul_left _ _

theorem isStored_eq_false_iff (type : ElementType) :
    type.isStored = false ↔ type.size = 0 := by
  simp [isStored]

end ElementType

abbrev Element (type : ElementType) := BitVec (8 * type.size)

theorem Element.eq_of_not_isStored {type : ElementType}
    (unstored : type.isStored = false) (first second : Element type) :
    first = second := by
  have empty : type.size = 0 := type.isStored_eq_false_iff.mp unstored
  apply BitVec.eq_of_toNat_eq
  have firstBound := first.isLt
  have secondBound := second.isLt
  simp only [empty, Nat.mul_zero, Nat.pow_zero] at firstBound secondBound
  omega

end GridSort
