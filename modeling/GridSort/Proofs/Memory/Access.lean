import GridSort.Memory.Buffer
import GridSort.Proofs.Element.Bytes

namespace GridSort

/-! What a load finds after a store: inside the stored bytes it finds them, and what
lies outside is as it was. The same holds element by element for slices. -/

namespace Region

def Within (inner outer : Region) : Prop :=
  inner.allocation = outer.allocation ∧ outer.offset ≤ inner.offset ∧
    inner.offset + inner.length ≤ outer.offset + outer.length

theorem Within.refl (region : Region) : region.Within region :=
  ⟨rfl, Nat.le_refl _, Nat.le_refl _⟩

theorem Within.trans {inner middle outer : Region} (first : inner.Within middle)
    (second : middle.Within outer) : inner.Within outer :=
  ⟨first.1.trans second.1, Nat.le_trans second.2.1 first.2.1,
    Nat.le_trans first.2.2 second.2.2⟩

/-- The regions have no byte in common; an empty region is disjoint from all. -/
def Disjoint (first second : Region) : Prop :=
  first.length = 0 ∨ second.length = 0 ∨ first.allocation ≠ second.allocation ∨
    first.offset + first.length ≤ second.offset ∨
    second.offset + second.length ≤ first.offset

instance (first second : Region) : Decidable (first.Disjoint second) :=
  inferInstanceAs (Decidable (_ ∨ _))

theorem Disjoint.symm {first second : Region} (h : first.Disjoint second) :
    second.Disjoint first := by
  rcases h with empty | empty | other | before | after
  · exact Or.inr (Or.inl empty)
  · exact Or.inl empty
  · exact Or.inr (Or.inr (Or.inl (Ne.symm other)))
  · exact Or.inr (Or.inr (Or.inr (Or.inr before)))
  · exact Or.inr (Or.inr (Or.inr (Or.inl after)))

theorem Disjoint.mono {first second outerFirst outerSecond : Region}
    (h : outerFirst.Disjoint outerSecond)
    (hfirst : first.Within outerFirst) (hsecond : second.Within outerSecond) :
    first.Disjoint second := by
  obtain ⟨sameFirst, lowFirst, highFirst⟩ := hfirst
  obtain ⟨sameSecond, lowSecond, highSecond⟩ := hsecond
  unfold Disjoint at h ⊢
  rw [sameFirst, sameSecond]
  omega

/-- The address is that of a byte in the region. -/
def Holds (region : Region) (address : Address) : Prop :=
  region.allocation = address.allocation ∧ region.offset ≤ address.offset ∧
    address.offset < region.offset + region.length

instance (region : Region) (address : Address) : Decidable (region.Holds address) :=
  inferInstanceAs (Decidable (_ ∧ _ ∧ _))

theorem Within.holds {inner outer : Region} (within : inner.Within outer) {address : Address}
    (held : inner.Holds address) : outer.Holds address := by
  obtain ⟨same, low, high⟩ := within
  obtain ⟨there, above, below⟩ := held
  exact ⟨same.symm.trans there, by omega, by omega⟩

theorem disjoint_of_not_holds {region : Region} {address : Address}
    (apart : ¬region.Holds address) : (⟨address, 1⟩ : Region).Disjoint region := by
  refine Or.inr (Or.inr ?_)
  by_cases same : region.allocation = address.allocation
  · by_cases above : region.offset ≤ address.offset
    · have beyond : region.offset + region.length ≤ address.offset :=
        Nat.le_of_not_lt fun below => apart ⟨same, above, below⟩
      exact Or.inr (Or.inr beyond)
    · exact Or.inr (Or.inl (Nat.lt_of_not_le above))
  · exact Or.inl (Ne.symm same)

theorem disjoint_iff {first second : Region} :
    first.Disjoint second ↔ ∀ address, first.Holds address → ¬second.Holds address := by
  constructor
  · rintro apart address ⟨sameFirst, lowFirst, highFirst⟩ ⟨sameSecond, lowSecond, highSecond⟩
    have same := sameFirst.trans sameSecond.symm
    rcases apart with empty | empty | other | before | after
    · omega
    · omega
    · exact other same
    · omega
    · omega
  · intro apart
    refine Decidable.byContradiction fun meets => ?_
    unfold Disjoint at meets
    obtain ⟨firstSome, secondSome, same, firstLate, secondLate⟩ :
        first.length ≠ 0 ∧ second.length ≠ 0 ∧ first.allocation = second.allocation ∧
          second.offset < first.offset + first.length ∧
          first.offset < second.offset + second.length := by omega
    exact apart ⟨first.allocation, max first.offset second.offset⟩
      ⟨rfl, Nat.le_max_left _ _, Nat.max_lt.mpr ⟨by omega, firstLate⟩⟩
      ⟨same.symm, Nat.le_max_right _ _, Nat.max_lt.mpr ⟨secondLate, by omega⟩⟩

end Region

namespace Memory

variable {memory : Memory}

def sizeOf (memory : Memory) (allocation : Nat) : Nat :=
  (memory.allocations.getD allocation #[]).size

def Contains (memory : Memory) (region : Region) : Prop :=
  region.offset + region.length ≤ memory.sizeOf region.allocation

instance (memory : Memory) (region : Region) : Decidable (memory.Contains region) :=
  inferInstanceAs (Decidable (_ ≤ _))

theorem Contains.within {inner outer : Region} (h : memory.Contains outer)
    (within : inner.Within outer) : memory.Contains inner := by
  obtain ⟨same, -, high⟩ := within
  rw [Contains, same]
  exact Nat.le_trans high h

theorem getD_store (memory : Memory) (target : Address) (bytes : List UInt8)
    (allocation : Nat) :
    (memory.store target bytes).allocations.getD allocation #[] =
      if allocation = target.allocation then
        overwrite (memory.allocations.getD allocation #[]) target.offset bytes
      else memory.allocations.getD allocation #[] := by
  simp only [store, Array.getD_eq_getD_getElem?, Array.getElem?_modify]
  by_cases same : allocation = target.allocation
  · subst same
    rw [if_pos rfl, if_pos rfl]
    cases memory.allocations[target.allocation]? with
    | none =>
        apply Array.ext
        · simp
        · intro index _ outside
          simp at outside
    | some block => rfl
  · rw [if_neg (Ne.symm same), if_neg same]

@[simp] theorem sizeOf_store (memory : Memory) (target : Address)
    (bytes : List UInt8) (allocation : Nat) :
    (memory.store target bytes).sizeOf allocation = memory.sizeOf allocation := by
  unfold sizeOf
  rw [getD_store]
  split <;> simp

theorem Contains.store {region : Region} (h : memory.Contains region)
    (target : Address) (bytes : List UInt8) :
    (memory.store target bytes).Contains region := by
  unfold Contains
  rw [sizeOf_store]
  exact h

theorem byteAt_store_inside {target : Address} {bytes : List UInt8}
    (h : memory.Contains ⟨target, bytes.length⟩) {index : Nat}
    (inside : index < bytes.length) :
    (memory.store target bytes).byteAt ⟨target.allocation, target.offset + index⟩ =
      bytes[index] := by
  have bound : target.offset + index < (memory.allocations.getD target.allocation #[]).size := by
    change target.offset + bytes.length ≤
      (memory.allocations.getD target.allocation #[]).size at h
    omega
  simp only [byteAt, getD_store, if_true]
  rw [Array.getD_eq_getD_getElem?, getElem?_overwrite,
    if_pos ⟨bound, by omega, by omega⟩, Nat.add_sub_cancel_left,
    List.getElem?_eq_getElem inside, Option.getD_some]

theorem byteAt_store_outside {target : Address} {bytes : List UInt8} {address : Address}
    (outside : address.allocation ≠ target.allocation ∨ address.offset < target.offset ∨
      target.offset + bytes.length ≤ address.offset) :
    (memory.store target bytes).byteAt address = memory.byteAt address := by
  simp only [byteAt, getD_store]
  by_cases same : address.allocation = target.allocation
  · rw [if_pos same, Array.getD_eq_getD_getElem?, getElem?_overwrite, if_neg (by omega),
      ← Array.getD_eq_getD_getElem?]
  · rw [if_neg same]

theorem load_store_self {target : Address} {bytes : List UInt8}
    (h : memory.Contains ⟨target, bytes.length⟩) :
    (memory.store target bytes).load ⟨target, bytes.length⟩ = bytes := by
  apply List.ext_getElem
  · simp
  · intro index _ inside
    simpa [load] using byteAt_store_inside h inside

theorem load_store_of_disjoint {target : Address} {bytes : List UInt8} {source : Region}
    (apart : source.Disjoint ⟨target, bytes.length⟩) :
    (memory.store target bytes).load source = memory.load source := by
  apply List.map_congr_left
  intro index member
  have inside := List.mem_range.mp member
  apply byteAt_store_outside
  change source.length = 0 ∨ bytes.length = 0 ∨ source.allocation ≠ target.allocation ∨
    source.offset + source.length ≤ target.offset ∨
    target.offset + bytes.length ≤ source.offset at apart
  change source.allocation ≠ target.allocation ∨ source.offset + index < target.offset ∨
    target.offset + bytes.length ≤ source.offset + index
  omega

end Memory

namespace Slice

variable {type otherType : ElementType}

def extent (slice : Slice type) : Region :=
  ⟨⟨slice.allocation, slice.offset⟩, slice.length * type.size⟩

theorem region_congr {slice other : Slice type} (allocation : slice.allocation = other.allocation)
    (offset : slice.offset = other.offset) (index : Nat) :
    slice.region index = other.region index := by
  rw [region, region, address, address, allocation, offset]

theorem contains_region {slice : Slice type} {memory : Memory}
    (within : memory.Contains slice.extent) {index : Nat} (inside : index < slice.length) :
    memory.Contains (slice.region index) := by
  have row : (index + 1) * type.size ≤ slice.length * type.size :=
    Nat.mul_le_mul_right _ inside
  rw [Nat.succ_mul] at row
  change slice.offset + index * type.size + type.size ≤ memory.sizeOf slice.allocation
  change slice.offset + slice.length * type.size ≤ memory.sizeOf slice.allocation at within
  omega

theorem region_within {slice : Slice type} {index : Nat} (inside : index < slice.length) :
    (slice.region index).Within slice.extent := by
  have row : (index + 1) * type.size ≤ slice.length * type.size :=
    Nat.mul_le_mul_right _ inside
  rw [Nat.succ_mul] at row
  refine ⟨rfl, Nat.le_add_right _ _, ?_⟩
  change slice.offset + index * type.size + type.size ≤
    slice.offset + slice.length * type.size
  omega

theorem region_disjoint {slice : Slice type} {first second : Nat} (h : first ≠ second) :
    (slice.region first).Disjoint (slice.region second) := by
  refine Or.inr (Or.inr (Or.inr ?_))
  change slice.offset + first * type.size + type.size ≤ slice.offset + second * type.size ∨
    slice.offset + second * type.size + type.size ≤ slice.offset + first * type.size
  rcases Nat.lt_or_gt_of_ne h with lower | upper
  · have row := Nat.mul_le_mul_right type.size (Nat.succ_le_of_lt lower)
    rw [Nat.succ_mul] at row
    omega
  · have row := Nat.mul_le_mul_right type.size (Nat.succ_le_of_lt upper)
    rw [Nat.succ_mul] at row
    omega

theorem region_disjoint_of_extent {slice : Slice type} {other : Slice otherType}
    (apart : slice.extent.Disjoint other.extent) {index otherIndex : Nat}
    (inside : index < slice.length) (otherInside : otherIndex < other.length) :
    (slice.region index).Disjoint (other.region otherIndex) :=
  apart.mono (region_within inside) (region_within otherInside)

theorem get_store_self {slice : Slice type} {memory : Memory} {index : Nat}
    (contains : memory.Contains (slice.region index)) (element : Element type) :
    slice.get (memory.store (slice.address index) element.encode) index = element := by
  have length : element.encode.length = type.size := Element.length_encode element
  have whole : memory.Contains ⟨slice.address index, element.encode.length⟩ := by
    rw [length]
    exact contains
  have stored := Memory.load_store_self whole
  rw [length] at stored
  rw [get, region, stored, Element.decode_encode]

theorem get_store_of_disjoint {slice : Slice type} {memory : Memory} {index : Nat}
    {other : Slice otherType} {otherIndex : Nat} (element : Element otherType)
    (apart : (slice.region index).Disjoint (other.region otherIndex)) :
    slice.get (memory.store (other.address otherIndex) element.encode) index =
      slice.get memory index := by
  rw [get, get, Memory.load_store_of_disjoint]
  rw [Element.length_encode]
  exact apart

end Slice

end GridSort
