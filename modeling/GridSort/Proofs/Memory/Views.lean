import Mathlib.Algebra.BigOperators.Group.Finset.Basic
import Mathlib.Algebra.BigOperators.Ring.Finset
import GridSort.Proofs.Memory.Writes

namespace GridSort

/-! Slices of one buffer share its bytes. What is written through one of them is read through all
the others, as elements of their own types, and only where bytes are shared. -/

namespace Bytes

/-- The least significant byte comes first: each byte counts 256 times the one before. -/
theorem toNat_eq_sum (bytes : List UInt8) :
    toNat bytes =
      ∑ place ∈ Finset.range bytes.length, (bytes.getD place 0).toNat * 256 ^ place := by
  induction bytes with
  | nil => rfl
  | cons byte rest ih =>
      rw [toNat, ih, List.length_cons, Finset.sum_range_succ', Finset.mul_sum, Nat.add_comm]
      congr 1
      · refine Finset.sum_congr rfl fun place _ => ?_
        rw [List.getD_cons_succ, Nat.pow_succ']
        exact Nat.mul_left_comm _ _ _
      · rw [List.getD_cons_zero, Nat.pow_zero, Nat.mul_one]

theorem getD_ofNat {length place : Nat} (value : Nat) (inside : place < length) :
    (ofNat length value).getD place 0 = UInt8.ofNat (value / 256 ^ place) := by
  induction length generalizing value place with
  | zero => exact absurd inside (Nat.not_lt_zero place)
  | succ length ih =>
      cases place with
      | zero =>
          rw [ofNat, List.getD_cons_zero, Nat.pow_zero, Nat.div_one]
          exact UInt8.ofNat_mod_size
      | succ place =>
          rw [ofNat, List.getD_cons_succ, ih _ (Nat.lt_of_succ_lt_succ inside),
            Nat.div_div_eq_div_mul, Nat.pow_succ']

end Bytes

namespace Slice

variable {type : ElementType} {slice : Slice type} {memory : Memory} {index : Nat}

theorem toNat_get (slice : Slice type) (memory : Memory) (index : Nat) :
    (slice.get memory index).toNat = ∑ place ∈ Finset.range type.size,
      (memory.byteAt ⟨slice.allocation, (slice.address index).offset + place⟩).toNat *
        256 ^ place := by
  have length : (memory.load (slice.region index)).length = type.size := by
    rw [Memory.length_load]
    rfl
  have small := Bytes.toNat_lt (memory.load (slice.region index))
  rw [length] at small
  rw [get, Element.decode, BitVec.toNat_ofNat, Nat.mod_eq_of_lt small, Bytes.toNat_eq_sum, length]
  refine Finset.sum_congr rfl fun place member => ?_
  have inside := Finset.mem_range.mp member
  congr 2
  rw [List.getD_eq_getElem?_getD, List.getElem?_eq_getElem (by rwa [length]), Option.getD_some]
  simp [Memory.load, region, address]

/-- A store puts the bytes of the element into its region, and changes no others. -/
theorem byteAt_store_element (contains : memory.Contains (slice.region index))
    (element : Element type) (address : Address) :
    (memory.store (slice.address index) element.encode).byteAt address =
      if (slice.region index).Holds address then
        UInt8.ofNat (element.toNat / 256 ^ (address.offset - (slice.address index).offset))
      else memory.byteAt address := by
  rw [Memory.byteAt_store, Element.length_encode]
  by_cases holds : (slice.region index).Holds address
  · obtain ⟨same, low, high⟩ := holds
    have bound : address.offset < memory.sizeOf address.allocation := by
      rw [← same]
      exact Nat.lt_of_lt_of_le high contains
    rw [if_pos ⟨same.symm, bound, low, high⟩, if_pos ⟨same, low, high⟩]
    exact Bytes.getD_ofNat _ (Nat.sub_lt_left_of_lt_add low high)
  · rw [if_neg holds, if_neg fun inside => holds ⟨inside.1.symm, inside.2.2⟩]

end Slice

namespace Buffer

/-- The slices that a buffer hands out: all of it, a range of its elements, and views of its
bytes. -/
inductive Gives : {type sliceType : ElementType} → Buffer type → Slice sliceType → Prop
  | whole {type : ElementType} (buffer : Buffer type) : Gives buffer buffer.slice
  | part {type : ElementType} {buffer : Buffer type} {start stop : Nat} {slice : Slice type}
      (granted : buffer.part start stop = .ok slice) : Gives buffer slice
  | view {type : ElementType} {buffer : Buffer .byte} {offset length : Nat} {slice : Slice type}
      (granted : buffer.view type offset length = .ok slice) : Gives buffer slice

section Checks

variable {buffer : Buffer .byte} {type : ElementType} {offset length : Nat} {slice : Slice type}

/-- A view is checked for words that are too short, for its length and for its alignment, in this
order. The address of the allocation is aligned for every type. -/
theorem view_eq_checks {base : Nat} (aligned : Memory.alignment ∣ base) :
    buffer.view type offset length =
      if Size.largest < length * type.size + offset then .error (.invalidValue .viewOverflow)
      else if buffer.length < length * type.size + offset then
        .error (.invalidValue (.viewTooLong (length * type.size + offset) buffer.length))
      else if (base + offset) % type.alignment ≠ 0 then
        .error (.invalidValue (.misaligned offset type.alignment))
      else .ok ⟨buffer.allocation, offset, length⟩ := by
  have absorbed : (base + offset) % type.alignment = offset % type.alignment := by
    obtain ⟨count, rfl⟩ := type.alignment_dvd_256.trans aligned
    exact Nat.mul_add_mod _ _ _
  rw [absorbed, view]
  by_cases small : length * type.size + offset ≤ Size.largest
  · have bytes : Size.fit? (length * type.size) = some (length * type.size) :=
      Size.fit?_eq_some_iff.mpr ⟨rfl, (Nat.le_add_right _ _).trans small⟩
    have needed : Size.fit? (length * type.size + offset) = some (length * type.size + offset) :=
      Size.fit?_eq_some_iff.mpr ⟨rfl, small⟩
    rw [bytes, Option.bind_some, needed, if_neg (Nat.not_lt.mpr small)]
    by_cases enough : length * type.size + offset ≤ buffer.length
    · simp [enough, Nat.not_lt.mpr enough]
    · simp [enough, Nat.lt_of_not_le enough]
  · have overflows : ((Size.fit? (length * type.size)).bind fun bytes =>
        Size.fit? (bytes + offset)) = none := by
      simpa [Size.fit?] using fun _ => Nat.lt_of_not_le small
    rw [overflows, if_pos (Nat.lt_of_not_le small)]

theorem view_eq_ok_iff : buffer.view type offset length = .ok slice ↔
    (length * type.size + offset ≤ Size.largest ∧
      length * type.size + offset ≤ buffer.length ∧ type.alignment ∣ offset) ∧
      slice = ⟨buffer.allocation, offset, length⟩ := by
  rw [view_eq_checks (Nat.dvd_zero _), Nat.zero_add, Nat.dvd_iff_mod_eq_zero, ← Nat.not_lt,
    ← Nat.not_lt]
  split_ifs <;> simp_all [eq_comm]

end Checks

section Parts

variable {type : ElementType} {buffer : Buffer type} {start stop index : Nat} {slice : Slice type}

theorem part_eq_ok_iff : buffer.part start stop = .ok slice ↔
    (start ≤ stop ∧ stop ≤ buffer.length) ∧
      slice = ⟨buffer.allocation, start * type.size, stop - start⟩ := by
  unfold part
  split_ifs <;> simp_all [eq_comm]

theorem region_part (granted : buffer.part start stop = .ok slice) :
    slice.region index = buffer.slice.region (start + index) := by
  obtain ⟨-, rfl⟩ := part_eq_ok_iff.mp granted
  simp only [Slice.region, Slice.address, Buffer.slice, Nat.add_mul, Nat.zero_add]

theorem add_lt_of_part (granted : buffer.part start stop = .ok slice)
    (inside : index < slice.length) : start + index < buffer.slice.length := by
  obtain ⟨⟨ordered, fits⟩, rfl⟩ := part_eq_ok_iff.mp granted
  exact Nat.lt_of_lt_of_le (Nat.add_lt_of_lt_sub' inside) fits

/-- A range of a buffer is the buffer itself, counted from the start of the range. -/
theorem read_part (granted : buffer.part start stop = .ok slice) (inside : index < slice.length) :
    slice.read index = buffer.slice.read (start + index) := by
  rw [Slice.read, Slice.read, if_pos inside, if_pos (add_lt_of_part granted inside),
    region_part granted]

theorem write_part (granted : buffer.part start stop = .ok slice) (inside : index < slice.length)
    (element : Element type) :
    slice.write index element = buffer.slice.write (start + index) element := by
  have address : slice.address index = buffer.slice.address (start + index) :=
    congrArg Region.toAddress (region_part granted)
  rw [Slice.write, Slice.write, if_pos inside, if_pos (add_lt_of_part granted inside), address]

end Parts

section Shared

variable {own type : ElementType} {buffer : Buffer own} {memory : Memory} {slice : Slice type}
  {index : Nat}

theorem Gives.within (given : buffer.Gives slice) : slice.extent.Within buffer.slice.extent := by
  cases given with
  | whole => exact .refl _
  | @part _ _ start stop _ granted =>
      obtain ⟨⟨ordered, inside⟩, rfl⟩ := part_eq_ok_iff.mp granted
      refine ⟨rfl, Nat.zero_le _, ?_⟩
      change start * own.size + (stop - start) * own.size ≤ 0 + buffer.length * own.size
      rw [← Nat.add_mul, Nat.add_sub_cancel' ordered, Nat.zero_add]
      exact Nat.mul_le_mul_right _ inside
  | view granted =>
      obtain ⟨⟨-, inside, -⟩, rfl⟩ := view_eq_ok_iff.mp granted
      refine ⟨rfl, Nat.zero_le _, ?_⟩
      change _ + _ * type.size ≤ 0 + _ * 1
      rw [Nat.add_comm, Nat.mul_one, Nat.zero_add]
      exact inside

theorem Gives.contains_region (given : buffer.Gives slice)
    (held : memory.Contains buffer.slice.extent) (inside : index < slice.length) :
    memory.Contains (slice.region index) :=
  Slice.contains_region (held.within given.within) inside

/-- What a write through one slice of a buffer leaves for reads through it and through another
one: each byte of the element at its place, all other bytes as they were. -/
theorem Gives.run_write (given : buffer.Gives slice) (held : memory.Contains buffer.slice.extent)
    (inside : index < slice.length) (element : Element type) :
    ∃ after, (slice.write index element).run memory = (.ok (), after) ∧
      (slice.read index).run after = (.ok element, after) ∧
      (∀ address, after.byteAt address =
        if (slice.region index).Holds address then
          UInt8.ofNat (element.toNat / 256 ^ (address.offset - (slice.address index).offset))
        else memory.byteAt address) ∧
      ∀ {otherType : ElementType} (second : Slice otherType) (otherIndex : Nat),
        (second.region otherIndex).Disjoint (slice.region index) →
          second.get after otherIndex = second.get memory otherIndex := by
  have contains := given.contains_region held inside
  refine ⟨_, Slice.run_write inside element memory, ?_, Slice.byteAt_store_element contains element,
    fun second otherIndex apart => Slice.get_store_of_disjoint element apart⟩
  rw [Slice.run_read inside, Slice.get_store_self contains]

end Shared

/-- The slices of a buffer share its bytes. Views and ranges are granted exactly if they fit, and
otherwise the first check that fails is named. After a write through one slice, a read through it
gives the element back, a read through any other one decodes the bytes as they are then, and
nothing else has changed. An index beyond a slice is a fault, which changes nothing. -/
theorem slices_share_bytes {own : ElementType} (buffer : Buffer own) (memory : Memory)
    (held : memory.Contains buffer.slice.extent) {base : Nat} (aligned : Memory.alignment ∣ base) :
    (∀ (bytes : Buffer .byte) (type : ElementType) (offset length : Nat),
      (bytes.view type offset length =
        if Size.largest < length * type.size + offset then .error (.invalidValue .viewOverflow)
        else if bytes.length < length * type.size + offset then
          .error (.invalidValue (.viewTooLong (length * type.size + offset) bytes.length))
        else if (base + offset) % type.alignment ≠ 0 then
          .error (.invalidValue (.misaligned offset type.alignment))
        else .ok ⟨bytes.allocation, offset, length⟩) ∧
      ((∃ slice, bytes.view type offset length = .ok slice) ↔
        length * type.size + offset ≤ Size.largest ∧
          length * type.size + offset ≤ bytes.length ∧ type.alignment ∣ offset)) ∧
    (∀ start stop,
      ((∃ slice, buffer.part start stop = .ok slice) ↔ start ≤ stop ∧ stop ≤ buffer.length) ∧
      ∀ slice, buffer.part start stop = .ok slice → slice.length = stop - start ∧
        ∀ index < slice.length, slice.read index = buffer.slice.read (start + index) ∧
          ∀ element, slice.write index element = buffer.slice.write (start + index) element) ∧
    ∀ {type otherType : ElementType} (first : Slice type) (second : Slice otherType),
      buffer.Gives first → buffer.Gives second → ∀ (index : Nat) (element : Element type),
        (index < first.length → ∃ after,
          (first.write index element).run memory = (.ok (), after) ∧
          (first.read index).run after = (.ok element, after) ∧
          (∀ address, after.byteAt address =
            if (first.region index).Holds address then
              UInt8.ofNat (element.toNat / 256 ^ (address.offset - (first.address index).offset))
            else memory.byteAt address) ∧
          ∀ otherIndex < second.length, ∃ found,
            (second.read otherIndex).run after = (.ok found, after) ∧
            (found.toNat = ∑ place ∈ Finset.range otherType.size,
              (after.byteAt ⟨second.allocation,
                (second.address otherIndex).offset + place⟩).toNat * 256 ^ place) ∧
            ((∀ address, (second.region otherIndex).Holds address →
                ¬(first.region index).Holds address) →
              (second.read otherIndex).run memory = (.ok found, memory))) ∧
        (first.length ≤ index → ∀ state : Memory,
          (first.read index).run state = (.error (.readOutOfBounds index first.length), state) ∧
          (first.write index element).run state =
            (.error (.writeOutOfBounds index first.length), state)) := by
  refine ⟨fun bytes type offset length => ⟨view_eq_checks aligned, ?_⟩,
    fun start stop => ⟨?_, fun slice granted => ⟨?_, fun index inside =>
      ⟨read_part granted inside, write_part granted inside⟩⟩⟩,
    fun first second firstGiven secondGiven index element => ⟨fun inside => ?_,
      fun outside state => ⟨Slice.run_read_outside outside state,
        Slice.run_write_outside outside element state⟩⟩⟩
  · simp only [view_eq_ok_iff, exists_and_left, exists_eq, and_true]
  · simp only [part_eq_ok_iff, exists_and_left, exists_eq, and_true]
  · obtain ⟨-, rfl⟩ := part_eq_ok_iff.mp granted
    rfl
  · obtain ⟨after, written, reads, bytes, others⟩ := firstGiven.run_write held inside element
    refine ⟨after, written, reads, bytes, fun otherIndex otherInside =>
      ⟨_, Slice.run_read otherInside after, Slice.toNat_get second after otherIndex,
        fun apart => ?_⟩⟩
    rw [others second otherIndex (Region.disjoint_iff.mpr apart)]
    exact Slice.run_read otherInside memory

/-! Eight bytes, seen as one number at their end and as three words around it. -/

namespace SmallViews

def bytes : Buffer .byte := ⟨0, 8⟩

def memory : Memory := ⟨#[#[1, 1, 1, 1, 1, 1, 1, 1]]⟩

def number : Slice (.float .single) := ⟨0, 4, 1⟩

def words : Slice (.unsigned .w16) := ⟨0, 2, 3⟩

theorem gives_number : bytes.Gives number :=
  .view (view_eq_ok_iff.mpr (by decide : (1 * 4 + 4 ≤ Size.largest ∧ 1 * 4 + 4 ≤ bytes.length ∧
    4 ∣ 4) ∧ number = ⟨bytes.allocation, 4, 1⟩))

theorem gives_words : bytes.Gives words :=
  .view (view_eq_ok_iff.mpr (by decide : (3 * 2 + 2 ≤ Size.largest ∧ 3 * 2 + 2 ≤ bytes.length ∧
    2 ∣ 2) ∧ words = ⟨bytes.allocation, 2, 3⟩))

end SmallViews

/-- A pattern that is no number is written over the last two of the three words, which hold its
halves then. The first word is as it was. -/
theorem slices_share_bytes_small : ∃ after : Memory,
    (SmallViews.number.write 0 0x7fc00001).run SmallViews.memory = (.ok (), after) ∧
    (SmallViews.number.read 0).run after = (.ok 0x7fc00001, after) ∧
    (SmallViews.words.read 0).run after = (.ok 0x0101, after) ∧
    (SmallViews.words.read 2).run after = (.ok 0x7fc0, after) := by
  obtain ⟨-, -, share⟩ := slices_share_bytes SmallViews.bytes SmallViews.memory (by decide)
    (Nat.dvd_zero Memory.alignment)
  obtain ⟨after, written, reads, bytes, others⟩ :=
    (share _ _ SmallViews.gives_number SmallViews.gives_words 0 0x7fc00001).1 (by decide)
  obtain ⟨low, readsLow, -, same⟩ := others 0 (by decide)
  obtain ⟨high, readsHigh, decoded, -⟩ := others 2 (by decide)
  have lowKept : low = 0x0101 := by
    have apart : (SmallViews.words.region 0).Disjoint (SmallViews.number.region 0) := by decide
    have kept := same (Region.disjoint_iff.mp apart)
    rw [Slice.run_read (by decide)] at kept
    cases kept
    decide
  have highChanged : high = 0x7fc0 := by
    have twoBytes : (ElementType.unsigned .w16).size = 2 := rfl
    apply BitVec.eq_of_toNat_eq
    rw [decoded]
    simp only [twoBytes, Finset.sum_range_succ, Finset.sum_range_zero, bytes]
    decide
  rw [lowKept] at readsLow
  rw [highChanged] at readsHigh
  exact ⟨after, written, reads, readsLow, readsHigh⟩

end Buffer

end GridSort
