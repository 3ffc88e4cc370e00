import GridSort.Proofs.Sort.Frame
import GridSort.Proofs.Sort.Stable

namespace GridSort

/-! What is sorted after each launch of a call. A pass doubles the width of the sorted blocks,
and the pairs go back and forth between the output and the scratch memory. Memory is too small
for so many stored elements that an index could leave the word range, and elements that take no
room are all the same. -/

/-- What is in order already is its own stable sort. -/
theorem StableSort.refl {less : Predicate α} {input : List α}
    (ordered : input.Pairwise fun first second => less second first = .ok false) :
    StableSort less input input :=
  ⟨ordered, .refl input, fun _ _ => rfl⟩

theorem Slice.length_le_capacity {type : ElementType} {slice : Slice type} {memory : Memory}
    (stored : type.isStored = true) (held : memory.Contains slice.extent)
    (bounded : memory.Bounded) : slice.length ≤ Memory.capacity := by
  have positive : 0 < type.size := by simpa [ElementType.isStored, Nat.pos_iff_ne_zero] using stored
  calc slice.length ≤ slice.length * type.size := Nat.le_mul_of_pos_right _ positive
    _ ≤ slice.offset + slice.length * type.size := Nat.le_add_left _ _
    _ ≤ memory.sizeOf slice.allocation := held
    _ ≤ Memory.capacity := bounded slice.allocation

namespace SortRequest

variable {keyType valueType : ElementType} {request : SortRequest keyType valueType}
  {scratch : Pairs keyType valueType} {storage : Buffer .byte} {layout : Layout}
  {environment : Environment} {memory : Memory} {width : Nat}

/-- What a call is given holds what it sorts, however much that is, and does not overlap; an
input may be the same slice as its output. -/
structure Located (request : SortRequest keyType valueType) (storage : Buffer .byte)
    (memory : Memory) : Prop where
  covers : request.source.Covers request.size
  room : request.target.HasRoom request.size
  keysHeld : memory.Contains request.target.keys.extent
  valuesHeld : memory.Contains request.target.values.extent
  storageHeld : memory.Contains storage.slice.extent
  outputsApart : request.target.keys.extent.Disjoint request.target.values.extent
  keysApart : request.target.keys.extent.Disjoint storage.slice.extent
  valuesApart : request.target.values.extent.Disjoint storage.slice.extent
  keysBeside : request.source.keys.Beside request.target.keys request.target.values
  valuesBeside : request.source.values.Beside request.target.values request.target.keys

theorem Placed.located (placed : request.Placed storage memory) :
    request.Located storage memory := { placed with }

theorem Located.soundIn (located : request.Located storage memory)
    (accepted : request.Accepted storage layout scratch)
    (fits : Grid.Fits request.size request.blockSize) : request.SoundIn scratch memory := by
  obtain ⟨room, -⟩ := hasRoom_of_accept accepted.hasLayout accepted.hasRoom
  obtain ⟨regions, -⟩ := Layout.ofSize_eq_ok_iff.mp accepted.hasLayout
  have enough : layout.keyBytes + request.size * valueType.size ≤ storage.length := by
    rw [regions]
    exact room.valuesScratch
  have admits : request.Admits storage memory :=
    { located with fits, enough := ⟨layout, accepted.hasLayout, enough⟩ }
  obtain ⟨other, found, admitted, held⟩ := admits.exists_accepted accepted.nonempty
  cases accepted.hasLayout.symm.trans admitted.hasLayout
  cases accepted.hasRoom.symm.trans admitted.hasRoom
  exact held

theorem Located.small_or_unstored (located : request.Located storage memory)
    (bounded : memory.Bounded) :
    request.size < 2 ^ 63 ∨ keyType.isStored = false ∧ valueType.isStored = false := by
  have capacity : Memory.capacity < 2 ^ 63 := by decide
  cases keys : keyType.isStored with
  | true =>
      have length := Slice.length_le_capacity keys located.keysHeld bounded
      have room := located.room.1
      exact Or.inl (by omega)
  | false =>
      cases values : valueType.isStored with
      | true =>
          have length := Slice.length_le_capacity values located.valuesHeld bounded
          have room := located.room.2 values
          exact Or.inl (by omega)
      | false => exact Or.inr ⟨rfl, rfl⟩

section Order

variable (orders : request.less.WeaklyOrders
  (HeldBelow (request.source.keys.get memory) request.size))
include orders

end Order

section Call

variable {first : Nat} {launches : List Launch}
  (accepted : request.Accepted storage layout scratch)
  (located : request.Located storage memory) (few : request.blockSize ≤ Grid.maxLanes)
  (calm : environment.Calm)
  (orders : request.less.WeaklyOrders
    (HeldBelow (request.source.keys.get memory) request.size))
  (made : request.launches environment first scratch = launches)
include accepted located few calm orders made

/-- Where each launch leads, as long as indices are words. -/
theorem Located.runAll_take (small : request.size < 2 ^ 63) :
    request.SoundIn scratch memory ∧
      ∀ count, count ≤ launches.length → Launch.runAll (launches.take count) memory =
        (none, request.memoryBefore scratch (request.source.get memory)
          (request.less.answerAt (request.source.keys.get memory)) memory count) := by
  have held := located.soundIn accepted ⟨small, accepted.positive, few⟩
  refine ⟨held, fun count within => ?_⟩
  subst made
  rw [length_launches] at within
  exact held.runAll_take (fun _ _ hfirst hsecond => answerAt_eq orders hfirst hsecond)
    (fun _ _ => rfl) calm within

variable (bounded : memory.Bounded)
include bounded

end Call

variable {host : Host} {launches : List Launch}

end SortRequest

theorem SmallCall.passCount : SmallCall.request.passCount = 1 := by
  change (Size.doublings 2 3).length = 1
  rw [Size.doublings, if_pos (by decide), Size.doublings_of_le (by decide)]
  rfl

namespace SortRequest

end SortRequest

end GridSort
