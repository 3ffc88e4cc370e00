import GridSort.Proofs.Sort.Passes

namespace GridSort

/-! Calls on as many elements as memory can hold. -/

section Origins

variable {test : Nat → Nat → Bool} {size lanes : Nat} (fits : Grid.Fits size lanes)
  (trans : TransitiveBelow test size)
include fits trans

theorem perm_sortedFrom :
    ((List.range size).map (sortedFrom test size lanes)).Perm (List.range size) := by
  obtain ⟨width, positive, wide, arranged⟩ := arranged_sortedFrom fits trans
  have perm := arranged.perm_block positive 0
  rwa [block_zero wide] at perm

theorem pairwise_sortedFrom :
    ((List.range size).map (sortedFrom test size lanes)).Pairwise (Precedes test) := by
  obtain ⟨width, positive, wide, arranged⟩ := arranged_sortedFrom fits trans
  have pairwise := arranged.pairwise_block positive 0
  rwa [block_zero wide] at pairwise

end Origins

namespace SortRequest

variable {keyType valueType : ElementType} {request : SortRequest keyType valueType}
  {storage : Buffer .byte} {memory : Memory}

/-- A call that is accepted: its block size is one that a device has, and it is given what it
sorts and enough scratch memory. -/
structure Ready (request : SortRequest keyType valueType) (storage : Buffer .byte)
    (memory : Memory) : Prop extends request.Located storage memory where
  bounded : memory.Bounded
  word : request.size ≤ Size.largest
  positive : 1 ≤ request.blockSize
  few : request.blockSize ≤ Grid.maxLanes
  enough : ∃ layout, request.layout = .ok layout ∧
    layout.keyBytes + request.size * valueType.size ≤ storage.length

/-- The pairs that the call is given. -/
def given (request : SortRequest keyType valueType) (memory : Memory) :
    List (Element keyType × Element valueType) :=
  (List.range request.size).map (request.source.get memory)

theorem length_given (request : SortRequest keyType valueType) (memory : Memory) :
    (request.given memory).length = request.size := by
  rw [given, List.length_map, List.length_range]

theorem heldBelow_of_mem_given {pair : Element keyType × Element valueType}
    (member : pair ∈ request.given memory) :
    HeldBelow (request.source.get memory) request.size pair := by
  obtain ⟨position, listed, held⟩ := List.mem_map.mp member
  exact ⟨position, List.mem_range.mp listed, held⟩

theorem Admits.ready (admits : request.Admits storage memory) (bounded : memory.Bounded) :
    request.Ready storage memory :=
  { admits with
    bounded
    word := admits.fits.size_le
    positive := admits.fits.positive
    few := admits.fits.lanes_le }

namespace Ready

variable (ready : request.Ready storage memory)
include ready

theorem fits (small : request.size < 2 ^ 63) : Grid.Fits request.size request.blockSize :=
  ⟨small, ready.positive, ready.few⟩

theorem admits (small : request.size < 2 ^ 63) : request.Admits storage memory :=
  { ready with fits := ready.fits small }

theorem small_of_stored (stored : keyType.isStored = true ∨ valueType.isStored = true) :
    request.size < 2 ^ 63 := by
  rcases stored with keys | values
  · exact (ready.small_or_unstored ready.bounded).resolve_right fun unstored =>
      Bool.noConfusion (keys.symm.trans unstored.1)
  · exact (ready.small_or_unstored ready.bounded).resolve_right fun unstored =>
      Bool.noConfusion (values.symm.trans unstored.2)

/-- Pairs of elements that take no room are all the same. -/
theorem small_or_eq : request.size < 2 ^ 63 ∨
    ∀ pair other : Element keyType × Element valueType, pair = other := by
  rcases ready.small_or_unstored ready.bounded with small | ⟨keys, values⟩
  · exact Or.inl small
  · exact Or.inr fun _ _ => Prod.ext (Element.eq_of_not_isStored keys _ _)
      (Element.eq_of_not_isStored values _ _)

theorem exists_accepted (nonempty : request.size ≠ 0) :
    ∃ layout, request.Accepted storage layout (request.scratchIn storage layout) := by
  obtain ⟨layout, found, enough⟩ := ready.enough
  exact ⟨layout, nonempty, found, accept_eq_ok found ready.positive ready.room enough⟩

end Ready

end SortRequest

theorem SmallCall.ready : SmallCall.request.Ready SmallCall.storage SmallCall.memory :=
  SmallCall.admits.ready SmallCall.bounded

end GridSort
