import GridSort.Proofs.Memory.Access

namespace GridSort

/-! Sequences of stores. What they leave in memory depends on the order of two
stores only where these meet. -/

structure Write where
  target : Address
  bytes : List UInt8
  deriving DecidableEq, Repr

def Write.region (write : Write) : Region := ⟨write.target, write.bytes.length⟩

namespace Memory

def storeAll (memory : Memory) (writes : List Write) : Memory :=
  writes.foldl (fun memory write => memory.store write.target write.bytes) memory

/-- The same allocations, whatever is in them. -/
def SameShape (first second : Memory) : Prop :=
  ∀ allocation, first.sizeOf allocation = second.sizeOf allocation

variable {memory other : Memory}

theorem ext_of_getD (count : memory.allocations.size = other.allocations.size)
    (blocks : ∀ allocation,
      memory.allocations.getD allocation #[] = other.allocations.getD allocation #[]) :
    memory = other := by
  obtain ⟨first⟩ := memory
  obtain ⟨second⟩ := other
  refine congrArg Memory.mk (Array.ext count ?_)
  intro index hfirst hsecond
  simpa [Array.getD_eq_getD_getElem?, hfirst, hsecond] using blocks index

theorem byteAt_store (memory : Memory) (target : Address) (bytes : List UInt8)
    (address : Address) :
    (memory.store target bytes).byteAt address =
      if address.allocation = target.allocation ∧
          address.offset < memory.sizeOf address.allocation ∧
          target.offset ≤ address.offset ∧
          address.offset < target.offset + bytes.length then
        bytes.getD (address.offset - target.offset) 0
      else memory.byteAt address := by
  simp only [byteAt, getD_store]
  by_cases same : address.allocation = target.allocation
  · rw [if_pos same, Array.getD_eq_getD_getElem?, getElem?_overwrite]
    by_cases inside : address.offset < memory.sizeOf address.allocation ∧
        target.offset ≤ address.offset ∧ address.offset < target.offset + bytes.length
    · have within : address.offset <
            (memory.allocations.getD address.allocation #[]).size ∧
          target.offset ≤ address.offset ∧
          address.offset < target.offset + bytes.length := inside
      rw [if_pos within, if_pos ⟨same, inside⟩, List.getD_eq_getElem?_getD]
    · have beyond : ¬(address.offset <
            (memory.allocations.getD address.allocation #[]).size ∧
          target.offset ≤ address.offset ∧
          address.offset < target.offset + bytes.length) := inside
      rw [if_neg beyond, if_neg (fun h => inside h.2), ← Array.getD_eq_getD_getElem?]
  · rw [if_neg same, if_neg (fun h => same h.1)]

theorem load_eq_load_iff {source : Region} :
    memory.load source = other.load source ↔
      ∀ index, index < source.length →
        memory.byteAt ⟨source.allocation, source.offset + index⟩ =
          other.byteAt ⟨source.allocation, source.offset + index⟩ := by
  simp [load]

theorem SameShape.store (shape : memory.SameShape other) (target : Address)
    (bytes : List UInt8) :
    (memory.store target bytes).SameShape (other.store target bytes) := by
  intro allocation
  rw [sizeOf_store, sizeOf_store]
  exact shape allocation

theorem load_store_congr (shape : memory.SameShape other) {source : Region}
    (agree : memory.load source = other.load source) (target : Address)
    (bytes : List UInt8) :
    (memory.store target bytes).load source = (other.store target bytes).load source := by
  rw [load_eq_load_iff] at agree ⊢
  intro index inside
  rw [byteAt_store, byteAt_store, agree index inside,
    shape source.allocation]

private theorem overwrite_comm (block : Array UInt8) {first second : Nat}
    {firstBytes secondBytes : List UInt8}
    (apart : first + firstBytes.length ≤ second ∨ second + secondBytes.length ≤ first) :
    overwrite (overwrite block first firstBytes) second secondBytes =
      overwrite (overwrite block second secondBytes) first firstBytes := by
  apply Array.ext_getElem?
  intro index
  rw [getElem?_overwrite, getElem?_overwrite, getElem?_overwrite, getElem?_overwrite,
    size_overwrite, size_overwrite]
  by_cases inFirst : index < block.size ∧ first ≤ index ∧
      index < first + firstBytes.length
  · rw [if_pos inFirst, if_neg (by omega), if_pos inFirst]
  · rw [if_neg inFirst, if_neg inFirst]

theorem store_comm (memory : Memory) {first second : Write}
    (apart : first.region.Disjoint second.region) :
    (memory.store first.target first.bytes).store second.target second.bytes =
      (memory.store second.target second.bytes).store first.target first.bytes := by
  rcases apart with empty | empty | apart
  · rw [List.length_eq_zero_iff.mp empty, store_nil, store_nil]
  · rw [List.length_eq_zero_iff.mp empty, store_nil, store_nil]
  · apply ext_of_getD
    · simp
    · intro allocation
      rw [getD_store, getD_store, getD_store, getD_store]
      by_cases hfirst : allocation = first.target.allocation
      · by_cases hsecond : allocation = second.target.allocation
        · rw [if_pos hfirst, if_pos hsecond, if_pos hsecond, if_pos hfirst]
          apply overwrite_comm
          exact apart.resolve_left fun other => other (hfirst.symm.trans hsecond)
        · rw [if_neg hsecond, if_pos hfirst, if_pos hfirst, if_neg hsecond]
      · rw [if_neg hfirst, if_neg hfirst]

@[simp] theorem storeAll_nil (memory : Memory) : memory.storeAll [] = memory := rfl

@[simp] theorem storeAll_cons (memory : Memory) (write : Write) (writes : List Write) :
    memory.storeAll (write :: writes) =
      (memory.store write.target write.bytes).storeAll writes := rfl

theorem storeAll_append (memory : Memory) (first second : List Write) :
    memory.storeAll (first ++ second) = (memory.storeAll first).storeAll second :=
  List.foldl_append

theorem storeAll_flatMap (memory : Memory) (order : List ι) (writes : ι → List Write) :
    memory.storeAll (order.flatMap writes) =
      order.foldl (fun memory index => memory.storeAll (writes index)) memory := by
  induction order generalizing memory with
  | nil => rfl
  | cons index rest ih => rw [List.flatMap_cons, storeAll_append, ih, List.foldl_cons]

@[simp] theorem sizeOf_storeAll (memory : Memory) (writes : List Write)
    (allocation : Nat) :
    (memory.storeAll writes).sizeOf allocation = memory.sizeOf allocation := by
  induction writes generalizing memory with
  | nil => rfl
  | cons write rest ih => rw [storeAll_cons, ih, sizeOf_store]

theorem sameShape_storeAll (memory : Memory) (writes : List Write) :
    memory.SameShape (memory.storeAll writes) :=
  fun allocation => (sizeOf_storeAll memory writes allocation).symm

theorem SameShape.trans {last : Memory} (h : memory.SameShape other)
    (later : other.SameShape last) : memory.SameShape last :=
  fun allocation => (h allocation).trans (later allocation)

theorem SameShape.contains (shape : memory.SameShape other) {region : Region}
    (h : memory.Contains region) : other.Contains region := by
  rw [Contains, ← shape region.allocation]
  exact h

theorem Contains.storeAll {region : Region} (h : memory.Contains region)
    (writes : List Write) : (memory.storeAll writes).Contains region :=
  (sameShape_storeAll memory writes).contains h

/-- No allocation is larger than what can be requested. -/
def Bounded (memory : Memory) : Prop :=
  ∀ allocation, memory.sizeOf allocation ≤ capacity

theorem bounded_empty : empty.Bounded := fun _ => Nat.zero_le capacity

theorem Bounded.allocate (bounded : memory.Bounded) {granted : Nat → Bool}
    {bytes allocation : Nat}
    (allocated : memory.allocate granted bytes = .ok (allocation, other)) : other.Bounded := by
  unfold Memory.allocate at allocated
  split at allocated
  · next served =>
    cases allocated
    intro index
    have before := bounded index
    unfold sizeOf at before ⊢
    simp only [Array.getD_eq_getD_getElem?, Array.getElem?_push] at before ⊢
    split
    · simpa using served.1
    · exact before
  · cases allocated

theorem load_storeAll_of_disjoint {writes : List Write} {source : Region}
    (apart : ∀ write ∈ writes, source.Disjoint write.region) :
    (memory.storeAll writes).load source = memory.load source := by
  induction writes generalizing memory with
  | nil => rfl
  | cons write rest ih =>
      rw [storeAll_cons, ih fun later member => apart later (List.mem_cons_of_mem _ member)]
      exact load_store_of_disjoint (apart write List.mem_cons_self)

theorem store_storeAll_comm (memory : Memory) {write : Write} {writes : List Write}
    (apart : ∀ other ∈ writes, write.region.Disjoint other.region) :
    (memory.store write.target write.bytes).storeAll writes =
      (memory.storeAll writes).store write.target write.bytes := by
  induction writes generalizing memory with
  | nil => rfl
  | cons other rest ih =>
      rw [storeAll_cons, storeAll_cons, store_comm memory (apart other List.mem_cons_self),
        ih _ fun later member => apart later (List.mem_cons_of_mem _ member)]

theorem storeAll_comm (memory : Memory) {first second : List Write}
    (apart : ∀ write ∈ first, ∀ other ∈ second, write.region.Disjoint other.region) :
    (memory.storeAll first).storeAll second = (memory.storeAll second).storeAll first := by
  induction first generalizing memory with
  | nil => rfl
  | cons write rest ih =>
      rw [storeAll_cons, storeAll_cons,
        ih _ fun earlier member => apart earlier (List.mem_cons_of_mem _ member),
        store_storeAll_comm memory (apart write List.mem_cons_self)]

/-- Groups of stores that do not meet can be made in any order. -/
theorem storeAll_flatMap_perm (memory : Memory) {order reordered : List ι}
    (same : order.Perm reordered) (writes : ι → List Write)
    (apart : ∀ first ∈ order, ∀ second ∈ order, first ≠ second →
      ∀ write ∈ writes first, ∀ other ∈ writes second,
        write.region.Disjoint other.region) :
    memory.storeAll (order.flatMap writes) = memory.storeAll (reordered.flatMap writes) := by
  rw [storeAll_flatMap, storeAll_flatMap]
  apply same.foldl_eq'
  intro first hfirst second hsecond start
  by_cases equal : first = second
  · rw [equal]
  · exact storeAll_comm start (apart first hfirst second hsecond equal)

end Memory

end GridSort
