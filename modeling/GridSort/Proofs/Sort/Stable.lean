import GridSort.Proofs.Merge.StableSort
import GridSort.Proofs.Sort.Run

namespace GridSort

/-! Under a strict weak order, the pairs are stably sorted. -/

namespace SortRequest

variable {keyType valueType : ElementType} {request : SortRequest keyType valueType}
  {storage : Buffer .byte} {environment : Environment} {watched : Bool}
  {caller asked host : Host} {memory : Memory}

theorem stableSort_sortedFrom {less : Predicate α} {content : Nat → α} {size lanes : Nat}
    (fits : Grid.Fits size lanes) (orders : less.WeaklyOrders (HeldBelow content size)) :
    StableSort less ((List.range size).map content)
      ((List.range size).map fun position =>
        content (sortedFrom (less.answerAt content) size lanes position)) := by
  obtain ⟨width, positive, wide, arranged⟩ :=
    arranged_sortedFrom fits (transitiveBelow_answerAt orders)
  have sorted := arranged.stableSort_block positive orders 0
  rwa [block_zero wide] at sorted

/-- With the scratch memory that it asks for, a call sorts the pairs stably by their keys,
and so the keys alone. -/
theorem execute_sorts_stably (calm : environment.Calm) (healthy : host.Settles memory)
    (placed : request.Placed storage memory)
    (asks : request.query.outcome caller = (.ok (), asked))
    (enough : asked.bytesNeeded ≤ storage.length)
    (orders : request.less.WeaklyOrders
      (HeldBelow (request.source.keys.get memory) request.size)) :
    ∃ after rested, (request.execute environment watched storage).outcome host =
        (.ok (), after) ∧
      (HostM.synchronize environment).outcome after = (.ok (), rested) ∧
      StableSort (request.less.on Prod.fst)
        ((List.range request.size).map (request.source.get memory))
        ((List.range request.size).map (request.target.get rested.device.memory)) ∧
      StableSort request.less
        ((List.range request.size).map (request.source.keys.get memory))
        ((List.range request.size).map (request.target.keys.get rested.device.memory)) := by
  have admits := placed.admits asks enough
  have answers : request.Answers (request.source.get memory)
      (request.less.answerAt (request.source.keys.get memory)) :=
    fun first second hfirst hsecond => answerAt_eq orders hfirst hsecond
  obtain ⟨final, gathers, runs⟩ := admits.exists_final answers
  obtain ⟨after, succeeds, settles, -⟩ := runs environment watched host calm healthy
  obtain ⟨rested, waited, -, same, -⟩ := settles.synchronize environment
  refine ⟨after, rested, succeeds, waited, ?_, ?_⟩
  · have byKey : (request.less.on Prod.fst).WeaklyOrders
        (HeldBelow (request.source.get memory) request.size) :=
      (orders.on Prod.fst).mono fun pair ⟨position, inside, held⟩ =>
        ⟨position, inside, congrArg Prod.fst held⟩
    have sorted := stableSort_sortedFrom placed.fits byKey
    rw [same]
    convert sorted using 1
    exact List.map_congr_left fun position member =>
      gathers position (List.mem_range.mp member)
  · have sorted := stableSort_sortedFrom placed.fits orders
    rw [same]
    convert sorted using 1
    exact List.map_congr_left fun position member =>
      congrArg Prod.fst (gathers position (List.mem_range.mp member))

/-- Three pairs in groups of two, with a merge pass and the copy after it, and keys alone in one
group. -/
theorem execute_sorts_stably_small :
    (∃ after rested,
      (SmallCall.request.execute .prompt false SmallCall.storage).outcome SmallCall.host =
        (.ok (), after) ∧
      (HostM.synchronize .prompt).outcome after = (.ok (), rested) ∧
      StableSort (Predicate.less.on Prod.fst) [(3, 0), (1, 1), (2, 2)]
        ((List.range 3).map (SmallCall.request.target.get rested.device.memory))) ∧
    ∃ after rested,
      (SmallCall.keysAlone.execute .prompt false SmallCall.storage).outcome SmallCall.host =
        (.ok (), after) ∧
      (HostM.synchronize .prompt).outcome after = (.ok (), rested) ∧
      StableSort Predicate.less [3, 1, 2]
        ((List.range 3).map (SmallCall.keysAlone.target.keys.get rested.device.memory)) := by
  constructor
  · obtain ⟨after, rested, succeeds, waited, sorted, -⟩ := execute_sorts_stably
      Environment.calm_prompt SmallCall.settles SmallCall.placed
      SmallCall.asks (by decide : 512 ≤ 512)
      ((Predicate.less_weaklyOrders _).mono fun key _ => ⟨_, rfl⟩)
    exact ⟨after, rested, succeeds, waited, sorted⟩
  · obtain ⟨after, rested, succeeds, waited, -, sorted⟩ := execute_sorts_stably
      Environment.calm_prompt SmallCall.settles SmallCall.placed_keysAlone
      SmallCall.keysAlone_asks (by decide : 256 ≤ 512)
      ((Predicate.less_weaklyOrders _).mono fun key _ => ⟨_, rfl⟩)
    exact ⟨after, rested, succeeds, waited, sorted⟩

end SortRequest

end GridSort
