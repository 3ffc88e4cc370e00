import GridSort.Proofs.Merge.Reflection
import GridSort.Proofs.Sort.Reach

namespace GridSort

/-! Sorts whose predicate holds of ties as well. -/

namespace SortRequest

variable {keyType valueType : ElementType} {request : SortRequest keyType valueType}
  {storage : Buffer .byte} {memory : Memory} {less : Predicate (Element keyType)}

/-- The keys of the input are compared by the companion of the strict predicate. -/
def ComparesTies (request : SortRequest keyType valueType) (less : Predicate (Element keyType))
    (memory : Memory) : Prop :=
  ∀ first second, HeldBelow (request.source.keys.get memory) request.size first →
    HeldBelow (request.source.keys.get memory) request.size second →
      request.less first second = less.nonStrict first second

section Order

variable (orders : less.WeaklyOrders
  (HeldBelow (request.source.keys.get memory) request.size))
  (ties : request.ComparesTies less memory)
include orders ties

theorem answers_companion : request.Answers (request.source.get memory)
    ((request.less.on Prod.fst).answerAt (request.source.get memory)) := by
  intro first second hfirst hsecond
  have held : ∀ position, position < request.size → HeldBelow
      (request.source.keys.get memory) request.size (request.source.get memory position).1 :=
    fun position inside => ⟨position, inside, rfl⟩
  obtain ⟨answer, answered⟩ := orders.answers _ _ (held second hsecond) (held first hfirst)
  have compared := ties _ _ (held first hfirst) (held second hsecond)
  rw [Predicate.nonStrict_of_answer answered] at compared
  have companion : (request.less.on Prod.fst) (request.source.get memory first)
      (request.source.get memory second) = .ok (!answer) := compared
  rw [Predicate.answerAt_of_ok companion, compared]

theorem stableSort_reverse_sortedFrom (fits : Grid.Fits request.size request.blockSize) :
    StableSort (less.on Prod.fst) (request.given memory).reverse
      ((List.range request.size).map fun position => request.source.get memory
        (sortedFrom ((request.less.on Prod.fst).answerAt (request.source.get memory))
          request.size request.blockSize position)) := by
  have byKey : (less.on Prod.fst).WeaklyOrders
      (HeldBelow (request.source.get memory) request.size) := weaklyOrders_fst orders
  have agrees : ∀ first second, first < request.size → second < request.size →
      (request.less.on Prod.fst) (request.source.get memory first)
          (request.source.get memory second) =
        (less.on Prod.fst).nonStrict (request.source.get memory first)
          (request.source.get memory second) :=
    fun first second hfirst hsecond => ties _ _ ⟨first, hfirst, rfl⟩ ⟨second, hsecond, rfl⟩
  have trans := transitiveBelow_companion byKey agrees
  have sorted := stableSort_reverse_of_precedes byKey agrees (perm_sortedFrom fits trans)
    (pairwise_sortedFrom fits trans)
  rwa [List.map_map] at sorted

end Order

/-- With the companion of a strict weak order, whatever the block size, a call returns the
stable sort of the reversed input: a permutation of the pairs, in order, with ties the other way
round. It succeeds if it is in reach, as it is with elements that take room. -/
theorem non_strict_sorts_reversed (ready : request.Ready storage memory)
    (orders : less.WeaklyOrders (HeldBelow (request.source.keys.get memory) request.size))
    (ties : request.ComparesTies less memory) :
    ∃ sorted, (∀ output, StableSort (less.on Prod.fst) (request.given memory).reverse output ↔
        output = sorted) ∧
      sorted.Perm (request.given memory) ∧
      (sorted.Pairwise fun first second => less second.1 first.1 = .ok false) ∧
      (∀ pair ∈ request.given memory, sorted.filter ((less.on Prod.fst).ties pair) =
        ((request.given memory).filter ((less.on Prod.fst).ties pair)).reverse) ∧
      request.Leaves storage memory sorted ∧
      (request.InReach → request.Succeeds storage memory) ∧
      (¬request.InReach → request.Overflows storage memory) ∧
      (request.size ≤ 2 ^ 63 ∨ keyType.isStored = true ∨ valueType.isStored = true →
        request.InReach) := by
  have byKey : (less.on Prod.fst).WeaklyOrders
      (HeldBelow (request.source.get memory) request.size) := weaklyOrders_fst orders
  have present : ∀ pair ∈ (request.given memory).reverse,
      HeldBelow (request.source.get memory) request.size pair :=
    fun pair member => heldBelow_of_mem_given (List.mem_reverse.mp member)
  obtain ⟨sorted, stable, leaves⟩ := ready.exists_leaves (answers_companion orders ties)
    (List.length_reverse.trans (length_given request memory))
    (fun pair member => byKey.irreflexive pair (present pair member))
    (stableSort_reverse_sortedFrom orders ties)
  refine ⟨sorted, fun output => ⟨fun other => other.unique byKey present stable, ?_⟩,
    stable.perm.trans (List.reverse_perm _), stable.ordered, fun pair member => ?_, leaves,
    ready.succeeds_or_overflows (answers_companion orders ties)⟩
  · rintro rfl
    exact stable
  · rw [stable.stable pair (List.mem_reverse.mpr member), List.filter_reverse]

end SortRequest

namespace SmallCall

/-- All keys tie. -/
def tied : SortRequest .byte indexType := { request with less := .always }

theorem ready_tied : tied.Ready storage memory := { ready with }

end SmallCall

namespace SortRequest

theorem non_strict_sorts_reversed_small :
    ∃ after rested,
      (SmallCall.tied.execute .prompt false SmallCall.storage).outcome SmallCall.host =
        (.ok (), after) ∧
      (HostM.synchronize .prompt).outcome after = (.ok (), rested) ∧
      (List.range 3).map (SmallCall.tied.target.get rested.device.memory) =
        [(2, 2), (1, 1), (3, 0)] := by
  have never : Predicate.never.WeaklyOrders
      (HeldBelow (SmallCall.tied.source.keys.get SmallCall.memory) 3) :=
    ⟨fun _ _ _ _ => ⟨false, rfl⟩, fun _ _ => rfl, fun _ _ _ _ _ _ before => (nomatch before),
      fun _ _ _ _ _ _ _ _ => rfl⟩
  obtain ⟨sorted, unique, -, -, -, leaves, succeeds, -, inReach⟩ :=
    non_strict_sorts_reversed SmallCall.ready_tied never
      fun _ _ _ _ => (Predicate.nonStrict_of_tie rfl).symm
  obtain ⟨after, rested, outcome, waited⟩ := succeeds (inReach (Or.inl (by decide))) .prompt false
    SmallCall.host Environment.calm_prompt SmallCall.settles
  have reversed := (unique (SmallCall.tied.given SmallCall.memory).reverse).mp
    (StableSort.refl (List.pairwise_of_forall fun _ _ => rfl))
  refine ⟨after, rested, outcome, waited, (leaves .prompt false SmallCall.host
    Environment.calm_prompt SmallCall.settles after rested outcome waited).trans ?_⟩
  rw [← reversed]
  rfl

/-- The companion of the order of the numbers does not sort one element more than half of the
words can count. -/
theorem non_strict_overflows_half :
    Predicate.less.WeaklyOrders (HeldBelow ((HalfCall.comparing Element.lessEqual).source.keys.get
      .empty) (2 ^ 63 + 1)) ∧
    (HalfCall.comparing Element.lessEqual).ComparesTies .less .empty ∧
    ∃ after, ((HalfCall.comparing Element.lessEqual).execute .prompt true
      HalfCall.storage).outcome HalfCall.host =
        (.error (.kernelFault "block_merge" (.overflow .add)), after) :=
  ⟨(Predicate.less_weaklyOrders _).mono fun _ _ => ⟨_, rfl⟩, fun _ _ _ _ => rfl,
    HalfCall.exists_execute Element.lessEqual⟩

end SortRequest

end GridSort
