import GridSort.Proofs.Merge.Reflection
import GridSort.Proofs.Sort.Reach

namespace GridSort

/-! Inputs whose order is the same for each two of their positions. Nothing else is known of the
predicate. -/

section Monotone

variable {test : Nat → Nat → Bool} {size : Nat}

/-- No later position comes before an earlier one. -/
def Ascending (test : Nat → Nat → Bool) (size : Nat) : Prop :=
  ∀ first second, first < second → second < size → test second first = false

/-- Each later position comes before each earlier one. -/
def Descending (test : Nat → Nat → Bool) (size : Nat) : Prop :=
  ∀ first second, first < second → second < size → test second first = true

theorem Ascending.precedes_iff (ascending : Ascending test size) {first second : Nat}
    (hfirst : first < size) (hsecond : second < size) :
    Precedes test first second ↔ first < second := by
  rcases Nat.lt_trichotomy first second with lower | rfl | upper
  · rw [precedes_of_lt lower]
    exact iff_of_true (ascending first second lower hsecond) lower
  · exact iff_of_false (not_precedes_self first) (Nat.lt_irrefl first)
  · rw [precedes_of_gt upper, ascending second first upper hfirst]
    exact iff_of_false Bool.false_ne_true (Nat.lt_asymm upper)

theorem Descending.precedes_iff (descending : Descending test size) {first second : Nat}
    (hfirst : first < size) (hsecond : second < size) :
    Precedes test first second ↔ second < first := by
  rcases Nat.lt_trichotomy first second with lower | rfl | upper
  · rw [precedes_of_lt lower, descending first second lower hsecond]
    exact iff_of_false Bool.true_eq_false.mp (Nat.lt_asymm lower)
  · exact iff_of_false (not_precedes_self first) (Nat.lt_irrefl first)
  · rw [precedes_of_gt upper]
    exact iff_of_true (descending second first upper hfirst) upper

theorem Ascending.transitiveBelow (ascending : Ascending test size) :
    TransitiveBelow test size := by
  intro first second third hfirst hsecond hthird before later
  rw [ascending.precedes_iff hfirst hsecond] at before
  rw [ascending.precedes_iff hsecond hthird] at later
  rw [ascending.precedes_iff hfirst hthird]
  exact before.trans later

theorem Descending.transitiveBelow (descending : Descending test size) :
    TransitiveBelow test size := by
  intro first second third hfirst hsecond hthird before later
  rw [descending.precedes_iff hfirst hsecond] at before
  rw [descending.precedes_iff hsecond hthird] at later
  rw [descending.precedes_iff hfirst hthird]
  exact later.trans before

section Origins

variable {lanes : Nat} (fits : Grid.Fits size lanes)
include fits

theorem Ascending.map_sortedFrom (ascending : Ascending test size) :
    (List.range size).map (sortedFrom test size lanes) = List.range size := by
  have perm := perm_sortedFrom fits ascending.transitiveBelow
  have below : ∀ place ∈ (List.range size).map (sortedFrom test size lanes), place < size :=
    fun place member => List.mem_range.mp (perm.mem_iff.mp member)
  have sorted : ((List.range size).map (sortedFrom test size lanes)).Pairwise (· < ·) :=
    (pairwise_sortedFrom fits ascending.transitiveBelow).imp_of_mem
      fun hfirst hsecond precedes =>
        (ascending.precedes_iff (below _ hfirst) (below _ hsecond)).mp precedes
  exact perm.eq_of_pairwise (fun _ _ _ _ lower upper => absurd upper (Nat.lt_asymm lower))
    sorted List.pairwise_lt_range

theorem Descending.map_sortedFrom (descending : Descending test size) :
    (List.range size).map (sortedFrom test size lanes) = (List.range size).reverse := by
  have perm := perm_sortedFrom fits descending.transitiveBelow
  have below : ∀ place ∈ (List.range size).map (sortedFrom test size lanes), place < size :=
    fun place member => List.mem_range.mp (perm.mem_iff.mp member)
  have sorted : ((List.range size).map (sortedFrom test size lanes)).Pairwise (· > ·) :=
    (pairwise_sortedFrom fits descending.transitiveBelow).imp_of_mem
      fun hfirst hsecond precedes =>
        (descending.precedes_iff (below _ hfirst) (below _ hsecond)).mp precedes
  exact (perm.trans (List.reverse_perm _).symm).eq_of_pairwise
    (fun _ _ _ _ lower upper => absurd upper (Nat.lt_asymm lower)) sorted
    (List.pairwise_reverse.mpr List.pairwise_lt_range)

end Origins

end Monotone

namespace SortRequest

variable {keyType valueType : ElementType} {request : SortRequest keyType valueType}
  {storage : Buffer .byte} {memory : Memory}
  {test : Element keyType → Element keyType → Bool}

/-- The answers of the test for the keys of two positions. -/
def compared (request : SortRequest keyType valueType) (memory : Memory)
    (test : Element keyType → Element keyType → Bool) (first second : Nat) : Bool :=
  test (request.source.keys.get memory first) (request.source.keys.get memory second)

theorem answers_compared (total : request.less = .ofTest test) :
    request.Answers (request.source.get memory) (request.compared memory test) := by
  intro first second _ _
  rw [total]
  rfl

section Test

variable (ready : request.Ready storage memory) (total : request.less = .ofTest test)
include ready total

theorem Ready.leaves_unchanged
    (ascending : Ascending (request.compared memory test) request.size) :
    request.Leaves storage memory (request.given memory) := by
  refine ready.leaves (length_given request memory) fun small =>
    ⟨request.compared memory test, answers_compared total, ?_⟩
  have whole := congrArg (List.map (request.source.get memory))
    (ascending.map_sortedFrom (ready.fits small))
  rwa [List.map_map] at whole

theorem Ready.leaves_reversed
    (descending : Descending (request.compared memory test) request.size) :
    request.Leaves storage memory (request.given memory).reverse := by
  refine ready.leaves (List.length_reverse.trans (length_given request memory)) fun small =>
    ⟨request.compared memory test, answers_compared total, ?_⟩
  have whole := congrArg (List.map (request.source.get memory))
    (descending.map_sortedFrom (ready.fits small))
  rwa [List.map_map, List.map_reverse] at whole

end Test

/-- If no key comes before an earlier one, a call returns the pairs as they are, and if each key
comes before all earlier ones it returns them reversed, whatever the predicate is and whatever the
block size. So sorting what is sorted changes nothing, and neither does sorting keys that compare
with nothing. Both succeed if they are in reach, as they are with elements that take room. -/
theorem monotone_inputs (ready : request.Ready storage memory)
    (total : request.less = .ofTest test) :
    (Ascending (request.compared memory test) request.size →
        request.Leaves storage memory (request.given memory)) ∧
      (Descending (request.compared memory test) request.size →
        request.Leaves storage memory (request.given memory).reverse) ∧
      (request.less = .never → request.Leaves storage memory (request.given memory)) ∧
      (request.less = .always →
        request.Leaves storage memory (request.given memory).reverse) ∧
      (request.less = .less → (∀ position, position < request.size →
          (request.source.keys.get memory position).ordinals? = none) →
        request.Leaves storage memory (request.given memory)) ∧
      (request.InReach → request.Succeeds storage memory) ∧
      (¬request.InReach → request.Overflows storage memory) ∧
      (request.size ≤ 2 ^ 63 ∨ keyType.isStored = true ∨ valueType.isStored = true →
        request.InReach) := by
  refine ⟨ready.leaves_unchanged total, ready.leaves_reversed total, fun never => ?_,
    fun always => ?_, fun less unordered => ?_,
    ready.succeeds_or_overflows (answers_compared total)⟩
  · exact ready.leaves_unchanged never fun _ _ _ _ => rfl
  · exact ready.leaves_reversed always fun _ _ _ _ => rfl
  · refine ready.leaves_unchanged less fun first second _ inside => ?_
    rw [compared, Element.less, unordered second inside]

end SortRequest

namespace SmallCall

/-- No key comes before another. -/
def unordered : SortRequest .byte indexType := { request with less := .never }

theorem ready_unordered : unordered.Ready storage memory := { ready with }

end SmallCall

namespace SortRequest

theorem monotone_inputs_small :
    ∃ after rested,
      (SmallCall.unordered.execute .lazy true SmallCall.storage).outcome SmallCall.host =
        (.ok (), after) ∧
      (HostM.synchronize .lazy).outcome after = (.ok (), rested) ∧
      (List.range 3).map (SmallCall.unordered.target.get rested.device.memory) =
        [(3, 0), (1, 1), (2, 2)] := by
  obtain ⟨-, -, never, -, -, succeeds, -, inReach⟩ := monotone_inputs SmallCall.ready_unordered
    (show SmallCall.unordered.less = .ofTest fun _ _ => false from rfl)
  obtain ⟨after, rested, outcome, waited⟩ := succeeds (inReach (Or.inl (by decide))) .lazy true
    SmallCall.host Environment.calm_lazy SmallCall.settles
  exact ⟨after, rested, outcome, waited, never rfl .lazy true SmallCall.host
    Environment.calm_lazy SmallCall.settles after rested outcome waited⟩

/-- No key comes before another, so the input is as it is to be returned, and yet one element more
than half of the words can count is not sorted. -/
theorem monotone_input_overflows_half :
    (HalfCall.comparing fun _ _ => false).less = .never ∧
    Ascending ((HalfCall.comparing fun _ _ => false).compared .empty fun _ _ => false)
      (2 ^ 63 + 1) ∧
    ∃ after, ((HalfCall.comparing fun _ _ => false).execute .prompt true
      HalfCall.storage).outcome HalfCall.host =
        (.error (.kernelFault "block_merge" (.overflow .add)), after) :=
  ⟨rfl, fun _ _ _ _ => rfl, HalfCall.exists_execute fun _ _ => false⟩

end SortRequest

end GridSort
