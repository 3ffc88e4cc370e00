import GridSort.Proofs.Element.Comparison
import GridSort.Proofs.Merge.Opposite
import GridSort.Proofs.Merge.Reflection
import GridSort.Proofs.Sort.Reach

namespace GridSort

/-! Sorts in descending order. They return what an ascending sort of the reversed input returns,
read backwards. -/

namespace Predicate

/-- Elements that are numbers are ordered, whatever their type. -/
theorem less_weaklyOrders_numbers (type : ElementType) :
    WeaklyOrders less fun element : Element type => ¬element.IsNaN :=
  (less_weaklyOrders type).mono fun _ number => Element.exists_ordinals_iff.mpr number

end Predicate

namespace SortRequest

variable {keyType valueType : ElementType} {request other : SortRequest keyType valueType}
  {storage otherStorage : Buffer .byte} {memory otherMemory : Memory}

/-- In an order, a call leaves the stable sort of its pairs. -/
theorem Ready.exists_stableSort (ready : request.Ready storage memory)
    (orders : request.less.WeaklyOrders
      (HeldBelow (request.source.keys.get memory) request.size)) :
    ∃ sorted, StableSort (request.less.on Prod.fst) (request.given memory) sorted ∧
      request.Leaves storage memory sorted := by
  have byKey : (request.less.on Prod.fst).WeaklyOrders
      (HeldBelow (request.source.get memory) request.size) := weaklyOrders_fst orders
  exact ready.exists_leaves (fun _ _ hfirst hsecond => answerAt_eq byKey hfirst hsecond)
    (length_given request memory)
    (fun pair member => byKey.irreflexive pair (heldBelow_of_mem_given member))
    fun fits => stableSort_sortedFrom fits byKey

/-- Whatever is sorted, the keys are ordered if they are numbers. -/
theorem heldBelow_number {pairs : List (Element keyType × Element valueType)}
    (given : request.given memory = pairs) (numbers : ∀ pair ∈ pairs, ¬pair.1.IsNaN)
    {key : Element keyType} (held : HeldBelow (request.source.keys.get memory) request.size key) :
    ¬key.IsNaN := by
  obtain ⟨position, inside, rfl⟩ := held
  refine numbers (request.source.get memory position) ?_
  rw [← given]
  exact List.mem_map_of_mem (List.mem_range.mpr inside)

/-- Whatever pairs of numbers and values a call sorts in descending order, a call that sorts the
reversed pairs in ascending order returns the same, read backwards, bit for bit. Both are stable
sorts in a strict weak order, which is the order of the numbers that the patterns of the keys
stand for. Of the numbers only the two zeros tie without being the same. Each call succeeds if it
is in reach, as it is with elements that take room. -/
theorem descending_mirrors_ascending (pairs : List (Element keyType × Element valueType))
    (ready : request.Ready storage memory) (given : request.given memory = pairs)
    (descending : request.less = .greater)
    (otherReady : other.Ready otherStorage otherMemory)
    (otherGiven : other.given otherMemory = pairs.reverse) (ascending : other.less = .less)
    (numbers : ∀ pair ∈ pairs, ¬pair.1.IsNaN) :
    (∃ sorted, StableSort (Predicate.greater.on Prod.fst) pairs sorted ∧
      StableSort (Predicate.less.on Prod.fst) pairs.reverse sorted.reverse ∧
      request.Leaves storage memory sorted ∧
      other.Leaves otherStorage otherMemory sorted.reverse) ∧
    ((request.InReach → request.Succeeds storage memory) ∧
      (¬request.InReach → request.Overflows storage memory) ∧
      (request.size ≤ 2 ^ 63 ∨ keyType.isStored = true ∨ valueType.isStored = true →
        request.InReach)) ∧
    ((other.InReach → other.Succeeds otherStorage otherMemory) ∧
      (¬other.InReach → other.Overflows otherStorage otherMemory) ∧
      (other.size ≤ 2 ^ 63 ∨ keyType.isStored = true ∨ valueType.isStored = true →
        other.InReach)) ∧
    (∀ type : ElementType,
      (Predicate.less.WeaklyOrders fun element : Element type => ¬element.IsNaN) ∧
      (Predicate.greater.WeaklyOrders fun element : Element type => ¬element.IsNaN) ∧
      ∀ first second : Element type,
        Predicate.greater first second = Predicate.less second first ∧
        (Predicate.less first second = .ok true ↔ first.Before second)) ∧
    ∀ (format : FloatFormat) (first second : Element (.float format)),
      ¬first.IsNaN → ¬second.IsNaN →
        (Predicate.less.ties first second = true ↔
          first = second ∨ first.IsZero ∧ second.IsZero) := by
  have orders := Predicate.less_weaklyOrders_numbers keyType
  refine ⟨?_, ready.succeeds_or_overflows (answers_ofTest descending),
    otherReady.succeeds_or_overflows (answers_ofTest ascending),
    fun type => ⟨Predicate.less_weaklyOrders_numbers type,
    (Predicate.less_weaklyOrders_numbers type).opposite, fun first second => ⟨rfl, ?_⟩⟩,
    fun _ _ _ hfirst hsecond => Element.ties_iff_float hfirst hsecond⟩
  · have held : request.less.WeaklyOrders
        (HeldBelow (request.source.keys.get memory) request.size) := by
      rw [descending]
      exact orders.opposite.mono fun _ => heldBelow_number given numbers
    have reversedNumbers : ∀ pair ∈ pairs.reverse, ¬pair.1.IsNaN :=
      fun pair member => numbers pair (List.mem_reverse.mp member)
    have otherHeld : other.less.WeaklyOrders
        (HeldBelow (other.source.keys.get otherMemory) other.size) := by
      rw [ascending]
      exact orders.mono fun _ => heldBelow_number otherGiven reversedNumbers
    obtain ⟨sorted, stable, leaves⟩ := ready.exists_stableSort held
    obtain ⟨otherSorted, otherStable, otherLeaves⟩ := otherReady.exists_stableSort otherHeld
    rw [given, descending] at stable
    rw [otherGiven, ascending] at otherStable
    have mirrored : StableSort (Predicate.less.on Prod.fst) pairs.reverse sorted.reverse :=
      stable.reverse
    have same := otherStable.unique (orders.on Prod.fst) reversedNumbers mirrored
    rw [same] at otherLeaves
    exact ⟨sorted, stable, mirrored, leaves, otherLeaves⟩
  · rw [← Element.less_iff_before, Predicate.less, Predicate.ofTest_apply, Except.ok.injEq]

end SortRequest

/-! A zero with a sign, a one, and a zero without a sign, and the same from the end. -/

namespace SmallFloats

def memory (keys values : Array UInt8) : Memory :=
  ⟨#[keys, values, Array.replicate 12 0, Array.replicate 3 0, Array.replicate 512 165]⟩

def forth : Memory := memory #[0, 0, 0, 128, 0, 0, 128, 63, 0, 0, 0, 0] #[0, 1, 2]

def back : Memory := memory #[0, 0, 0, 0, 0, 0, 128, 63, 0, 0, 0, 128] #[2, 1, 0]

def storage : Buffer .byte := ⟨4, 512⟩

def keys : Slice (.float .single) := ⟨0, 0, 3⟩

def values : Slice .byte := ⟨1, 0, 3⟩

def target : Pairs (.float .single) .byte := ⟨⟨2, 0, 3⟩, ⟨3, 0, 3⟩⟩

def request (less : Predicate (Element (.float .single))) :
    SortRequest (.float .single) .byte :=
  { source := ⟨.slice keys, .slice values⟩
    target
    size := 3
    less
    blockSize := 2 }

def pairs : List (Element (.float .single) × Element .byte) :=
  [(0x80000000, 0), (0x3f800000, 1), (0, 2)]

theorem forall_pairs {holds : Element (.float .single) × Element .byte → Prop} :
    (∀ pair ∈ pairs, holds pair) ↔
      holds (0x80000000, 0) ∧ holds (0x3f800000, 1) ∧ holds (0, 2) := by
  simp [pairs]

def host (memory : Memory) : Host := { stream := .idle, device := ⟨memory, #[]⟩ }

theorem layout : Layout.ofSize (.float .single) .byte 3 = .ok ⟨256, 256⟩ :=
  Layout.ofSize_eq_ok_iff.mpr (by decide)

section Ready

variable {keyBytes valueBytes : Array UInt8} (some : keyBytes.size = 12)
  (few : valueBytes.size = 3)
include some few

theorem bounded : (memory keyBytes valueBytes).Bounded := by
  intro allocation
  match allocation with
  | 0 =>
      change keyBytes.size ≤ Memory.capacity
      rw [some]
      decide
  | 1 =>
      change valueBytes.size ≤ Memory.capacity
      rw [few]
      decide
  | 2 => exact (by decide : 12 ≤ Memory.capacity)
  | 3 => exact (by decide : 3 ≤ Memory.capacity)
  | 4 =>
      change (Array.replicate 512 (165 : UInt8)).size ≤ Memory.capacity
      rw [Array.size_replicate]
      decide
  | _ + 5 => exact Nat.zero_le Memory.capacity

theorem ready (less : Predicate (Element (.float .single))) :
    (request less).Ready storage (memory keyBytes valueBytes) where
  covers := ⟨Nat.le_refl 3, fun _ => Nat.le_refl 3⟩
  room := ⟨Nat.le_refl 3, fun _ => Nat.le_refl 3⟩
  keysHeld := Nat.le_refl 12
  valuesHeld := Nat.le_refl 3
  storageHeld := by
    change 0 + 512 * 1 ≤ (Array.replicate 512 (165 : UInt8)).size
    rw [Array.size_replicate]
  outputsApart := (by decide : target.keys.extent.Disjoint target.values.extent)
  keysApart := (by decide : target.keys.extent.Disjoint storage.slice.extent)
  valuesApart := (by decide : target.values.extent.Disjoint storage.slice.extent)
  keysBeside := Or.inr (by decide : keys.extent.Disjoint target.keys.extent ∧
    keys.extent.Disjoint target.values.extent)
  valuesBeside := Or.inr (by decide : values.extent.Disjoint target.values.extent ∧
    values.extent.Disjoint target.keys.extent)
  bounded := bounded some few
  word := (by decide : 3 ≤ Size.largest)
  positive := Nat.le_succ 1
  few := (by decide : 2 ≤ Grid.maxLanes)
  enough := ⟨⟨256, 256⟩, layout, (by decide : 256 + 3 * 1 ≤ 512)⟩

end Ready

theorem settles (memory : Memory) : (host memory).Settles memory :=
  Host.settles_of_idle rfl rfl rfl

end SmallFloats

namespace SortRequest

theorem descending_mirrors_ascending_small :
    (∃ after rested,
      ((SmallFloats.request .greater).execute .prompt false SmallFloats.storage).outcome
        (SmallFloats.host SmallFloats.forth) = (.ok (), after) ∧
      (HostM.synchronize .prompt).outcome after = (.ok (), rested) ∧
      (List.range 3).map ((SmallFloats.request .greater).target.get rested.device.memory) =
        [(0x3f800000, 1), (0x80000000, 0), (0, 2)]) ∧
    ∃ after rested,
      ((SmallFloats.request .less).execute .prompt false SmallFloats.storage).outcome
        (SmallFloats.host SmallFloats.back) = (.ok (), after) ∧
      (HostM.synchronize .prompt).outcome after = (.ok (), rested) ∧
      (List.range 3).map ((SmallFloats.request .less).target.get rested.device.memory) =
        [(0, 2), (0x80000000, 0), (0x3f800000, 1)] := by
  have numbers : ∀ pair ∈ SmallFloats.pairs, ¬pair.1.IsNaN :=
    SmallFloats.forall_pairs.mpr ⟨by decide, by decide, by decide⟩
  have ready : (SmallFloats.request .greater).Ready SmallFloats.storage SmallFloats.forth :=
    SmallFloats.ready rfl rfl .greater
  have otherReady : (SmallFloats.request .less).Ready SmallFloats.storage SmallFloats.back :=
    SmallFloats.ready rfl rfl .less
  obtain ⟨⟨sorted, stable, -, leaves, otherLeaves⟩, ⟨succeeds, -, inReach⟩,
    ⟨otherSucceeds, -, otherInReach⟩, -⟩ :=
    descending_mirrors_ascending SmallFloats.pairs ready (by decide) rfl otherReady (by decide)
      rfl numbers
  have expected : StableSort (Predicate.greater.on Prod.fst) SmallFloats.pairs
      [(0x3f800000, 1), (0x80000000, 0), (0, 2)] := ⟨by decide, by decide,
      SmallFloats.forall_pairs.mpr ⟨by decide, by decide, by decide⟩⟩
  have same := stable.unique
    ((Predicate.less_weaklyOrders_numbers _).opposite.on Prod.fst) numbers expected
  rw [same] at leaves otherLeaves
  constructor
  · have settles := SmallFloats.settles SmallFloats.forth
    obtain ⟨after, rested, outcome, waited⟩ := succeeds (inReach (Or.inl (by decide))) .prompt
      false _ Environment.calm_prompt settles
    exact ⟨after, rested, outcome, waited,
      leaves .prompt false _ Environment.calm_prompt settles after rested outcome waited⟩
  · have settles := SmallFloats.settles SmallFloats.back
    obtain ⟨after, rested, outcome, waited⟩ := otherSucceeds (otherInReach (Or.inl (by decide)))
      .prompt false _ Environment.calm_prompt settles
    exact ⟨after, rested, outcome, waited,
      otherLeaves .prompt false _ Environment.calm_prompt settles after rested outcome waited⟩

/-- One element more than half of the words can count is sorted in neither order. -/
theorem descending_overflows_half :
    let descending := HalfCall.comparing fun first second => Element.less second first
    let ascending := HalfCall.comparing Element.less
    descending.less = .greater ∧ ascending.less = .less ∧
    (∃ after, (descending.execute .prompt true HalfCall.storage).outcome HalfCall.host =
      (.error (.kernelFault "block_merge" (.overflow .add)), after)) ∧
    ∃ after, (ascending.execute .prompt true HalfCall.storage).outcome HalfCall.host =
      (.error (.kernelFault "block_merge" (.overflow .add)), after) :=
  ⟨rfl, rfl, HalfCall.exists_execute fun first second => Element.less second first,
    HalfCall.exists_execute Element.less⟩

end SortRequest

end GridSort
