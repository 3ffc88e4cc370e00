import GridSort.Proofs.Kernel.Conduct
import GridSort.Proofs.Sort.Run

namespace GridSort

/-! How the launches of a call conduct themselves when nothing is known of its memory: even
where inputs, outputs and scratch memory overlap, they store to the outputs and the scratch
regions alone. With a predicate that answers and a size that fits, none of them faults unless the
input is too short. -/

namespace SortRequest

variable {keyType valueType : ElementType} {request : SortRequest keyType valueType}
  {scratch : Pairs keyType valueType} {environment : Environment} {memory : Memory}
  {test : Element keyType → Element keyType → Bool}

/-- Where a call stores: at the positions that it sorts, in its outputs and in its scratch
memory. -/
def Writable (request : SortRequest keyType valueType) (scratch : Pairs keyType valueType)
    (region : Region) : Prop :=
  ∃ index, index < request.size ∧
    (region ∈ request.target.regions index ∨ region ∈ scratch.regions index)

theorem writable_active (passes : Nat) (index : Nat) (inside : index < request.size)
    (region : Region) (member : region ∈ (request.active scratch passes).regions index) :
    request.Writable scratch region := by
  unfold active at member
  split at member
  · exact ⟨index, inside, Or.inl member⟩
  · exact ⟨index, inside, Or.inr member⟩

section Stages

variable {faults : Fault → Prop} (known : request.less.FaultsWithin faults)
  (missed : ∀ fault, request.source.Misses request.size fault → faults fault)
  (few : request.blockSize ≤ Grid.maxLanes) (word : request.size ≤ Size.largest)
  (targetRoom : request.target.HasRoom request.size)
include known missed few word targetRoom

theorem keeps_tileSort {id : Nat} (begun : id * request.blockSize < request.size) :
    (request.tileSort.kernel.run ⟨id, request.grid⟩).Keeps (request.Writable scratch) faults
      fun _ => ∀ position ∈ (⟨id, request.grid⟩ : Group).window request.size,
        request.source.Covers (position + 1) := by
  have kept : ((⟨request.source, request.target, request.size, request.less⟩ :
      TileSort keyType valueType).program ⟨id, request.grid⟩).Keeps
        (request.Writable scratch) _ _ :=
    TileSort.keeps_program missed known targetRoom
      (fun index within _ member => ⟨index, within, Or.inl member⟩) few word begun
  exact kept

theorem keeps_stage (positive : 0 < request.blockSize) (scratchRoom : scratch.HasRoom request.size)
    {index : Nat} {stage : Stage}
    (found : (request.plan scratch).stages[index]? = some stage) {id : Nat}
    (begun : id * request.blockSize < request.size)
    (within : ∀ pass, pass < request.passCount → index = pass + 1 →
      ¬RunPair.Overreaches request.size (request.blockSize * 2 ^ pass)
        (id * request.blockSize)) :
    (stage.kernel.run ⟨id, request.grid⟩).Keeps (request.Writable scratch) faults
      fun _ => True := by
  have room := room_active targetRoom scratchRoom
  rcases stage_cases positive word found with
    ⟨rfl, rfl⟩ | ⟨pass, rfl, inside, rfl⟩ | ⟨rfl, odd, rfl⟩
  · exact (keeps_tileSort known missed few word targetRoom begun).mono fun _ _ => trivial
  · exact RunMerge.keeps_program known (room pass) (room (pass + 1))
      (writable_active (pass + 1)) word (Nat.mul_pos positive (Nat.two_pow_pos pass)) begun
      (within pass inside rfl)
  · exact Copy.keeps_program scratchRoom targetRoom
      (fun index below _ member => ⟨index, below, Or.inl member⟩) word begun

end Stages

section

variable (total : request.less = .ofTest test) (fits : Grid.Fits request.size request.blockSize)
  (targetRoom : request.target.HasRoom request.size)
  (scratchRoom : scratch.HasRoom request.size)
include total fits targetRoom scratchRoom

theorem exists_runAll_of_covers (covers : request.source.Covers request.size)
    (calm : environment.Calm) (first : Nat) (memory : Memory) :
    ∃ final, Launch.runAll (request.launches environment first scratch) memory =
        (none, final) ∧
      memory.UnchangedOutside (request.Writable scratch) final := by
  refine Launch.exists_runAll_of_safe (fun launch member => ?_) memory
  obtain ⟨index, listed⟩ := List.getElem?_of_mem member
  obtain ⟨stage, planned, rfl⟩ := exists_stage calm listed
  intro id present
  have begun := Grid.mul_lanes_lt fits.positive
    (List.mem_range.mp ((calm.order _ _).mem_iff.mp present))
  have small := fits.size_lt
  have half : 2 * request.size ≤ Size.limit := show 2 * request.size ≤ 2 ^ 64 by omega
  exact keeps_stage (total ▸ Predicate.faultsWithin_ofTest test _) (Source.not_misses covers)
    fits.lanes_le fits.size_le targetRoom fits.positive scratchRoom planned begun
    fun _ _ _ => RunPair.not_overreaches half begun _

omit scratchRoom

/-- Without enough input, some group of the first launch finds where it ends. -/
theorem exists_run_of_not_covers (nonempty : request.size ≠ 0)
    (short : ¬request.source.Covers request.size) {order : Nat → List Nat}
    (complete : (order request.grid.groups).Perm (List.range request.grid.groups))
    (memory : Memory) :
    ∃ fault after,
      (⟨request.tileSort.kernel, request.grid, order⟩ : Launch).run memory =
        (some fault, after) ∧
      request.source.Misses request.size fault ∧
      memory.UnchangedOutside (request.Writable scratch) after := by
  have each : ∀ id ∈ order request.grid.groups,
      (request.tileSort.kernel.run ⟨id, request.grid⟩).Keeps (request.Writable scratch) _ _ :=
    fun id present => keeps_tileSort (total ▸ Predicate.faultsWithin_ofTest test _)
      (fun _ missed => missed) fits.lanes_le fits.size_le targetRoom
        (Grid.mul_lanes_lt fits.positive (List.mem_range.mp (complete.mem_iff.mp present)))
  obtain ⟨unchanged, ended⟩ := Launch.runGroups_of_keeps each memory
  cases ran : Launch.runGroups request.tileSort.kernel request.grid
      (order request.grid.groups) memory with
  | mk fault after =>
      rw [ran] at unchanged ended
      cases fault with
      | some fault => exact ⟨fault, after, ran, ended, unchanged⟩
      | none =>
          refine absurd (Source.covers_of_forall nonempty fun position inside => ?_) short
          have member := List.mem_range.mpr inside
          rw [← Group.flatMap_window_eq_range fits.positive request.size] at member
          obtain ⟨id, listed, within⟩ := List.mem_flatMap.mp member
          exact ended id (complete.mem_iff.mpr listed) position within

end

end SortRequest

end GridSort
