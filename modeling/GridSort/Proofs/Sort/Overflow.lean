import GridSort.Proofs.Kernel.Overflow
import GridSort.Proofs.Sort.Frame
import GridSort.Proofs.Sort.Schedule

namespace GridSort

/-! The arithmetic of a sort of any size that is a word. Where elements take no room, sizes are not
bounded by the memory there is, and above half of the words a merge pass can fault on a sum that
is no word. It is known which groups of which passes do, and nothing else in a sort does. -/

namespace SortRequest

variable {keyType valueType : ElementType} {request : SortRequest keyType valueType}
  {storage : Buffer .byte} {layout : Layout} {scratch : Pairs keyType valueType}

theorem Accepted.targetRoom (accepted : request.Accepted storage layout scratch) :
    request.target.HasRoom request.size := by
  obtain ⟨room, -⟩ := hasRoom_of_accept accepted.hasLayout accepted.hasRoom
  exact ⟨room.keys, room.values⟩

theorem Accepted.scratchRoom (accepted : request.Accepted storage layout scratch) :
    scratch.HasRoom request.size := by
  obtain ⟨-, rfl⟩ := hasRoom_of_accept accepted.hasLayout accepted.hasRoom
  exact ⟨Nat.le_refl _, fun _ => Nat.le_refl _⟩

/-- A group of a merge pass whose block begins where the search overreaches faults. -/
theorem faultsAt_mergePass (accepted : request.Accepted storage layout scratch)
    (word : request.size ≤ Size.largest) {pass id : Nat}
    (begun : id * request.blockSize < request.size)
    (reaches : RunPair.Overreaches request.size (request.blockSize * 2 ^ pass)
      (id * request.blockSize)) (memory : Memory) :
    ((request.mergePass scratch pass (request.blockSize * 2 ^ pass)).kernel.run
      ⟨id, request.grid⟩).FaultsAt memory (.overflow .add) := by
  have room := room_active accepted.targetRoom accepted.scratchRoom pass
  have stops : ((⟨request.active scratch pass, request.active scratch (pass + 1), request.size,
      request.blockSize * 2 ^ pass, request.less⟩ : RunMerge keyType valueType).program
        ⟨id, request.grid⟩).FaultsAt memory (.overflow .add) :=
    RunMerge.faultsAt_program_of_overreaches room.1 word reaches begun
      (show 0 < request.grid.lanes from accepted.positive) rfl memory
  exact stops

/-- Which groups of an accepted call fault on a sum, a difference or a product that is no word, if
the predicate has no such fault of its own. What it answers, what memory holds and how much input
there is have no part in it. Such a group is in a merge pass, and its block begins within a pair of
two runs, so near to the last word that a run more is beyond it; and every such group faults. Up to
half of what a word can count there is none. -/
theorem overflows_iff_overreaches (accepted : request.Accepted storage layout scratch)
    (few : request.blockSize ≤ Grid.maxLanes) (word : request.size ≤ Size.largest)
    (quiet : request.less.FaultsWithin fun fault => ¬fault.IsOverflow) {index : Nat}
    {stage : Stage} (planned : (request.plan scratch).stages[index]? = some stage) {id : Nat}
    (present : id < request.grid.groups) (memory : Memory) (operation : Arithmetic) :
    ((stage.kernel.run ⟨id, request.grid⟩).FaultsAt memory (.overflow operation) ↔
      operation = .add ∧ ∃ pass, pass < request.passCount ∧ index = pass + 1 ∧
        RunPair.Overreaches request.size (request.blockSize * 2 ^ pass)
          (id * request.blockSize)) ∧
    (request.size ≤ 2 ^ 63 →
      ¬(stage.kernel.run ⟨id, request.grid⟩).FaultsAt memory (.overflow operation)) := by
  have positive := accepted.positive
  have begun : id * request.blockSize < request.size := Grid.mul_lanes_lt positive present
  have kept (within : ∀ pass, pass < request.passCount → index = pass + 1 →
      ¬RunPair.Overreaches request.size (request.blockSize * 2 ^ pass)
        (id * request.blockSize)) :
      ¬(stage.kernel.run ⟨id, request.grid⟩).FaultsAt memory (.overflow operation) := by
    intro faults
    have ended := ((keeps_stage quiet (fun _ missed => missed.not_isOverflow) few word
      accepted.targetRoom positive accepted.scratchRoom planned begun within).run memory).2
    rw [Program.FaultsAt] at faults
    rw [faults] at ended
    exact ended ⟨operation, rfl⟩
  refine ⟨⟨fun faults => ?_, ?_⟩, fun half => kept fun pass _ _ => ?_⟩
  · have found : ∃ pass, pass < request.passCount ∧ index = pass + 1 ∧ RunPair.Overreaches
        request.size (request.blockSize * 2 ^ pass) (id * request.blockSize) := by
      by_contra none
      exact kept (fun pass inside here reaches => none ⟨pass, inside, here, reaches⟩) faults
    obtain ⟨pass, inside, rfl, reaches⟩ := found
    rw [getElem?_stages_pass positive word inside, Option.some.injEq] at planned
    subst planned
    have same := faultsAt_mergePass accepted word begun reaches memory
    rw [Program.FaultsAt, faults] at same
    cases same
    exact ⟨rfl, pass, inside, rfl, reaches⟩
  · rintro ⟨rfl, pass, inside, rfl, reaches⟩
    rw [getElem?_stages_pass positive word inside, Option.some.injEq] at planned
    subst planned
    exact faultsAt_mergePass accepted word begun reaches memory
  · exact RunPair.not_overreaches (show 2 * request.size ≤ 2 ^ 64 by omega) begun _

end SortRequest

/-- In the last pass of the largest sort there is, the last group faults, and the second one does
not. -/
theorem overflows_iff_overreaches_largest :
    ∃ scratch, LargestCall.request.Accepted LargestCall.storage ⟨0, 0⟩ scratch ∧
      ∃ stage, (LargestCall.request.plan scratch).stages[55]? = some stage ∧ ∀ memory,
        (stage.kernel.run ⟨18446744073709551, LargestCall.request.grid⟩).FaultsAt memory
          (.overflow .add) ∧
        ¬(stage.kernel.run ⟨1, LargestCall.request.grid⟩).FaultsAt memory (.overflow .add) := by
  have word : LargestCall.request.size ≤ Size.largest := Nat.le_refl _
  have passes : LargestCall.request.passCount = 55 :=
    (Size.isLeast_doublings (show 0 < 1000 by decide) word).unique LargestCall.isLeast_passes
  have planned : (LargestCall.request.plan
      (LargestCall.request.scratchIn LargestCall.storage ⟨0, 0⟩)).stages[55]? = some _ :=
    SortRequest.getElem?_stages_pass LargestCall.accepted.positive word
      (show 54 < LargestCall.request.passCount by omega)
  have quiet : LargestCall.request.less.FaultsWithin fun fault => ¬fault.IsOverflow :=
    Predicate.faultsWithin_ofTest _ _
  refine ⟨_, LargestCall.accepted, _, planned, fun memory => ⟨?_, ?_⟩⟩
  · refine (SortRequest.overflows_iff_overreaches LargestCall.accepted (by decide) word quiet
      planned (by decide) memory .add).1.mpr ⟨rfl, 54, by omega, rfl, ?_, ?_, ?_⟩
    all_goals decide
  · rw [(SortRequest.overflows_iff_overreaches LargestCall.accepted (by decide) word quiet
      planned (by decide) memory .add).1]
    rintro ⟨-, pass, -, same, -, -, beyond⟩
    obtain rfl : pass = 54 := by omega
    exact absurd beyond (by decide)

/-! One element more than half of the words can count, in blocks of the default size. -/

namespace HalfCall

def request : SortRequest .nothing .nothing :=
  .keysOnly (.slice (.unbacked (2 ^ 63 + 1))) (.unbacked (2 ^ 63 + 1)) (2 ^ 63 + 1) .less

def storage : Buffer .byte := ⟨0, 0⟩

theorem accepted : request.Accepted storage ⟨0, 0⟩ (request.scratchIn storage ⟨0, 0⟩) := by
  have layout : request.layout = .ok ⟨0, 0⟩ := Layout.ofSize_eq_ok_iff.mpr ⟨rfl, Nat.zero_le _⟩
  exact ⟨by decide, layout, SortRequest.accept_eq_ok layout (by decide)
    ⟨Nat.le_refl _, fun _ => Nat.le_refl _⟩ (Nat.le_refl 0)⟩

theorem isLeast_passes : IsLeast {count | 2 ^ 63 + 1 ≤ 256 * 2 ^ count} 56 := by
  refine ⟨by decide, fun count covered => ?_⟩
  by_contra fewer
  have power : 2 ^ count ≤ 2 ^ 55 := Nat.pow_le_pow_right Nat.two_pos (by omega)
  have reached : 2 ^ 63 + 1 ≤ 256 * 2 ^ count := covered
  omega

theorem passCount_request : request.passCount = 56 :=
  (Size.isLeast_doublings (show 0 < 256 by decide) (show request.size ≤ Size.largest by decide)
    ).unique isLeast_passes

end HalfCall

/-- The last group of the last pass begins where its pair of runs has its right run: both places
are the first one behind half of the words, and their sum is no word. -/
theorem exists_group_overflows_half :
    ∃ scratch, HalfCall.request.Accepted HalfCall.storage ⟨0, 0⟩ scratch ∧
      ∃ stage, (HalfCall.request.plan scratch).stages[56]? = some stage ∧
        stage.kernel.name = "block_merge" ∧ 2 ^ 55 < HalfCall.request.grid.groups ∧
        ∀ memory, (stage.kernel.run ⟨2 ^ 55, HalfCall.request.grid⟩).FaultsAt memory
          (.overflow .add) := by
  have word : HalfCall.request.size ≤ Size.largest := by decide
  have passes := HalfCall.passCount_request
  refine ⟨_, HalfCall.accepted, _, SortRequest.getElem?_stages_pass HalfCall.accepted.positive word
    (show 55 < HalfCall.request.passCount by omega), rfl, by decide, ?_⟩
  refine SortRequest.faultsAt_mergePass HalfCall.accepted word (by decide) ⟨?_, ?_, ?_⟩
  all_goals decide

end GridSort
