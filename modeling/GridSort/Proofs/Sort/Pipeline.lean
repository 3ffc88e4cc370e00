import GridSort.Proofs.Kernel.Copy
import GridSort.Proofs.Sort.Arrangement
import GridSort.Proofs.Sort.Plan

namespace GridSort

/-! The launches of a sort, one after the other. Each fills one of two places from what
the launch before it left in the other, so that after every launch the pairs of the input
are in place as far as the sort has arranged them. -/

namespace SortRequest

variable {keyType valueType : ElementType} {request : SortRequest keyType valueType}
  {scratch : Pairs keyType valueType} {test : Nat → Nat → Bool} {memory : Memory}
  {content : Nat → Element keyType × Element valueType}

structure Sound (request : SortRequest keyType valueType) (scratch : Pairs keyType valueType) :
    Prop where
  fits : Grid.Fits request.size request.blockSize
  covers : request.source.Covers request.size
  targetRoom : request.target.HasRoom request.size
  scratchRoom : scratch.HasRoom request.size
  targetSeparate : request.target.keys.extent.Disjoint request.target.values.extent
  scratchSeparate : scratch.keys.extent.Disjoint scratch.values.extent
  apart : request.target.Apart scratch
  separate : request.source.Separate request.target request.size

/-- The predicate answers as the test says for the keys of these pairs. -/
def Answers (request : SortRequest keyType valueType)
    (content : Nat → Element keyType × Element valueType) (test : Nat → Nat → Bool) : Prop :=
  ∀ first second, first < request.size → second < request.size →
    request.less (content first).1 (content second).1 = .ok (test first second)

/-- The content of a position after the launch with the number. -/
def arranged (request : SortRequest keyType valueType)
    (content : Nat → Element keyType × Element valueType) (test : Nat → Nat → Bool)
    (index position : Nat) : Element keyType × Element valueType :=
  content (arrangement test request.size request.blockSize (min index request.passCount)
    position)

theorem arranged_zero (content : Nat → Element keyType × Element valueType)
    (test : Nat → Nat → Bool) : request.arranged content test 0 =
      TileSort.output content test request.size request.blockSize := by
  funext position
  rw [arranged, Nat.zero_min]
  rfl

/-- The memory before the launch with the number. -/
def memoryBefore (request : SortRequest keyType valueType)
    (scratch : Pairs keyType valueType)
    (content : Nat → Element keyType × Element valueType) (test : Nat → Nat → Bool)
    (memory : Memory) : Nat → Memory
  | 0 => memory
  | index + 1 => (request.memoryBefore scratch content test memory index).storeAll
      ((request.active scratch index).fill (List.range request.size)
        (request.arranged content test index))

/-- What the launch with the number finds. -/
def Finds (request : SortRequest keyType valueType) (scratch : Pairs keyType valueType)
    (content : Nat → Element keyType × Element valueType) (test : Nat → Nat → Bool)
    (memory : Memory) : Nat → Prop
  | 0 => ∀ position, position < request.size →
      request.source.get memory position = content position
  | index + 1 => ∀ position, position < request.size →
      (request.active scratch index).get memory position =
        request.arranged content test index position

theorem room_active (targetRoom : request.target.HasRoom request.size)
    (scratchRoom : scratch.HasRoom request.size) (passes : Nat) :
    (request.active scratch passes).HasRoom request.size := by
  unfold active
  split
  · exact targetRoom
  · exact scratchRoom

theorem Sound.room (sound : request.Sound scratch) (passes : Nat) :
    (request.active scratch passes).HasRoom request.size :=
  room_active sound.targetRoom sound.scratchRoom passes

theorem Sound.separateActive (sound : request.Sound scratch) (passes : Nat) :
    (request.active scratch passes).keys.extent.Disjoint
      (request.active scratch passes).values.extent := by
  unfold active
  split
  · exact sound.targetSeparate
  · exact sound.scratchSeparate

theorem Sound.apartActive (sound : request.Sound scratch) (passes : Nat) :
    (request.active scratch passes).Apart (request.active scratch (passes + 1)) := by
  rcases Nat.mod_two_eq_zero_or_one passes with even | odd
  · rw [active_even even, active_odd (show (passes + 1) % 2 = 1 by omega)]
    exact sound.apart
  · rw [active_odd odd, active_even (show (passes + 1) % 2 = 0 by omega)]
    exact sound.apart.symm

theorem getElem?_passWidths (positive : 0 < request.blockSize)
    (small : request.size ≤ Size.largest) {index : Nat} (inside : index < request.passCount) :
    request.passWidths[index]? = some (request.blockSize * 2 ^ index) := by
  have inRange : index < (Size.doublings request.blockSize request.size).length := inside
  unfold passWidths
  rw [Size.doublings_eq_map positive small, List.getElem?_map,
    List.getElem?_range inRange]
  rfl

theorem getElem?_stages_pass (positive : 0 < request.blockSize)
    (word : request.size ≤ Size.largest) {pass : Nat} (inside : pass < request.passCount) :
    (request.plan scratch).stages[pass + 1]? =
      some (request.mergePass scratch pass (request.blockSize * 2 ^ pass)) := by
  rw [stages_plan]
  change (request.passWidths.mapIdx (request.mergePass scratch) ++
    if request.passCount % 2 = 0 then [] else [request.copyBack scratch])[pass]? = _
  rw [List.getElem?_append_left (by rwa [List.length_mapIdx]), List.getElem?_mapIdx,
    getElem?_passWidths positive word inside]
  rfl

theorem stage_cases (positive : 0 < request.blockSize) (small : request.size ≤ Size.largest)
    {index : Nat} {stage : Stage}
    (found : (request.plan scratch).stages[index]? = some stage) :
    index = 0 ∧ stage = request.tileSort ∨
      (∃ pass, index = pass + 1 ∧ pass < request.passCount ∧
        stage = request.mergePass scratch pass (request.blockSize * 2 ^ pass)) ∨
      index = request.passCount + 1 ∧ request.passCount % 2 = 1 ∧
        stage = request.copyBack scratch := by
  cases index with
  | zero =>
      cases found
      exact Or.inl ⟨rfl, rfl⟩
  | succ pass =>
      by_cases inside : pass < request.passCount
      · rw [getElem?_stages_pass positive small inside] at found
        cases found
        exact Or.inr (Or.inl ⟨pass, rfl, inside, rfl⟩)
      · have beyond : request.passCount ≤ pass := Nat.le_of_not_lt inside
        rw [stages_plan] at found
        have rest : (request.passWidths.mapIdx (request.mergePass scratch) ++
            if request.passCount % 2 = 0 then [] else [request.copyBack scratch])[pass]? =
              some stage := found
        rw [List.getElem?_append_right (by rwa [List.length_mapIdx]), List.length_mapIdx] at rest
        change (if request.passCount % 2 = 0 then []
          else [request.copyBack scratch])[pass - request.passCount]? = some stage at rest
        split at rest
        · cases rest
        · rename_i odd
          have only : pass - request.passCount = 0 := by
            cases later : pass - request.passCount with
            | zero => rfl
            | succ count =>
                rw [later] at rest
                cases rest
          rw [only] at rest
          cases rest
          exact Or.inr (Or.inr ⟨by omega, by omega, rfl⟩)

section Stages

variable (sound : request.Sound scratch)
include sound

theorem Sound.fills_tileSort (answers : request.Answers content test)
    (finds : request.Finds scratch content test memory 0) :
    ∃ readable, request.tileSort.kernel.Fills
      (Grid.covering request.size request.blockSize) memory (request.active scratch 0)
      request.size readable (request.arranged content test 0) := by
  have tile : TileSort.Sound (⟨request.source, request.target, request.size, request.less⟩ :
      TileSort keyType valueType) := ⟨sound.covers, sound.targetRoom, sound.separate⟩
  rw [arranged_zero, active_even (Nat.zero_mod 2)]
  exact ⟨_, TileSort.fills sound.fits.positive sound.fits.lanes_le sound.fits.size_le tile
    ⟨finds, answers⟩ fun _ inside => Nat.le_of_lt (Grid.mul_lanes_lt sound.fits.positive inside)⟩

theorem Sound.fills_mergePass (answers : request.Answers content test) {pass : Nat}
    (inside : pass < request.passCount)
    (finds : request.Finds scratch content test memory (pass + 1)) :
    ∃ readable, (request.mergePass scratch pass (request.blockSize * 2 ^ pass)).kernel.Fills
      (Grid.covering request.size request.blockSize) memory
      (request.active scratch (pass + 1)) request.size readable
      (request.arranged content test (pass + 1)) := by
  have merge : RunMerge.Sound (⟨request.active scratch pass,
        request.active scratch (pass + 1), request.size, request.blockSize * 2 ^ pass,
        request.less⟩ : RunMerge keyType valueType) :=
    ⟨sound.room pass, sound.room (pass + 1), sound.apartActive pass⟩
  have here : min pass request.passCount = pass := Nat.min_eq_left (Nat.le_of_lt inside)
  have reads : RunMerge.Reads (⟨request.active scratch pass,
        request.active scratch (pass + 1), request.size, request.blockSize * 2 ^ pass,
        request.less⟩ : RunMerge keyType valueType) (request.arranged content test pass)
      (testAt test (arrangement test request.size request.blockSize pass)) memory := by
    refine ⟨finds, fun right left rightInside leftInside => ?_⟩
    rw [arranged, arranged, here]
    exact answers _ _ (arrangement_lt sound.fits pass rightInside)
      (arrangement_lt sound.fits pass leftInside)
  have fills := RunMerge.fills merge
    (Nat.mul_pos sound.fits.positive (Nat.two_pow_pos pass)) sound.fits.covering_le
    (RunMerge.fits_of_double sound.fits.double_le) reads
  have same : request.arranged content test (pass + 1) =
      RunMerge.output (request.arranged content test pass)
        (testAt test (arrangement test request.size request.blockSize pass)) request.size
        (request.blockSize * 2 ^ pass) request.blockSize := by
    funext position
    rw [arranged, Nat.min_eq_left inside, RunMerge.output, arranged, here]
    rfl
  rw [same]
  exact ⟨_, fills⟩

theorem Sound.fills_copyBack (odd : request.passCount % 2 = 1)
    (finds : request.Finds scratch content test memory (request.passCount + 1)) :
    ∃ readable, (request.copyBack scratch).kernel.Fills
      (Grid.covering request.size request.blockSize) memory
      (request.active scratch (request.passCount + 1)) request.size readable
      (request.arranged content test (request.passCount + 1)) := by
  have copy : Copy.Sound (⟨scratch, request.target, request.size⟩ :
      Copy keyType valueType) :=
    ⟨sound.scratchRoom, sound.targetRoom, sound.apart.symm⟩
  have found : ∀ position, position < request.size → scratch.get memory position =
      request.arranged content test (request.passCount + 1) position := by
    intro position inside
    have left := finds position inside
    rw [active_odd odd] at left
    rw [left, arranged, arranged, Nat.min_self, Nat.min_eq_right (Nat.le_succ _)]
  rw [active_even (show (request.passCount + 1) % 2 = 0 by omega)]
  exact ⟨_, Copy.fills copy sound.fits found⟩

/-- Each launch fills its place with what the sort has arranged by then. -/
theorem Sound.exists_fills (answers : request.Answers content test) {index : Nat}
    {stage : Stage} (found : (request.plan scratch).stages[index]? = some stage)
    (finds : request.Finds scratch content test memory index) :
    ∃ readable, stage.kernel.Fills (Grid.covering request.size request.blockSize) memory
      (request.active scratch index) request.size readable
      (request.arranged content test index) := by
  rcases stage_cases sound.fits.positive sound.fits.size_le found with
    ⟨rfl, rfl⟩ | ⟨pass, rfl, inside, rfl⟩ | ⟨rfl, odd, rfl⟩
  · exact sound.fills_tileSort answers finds
  · exact sound.fills_mergePass answers inside finds
  · exact sound.fills_copyBack odd finds

end Stages

theorem Sound.finds_succ (sound : request.Sound scratch) {index : Nat}
    (held : (request.active scratch index).SoundIn memory) :
    request.Finds scratch content test
      (memory.storeAll ((request.active scratch index).fill (List.range request.size)
        (request.arranged content test index))) (index + 1) :=
  fun _ inside => Pairs.get_storeAll_fill (sound.room index) held List.nodup_range
    (fun _ member => List.mem_range.mp member) _ (List.mem_range.mpr inside)

structure SoundIn (request : SortRequest keyType valueType) (scratch : Pairs keyType valueType)
    (memory : Memory) : Prop where
  sound : request.Sound scratch
  target : request.target.SoundIn memory
  scratch : scratch.SoundIn memory

theorem SoundIn.active (held : request.SoundIn scratch memory) (passes : Nat) :
    (request.active scratch passes).SoundIn memory := by
  unfold SortRequest.active
  split
  · exact held.target
  · exact held.scratch

theorem SoundIn.memoryBefore (held : request.SoundIn scratch memory) (index : Nat) :
    request.SoundIn scratch (request.memoryBefore scratch content test memory index) := by
  induction index with
  | zero => exact held
  | succ index ih => exact ⟨held.sound, ih.target.storeAll _, ih.scratch.storeAll _⟩

theorem sameShape_memoryBefore (memory : Memory) (index : Nat) :
    memory.SameShape (request.memoryBefore scratch content test memory index) := by
  induction index with
  | zero => exact fun _ => rfl
  | succ index ih => exact ih.trans (Memory.sameShape_storeAll _ _)

theorem SoundIn.finds (held : request.SoundIn scratch memory)
    (found : ∀ position, position < request.size →
      request.source.get memory position = content position) (index : Nat) :
    request.Finds scratch content test
      (request.memoryBefore scratch content test memory index) index := by
  cases index with
  | zero => exact found
  | succ index => exact held.sound.finds_succ ((held.memoryBefore index).active index)

end SortRequest

end GridSort
