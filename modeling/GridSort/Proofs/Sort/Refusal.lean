import GridSort.Proofs.Kernel.Refusal
import GridSort.Proofs.Sort.Ready

namespace GridSort

/-! Calls whose predicate refuses some keys. Every refused key is compared sooner or later, by the
first launch if there is another key in its window, and otherwise by the first pass that finds a
run beside it; until then it stays where it is. -/

open RunPair

/-- What a fault is known by: the text that was raised, if it was a text. -/
def Fault.ofPayload : Option String → Fault
  | some text => .raised text
  | none => .unexplained

/-! Elements that take no room share no bytes with anything. -/

section Unstored

variable {keyType valueType : ElementType} (keys : keyType.isStored = false)
  (values : valueType.isStored = false)

include keys in
theorem Slice.length_extent_of_unstored (slice : Slice keyType) : slice.extent.length = 0 := by
  change slice.length * keyType.size = 0
  rw [keyType.isStored_eq_false_iff.mp keys, Nat.mul_zero]

include keys values

theorem Pairs.apart_of_unstored (source target : Pairs keyType valueType) :
    source.Apart target :=
  ⟨Or.inl (source.keys.length_extent_of_unstored keys),
    Or.inl (source.keys.length_extent_of_unstored keys),
    Or.inl (source.values.length_extent_of_unstored values),
    Or.inl (source.values.length_extent_of_unstored values)⟩

theorem Source.separate_of_unstored (source : Source keyType valueType)
    (target : Pairs keyType valueType) (size : Nat) : source.Separate target size := by
  intro first _ _ _ _ region member _ _
  rw [Source.regions, values, if_neg Bool.false_ne_true, List.append_nil] at member
  cases input : source.keys with
  | counting start =>
      rw [input] at member
      nomatch member
  | slice held =>
      rw [input] at member
      rw [List.mem_singleton.mp member]
      exact Or.inl (keyType.isStored_eq_false_iff.mp keys)

end Unstored

namespace TileSort

/-- A position that has its window for itself keeps what it holds. -/
theorem origin_of_single {test : Nat → Nat → Bool} {size lanes position : Nat}
    (positive : 0 < lanes) (few : lanes ≤ Grid.maxLanes) (inside : position < size)
    (single : min lanes (size - position / lanes * lanes) ≤ 1) :
    origin test size lanes position = position := by
  have lane := tile_lt positive inside
  have place := Tile.order_lt (within test (position / lanes * lanes)) (tile_small few _) lane
  have fromOffset := Nat.div_mul_le_self position lanes
  unfold origin
  omega

theorem alone_of_single {size lanes position : Nat} (positive : 0 < lanes)
    (inside : position < size) (single : min lanes (size - position / lanes * lanes) ≤ 1) :
    Alone size lanes position := by
  intro other otherInside same
  have lane := tile_lt positive inside
  have otherLane := tile_lt positive otherInside
  have fromOffset := Nat.div_mul_le_self position lanes
  have otherFromOffset := Nat.div_mul_le_self other lanes
  rw [same] at otherLane otherFromOffset
  omega

end TileSort

theorem Alone.origin_eq {after : Nat → Nat → Bool} {size width place : Nat}
    (alone : Alone size width place) (positive : 0 < width) (inside : place < size)
    (lone : stop size width place ≤ mid size width place) (lanes : Nat) :
    MergePass.origin after size width lanes place = place := by
  obtain ⟨low, high⟩ := MergePass.origin_mem after lanes positive inside
  exact alone.eq_of_mem_pair positive inside lone low high

namespace SortRequest

variable {keyType valueType : ElementType} {request : SortRequest keyType valueType}
  {scratch : Pairs keyType valueType} {storage : Buffer .byte} {memory : Memory}
  {environment : Environment} {watched : Bool} {host : Host} {first : Nat}
  {refused : Element keyType → Prop} {test : Element keyType → Element keyType → Bool}
  {fault : Fault} {place : Nat}

/-- The positions that the first launch sorts along with the position. -/
def chunk (request : SortRequest keyType valueType) (position : Nat) : List Nat :=
  (⟨position / request.blockSize, request.grid⟩ : Group).window request.size

theorem mem_chunk (positive : 0 < request.blockSize) (inside : place < request.size) :
    place ∈ request.chunk place := by
  have division := Nat.div_add_mod place request.blockSize
  have remainder := Nat.mod_lt place positive
  refine Group.mem_window.mpr ⟨Nat.div_mul_le_self _ _, ?_, inside⟩
  change place < (place / request.blockSize + 1) * request.blockSize
  rw [Nat.succ_mul, Nat.mul_comm]
  omega

theorem length_chunk (place : Nat) : (request.chunk place).length =
    min request.blockSize (request.size - place / request.blockSize * request.blockSize) :=
  List.length_range'

/-- No refused key has company in its window of the first launch. -/
def KeepsApart (request : SortRequest keyType valueType) (memory : Memory)
    (refused : Element keyType → Prop) : Prop :=
  ∀ position, position < request.size → refused (request.source.get memory position).1 →
    (request.chunk position).length ≤ 1

/-- If the first key is refused, its window has no room for company. -/
theorem KeepsApart.blockSize_eq_one (apart : request.KeepsApart memory refused)
    (positive : 0 < request.blockSize) (several : 2 ≤ request.size)
    (hit : refused (request.source.get memory 0).1) : request.blockSize = 1 := by
  have alone := apart 0 (by omega) hit
  rw [length_chunk, Nat.zero_div, Nat.zero_mul, Nat.sub_zero] at alone
  omega

theorem passCount_pos (positive : 0 < request.blockSize) (word : request.size ≤ Size.largest)
    (narrow : request.blockSize < request.size) : 0 < request.passCount := by
  have wide : request.size ≤ request.blockSize * 2 ^ request.passCount :=
    Size.le_mul_two_pow_length positive word
  apply Nat.pos_of_ne_zero
  intro none
  rw [none, Nat.pow_zero, Nat.mul_one] at wide
  exact Nat.not_lt_of_le wide narrow

/-- The same call under a predicate that always answers. -/
def answering (request : SortRequest keyType valueType)
    (test : Element keyType → Element keyType → Bool) : SortRequest keyType valueType :=
  { request with less := .ofTest test }

/-- The answers of a test for the keys of the source. -/
def answersIn (request : SortRequest keyType valueType) (memory : Memory)
    (test : Element keyType → Element keyType → Bool) (left right : Nat) : Bool :=
  test (request.source.get memory left).1 (request.source.get memory right).1

/-- The memory before the launch with the number, if the predicate always answers. -/
def unrefused (request : SortRequest keyType valueType) (scratch : Pairs keyType valueType)
    (memory : Memory) (test : Element keyType → Element keyType → Bool) (index : Nat) : Memory :=
  (request.answering test).memoryBefore scratch (request.source.get memory)
    (request.answersIn memory test) memory index

theorem answers_answering : (request.answering test).Answers (request.source.get memory)
    (request.answersIn memory test) :=
  fun _ _ _ _ => rfl

theorem unrefused_one : request.unrefused scratch memory test 1 =
    memory.storeAll (request.target.fill (List.range request.size)
      (TileSort.output (request.source.get memory) (request.answersIn memory test) request.size
        request.blockSize)) := by
  rw [unrefused, memoryBefore, arranged_zero]
  rfl

theorem SoundIn.answering (held : request.SoundIn scratch memory)
    (test : Element keyType → Element keyType → Bool) :
    (request.answering test).SoundIn scratch memory :=
  ⟨⟨held.sound.fits, held.sound.covers, held.sound.targetRoom, held.sound.scratchRoom,
    held.sound.targetSeparate, held.sound.scratchSeparate, held.sound.apart,
    held.sound.separate⟩, held.target, held.scratch⟩

/-- What the first launch sorts, and where to. -/
def firstSort (request : SortRequest keyType valueType) : TileSort keyType valueType :=
  ⟨request.source, request.target, request.size, request.less⟩

def firstLaunch (request : SortRequest keyType valueType) (environment : Environment)
    (first : Nat) : Launch :=
  ⟨request.firstSort.kernel, request.grid, environment.order first⟩

section Launches

variable (calm : environment.Calm) (positive : 0 < request.blockSize)
include calm

theorem getElem?_launches_zero :
    (request.launches environment first scratch)[0]? =
      some (request.firstLaunch environment first) := by
  change some (HostM.made environment first request.tileSort.kernel request.grid) = _
  rw [HostM.made, calm.disturb]
  rfl

include positive

/-- A refused key that is a run of its own beside another run is the end of the pass. -/
theorem exists_run_passLaunch_of_refused (refuses : request.less.Refuses test refused fault)
    {pass : Nat} (sound : (request.passMerge scratch pass).Sound)
    (fits : (request.passMerge scratch pass).Fits)
    (words : request.grid.groups * request.grid.lanes ≤ Size.largest)
    (inside : place < request.size)
    (alone : Alone request.size (request.blockSize * 2 ^ pass) place)
    (sibling : mid request.size (request.blockSize * 2 ^ pass) place <
      stop request.size (request.blockSize * 2 ^ pass) place)
    (hit : refused ((request.active scratch pass).get memory place).1) :
    ∃ final, (request.passLaunch environment first scratch pass).run memory =
      (some fault, final) :=
  RunMerge.exists_runGroups_of_refused refuses sound fits
    (Nat.mul_pos positive (Nat.two_pow_pos pass)) positive words
    (Size.le_roundUp request.size positive) (Dvd.dvd.mul_left (Nat.dvd_mul_right _ _) 2)
    (calm.order _ _) inside alone sibling hit

end Launches

theorem run_passLaunch_cases (refuses : request.less.Refuses test refused fault) (pass : Nat)
    (memory : Memory) :
    (∃ final, (request.passLaunch environment first scratch pass).run memory =
        (some fault, final)) ∨
      (request.passLaunch environment first scratch pass).run memory =
        ((request.answering test).passLaunch environment first scratch pass).run memory := by
  have each : ∀ id, fault.MayStop ((request.passMerge scratch pass).program ⟨id, request.grid⟩)
      (((request.passMerge scratch pass).answering test).program ⟨id, request.grid⟩) :=
    fun id => RunMerge.mayStop_program refuses ⟨id, request.grid⟩
  exact Launch.runGroups_of_mayStop (fun id _ => each id) memory

section FirstLaunch

variable (calm : environment.Calm) (positive : 0 < request.blockSize)
  (few : request.blockSize ≤ Grid.maxLanes) (word : request.size ≤ Size.largest)
  (sound : request.firstSort.Sound) (refuses : request.less.Refuses test refused fault)
include calm positive few word sound refuses

theorem exists_run_firstLaunch_of_refused (inside : place < request.size)
    (several : 2 ≤ (request.chunk place).length)
    (hit : refused (request.source.get memory place).1) :
    ∃ final, (request.firstLaunch environment first).run memory = (some fault, final) := by
  have covered : request.size ≤ request.grid.groups * request.grid.lanes :=
    Size.le_roundUp request.size positive
  have present : place / request.blockSize < request.grid.groups := by
    apply Nat.div_lt_of_lt_mul
    rw [Nat.mul_comm]
    exact Nat.lt_of_lt_of_le inside covered
  exact TileSort.exists_runGroups_of_refused positive few word sound refuses
    (fun _ within => Nat.le_of_lt (Grid.mul_lanes_lt positive within)) (calm.order _ _) present
    several (mem_chunk positive inside) hit

theorem run_firstLaunch_of_single (room : request.target.HasRoom request.size)
    (separate : request.target.keys.extent.Disjoint request.target.values.extent)
    (single : request.KeepsApart memory refused) :
    (request.firstLaunch environment first).run memory =
      (none, memory.storeAll (request.target.fill (List.range request.size)
        (TileSort.output (request.source.get memory) (request.answersIn memory test) request.size
          request.blockSize))) := by
  have fills : request.firstSort.kernel.Fills (Grid.covering request.size request.blockSize) memory
      request.target request.size (request.firstSort.readsWindow request.grid)
      (TileSort.output (request.source.get memory) (request.answersIn memory test) request.size
        request.blockSize) := by
    refine TileSort.fills_of_refused positive few word sound refuses
      (fun _ within => Nat.le_of_lt (Grid.mul_lanes_lt positive within)) ?_
    intro id _ position member hit
    have here : position / request.blockSize = id := Group.id_eq_of_mem_window member
    have alone := single position (Group.lt_of_mem_window member) hit
    rwa [chunk, here] at alone
  exact fills.runGroups_covering positive room separate (calm.order _ _)

theorem runAll_take_one_of_single (room : request.target.HasRoom request.size)
    (separate : request.target.keys.extent.Disjoint request.target.values.extent)
    (single : request.KeepsApart memory refused) :
    Launch.runAll ((request.launches environment first scratch).take 1) memory =
      (none, request.unrefused scratch memory test 1) := by
  have ran : (request.firstLaunch environment first).run memory = _ :=
    run_firstLaunch_of_single calm positive few word sound refuses room separate single
  have reached : Launch.runAll ((request.launches environment first scratch).take 0) memory =
      (none, memory) := rfl
  rw [Launch.runAll_take_succ (getElem?_launches_zero calm) reached, unrefused_one]
  exact Launch.runAll_cons_of_none ran []

end FirstLaunch

/-- Before the launch with the number everything has gone as under a predicate that always
answers, and the place has been a run of its own. -/
structure Untouched (request : SortRequest keyType valueType) (environment : Environment)
    (first : Nat) (scratch : Pairs keyType valueType) (memory : Memory)
    (test : Element keyType → Element keyType → Bool) (place passes : Nat) : Prop where
  ran : Launch.runAll ((request.launches environment first scratch).take (passes + 1)) memory =
    (none, request.unrefused scratch memory test (passes + 1))
  stays : arrangement (request.answersIn memory test) request.size request.blockSize passes place =
    place
  alone : Alone request.size (request.blockSize * 2 ^ passes) place

section Passes

variable (held : request.SoundIn scratch memory)
  (refuses : request.less.Refuses test refused fault) (calm : environment.Calm)
  (inside : place < request.size) (hit : refused (request.source.get memory place).1)
include held calm

theorem SoundIn.run_passLaunch_answering {pass : Nat} (within : pass < request.passCount) :
    ((request.answering test).passLaunch environment first scratch pass).run
        (request.unrefused scratch memory test (pass + 1)) =
      (none, request.unrefused scratch memory test (pass + 2)) := by
  have answering := held.answering test
  have answeringWithin : pass < (request.answering test).passCount := within
  exact answering.run_launch answers_answering (fun _ _ => rfl) calm
    (getElem?_launches_pass calm answering.sound.fits.positive answering.sound.fits.size_le
      answeringWithin)

include refuses inside hit

/-- The first pass that finds a run beside the place is the last one. -/
theorem Untouched.pass {pass : Nat} (within : pass < request.passCount)
    (untouched : request.Untouched environment first scratch memory test place pass) :
    (∃ final, Launch.runAll ((request.launches environment first scratch).take (pass + 2)) memory =
        (some (.kernelFault "block_merge" fault), final)) ∨
      request.Untouched environment first scratch memory test place (pass + 1) := by
  obtain ⟨ran, stays, alone⟩ := untouched
  have fits := held.sound.fits
  have positive : 0 < request.blockSize * 2 ^ pass :=
    Nat.mul_pos fits.positive (Nat.two_pow_pos pass)
  rw [Launch.runAll_take_succ (getElem?_launches_pass calm fits.positive fits.size_le within) ran]
  by_cases sibling : mid request.size (request.blockSize * 2 ^ pass) place <
      stop request.size (request.blockSize * 2 ^ pass) place
  · left
    have holds : (request.active scratch pass).get
        (request.unrefused scratch memory test (pass + 1)) place =
          request.source.get memory (arrangement (request.answersIn memory test) request.size
            request.blockSize (min pass request.passCount) place) :=
      (held.answering test).finds (fun _ _ => rfl) (pass + 1) place inside
    rw [Nat.min_eq_left (Nat.le_of_lt within), stays] at holds
    obtain ⟨final, stopped⟩ := exists_run_passLaunch_of_refused calm fits.positive refuses
      ⟨held.sound.room pass, held.sound.room (pass + 1), held.sound.apartActive pass⟩
      (RunMerge.fits_of_double fits.double_le) fits.covering_le inside alone sibling (holds ▸ hit)
    exact ⟨final, Launch.runAll_cons_of_some stopped []⟩
  · have lone := Nat.le_of_not_lt sibling
    rcases run_passLaunch_cases refuses pass (request.unrefused scratch memory test (pass + 1)) with
      ⟨final, stopped⟩ | same
    · exact Or.inl ⟨final, Launch.runAll_cons_of_some stopped []⟩
    · have next : ((request.answering test).passLaunch environment first scratch pass).run _ = _ :=
        held.run_passLaunch_answering calm within
      refine Or.inr ⟨?_, ?_, ?_⟩
      · rw [Launch.runAll_take_succ (getElem?_launches_pass calm fits.positive fits.size_le within)
          ran]
        exact Launch.runAll_cons_of_none (same.trans next) []
      · rw [arrangement, alone.origin_eq positive inside lone, stays]
      · rw [Nat.pow_succ, Nat.mul_comm (2 ^ pass) 2, Nat.mul_left_comm]
        exact alone.double positive inside lone

theorem exists_pass_of_untouched
    (started : request.Untouched environment first scratch memory test place 0) {passes : Nat}
    (most : passes ≤ request.passCount) :
    (∃ pass before final, Launch.runAll
          ((request.launches environment first scratch).take (pass + 1)) memory = (none, before) ∧
        Launch.runAll ((request.launches environment first scratch).take (pass + 2)) memory =
          (some (.kernelFault "block_merge" fault), final)) ∨
      request.Untouched environment first scratch memory test place passes := by
  induction passes with
  | zero => exact Or.inr started
  | succ passes ih =>
      rcases ih (Nat.le_of_succ_le most) with earlier | untouched
      · exact Or.inl earlier
      · rcases untouched.pass held refuses calm inside hit most with ⟨final, stopped⟩ | next
        · exact Or.inl ⟨passes, _, final, untouched.ran, stopped⟩
        · exact Or.inr next

/-- After the last pass nothing is a run of its own, unless it is all there is. -/
theorem SoundIn.exists_pass_of_refused (several : 2 ≤ request.size)
    (single : request.KeepsApart memory refused) :
    ∃ pass before final, Launch.runAll
        ((request.launches environment first scratch).take (pass + 1)) memory = (none, before) ∧
      Launch.runAll ((request.launches environment first scratch).take (pass + 2)) memory =
        (some (.kernelFault "block_merge" fault), final) := by
  have fits := held.sound.fits
  have alone := single place inside hit
  rw [length_chunk] at alone
  have started : request.Untouched environment first scratch memory test place 0 := by
    refine ⟨?_, ?_, ?_⟩
    · exact runAll_take_one_of_single calm fits.positive fits.lanes_le fits.size_le
        ⟨held.sound.covers, held.sound.targetRoom, held.sound.separate⟩ refuses
        held.sound.targetRoom held.sound.targetSeparate single
    · exact TileSort.origin_of_single fits.positive fits.lanes_le inside alone
    · rw [Nat.pow_zero, Nat.mul_one]
      exact TileSort.alone_of_single fits.positive inside alone
  rcases exists_pass_of_untouched held refuses calm inside hit started (Nat.le_refl _) with
    faulted | untouched
  · exact faulted
  · have wide : request.size ≤ request.blockSize * 2 ^ request.passCount :=
      Size.le_mul_two_pow_length fits.positive fits.size_le
    have := untouched.alone.size_le_one inside wide
    omega

end Passes

namespace Ready

variable (ready : request.Ready storage memory)
  (refuses : request.less.Refuses test refused fault) (calm : environment.Calm)
  (healthy : host.Settles memory)
include ready

theorem separate : request.source.Separate request.target request.size := by
  rcases ready.small_or_unstored ready.bounded with small | ⟨keys, values⟩
  · exact (ready.admits small).separate
  · exact Source.separate_of_unstored keys values _ _ _

theorem firstSort : request.firstSort.Sound := ⟨ready.covers, ready.room, ready.separate⟩

include refuses calm healthy

theorem exists_execute_of_meeting (waits : environment.Waits watched)
    (inside : place < request.size) (several : 2 ≤ (request.chunk place).length)
    (hit : refused (request.source.get memory place).1) :
    ∃ after, (request.execute environment watched storage).outcome host =
      (.error (.kernelFault "block_sort" fault), after) := by
  obtain ⟨layout, accepted⟩ := ready.exists_accepted (Nat.ne_of_gt (Nat.zero_lt_of_lt inside))
  have valid := isValid_grid (Nat.zero_lt_of_lt inside) ready.positive ready.few
  obtain ⟨final, stopped⟩ : ∃ final, (request.firstLaunch environment host.attempts.size).run
      memory = (some fault, final) :=
    exists_run_firstLaunch_of_refused calm ready.positive ready.few ready.word ready.firstSort
      refuses inside several hit
  have reached : Launch.runAll ((request.launches environment host.attempts.size
      (request.scratchIn storage layout)).take 0) memory = (none, memory) := rfl
  have faults : Launch.runAll ((request.launches environment host.attempts.size
      (request.scratchIn storage layout)).take (0 + 1)) memory =
        (some (.kernelFault "block_sort" fault), final) := by
    rw [Launch.runAll_take_succ (getElem?_launches_zero calm) reached]
    exact Launch.runAll_cons_of_some stopped []
  obtain ⟨after, outcome, -⟩ :=
    accepted.exists_execute_of_fault valid calm waits healthy reached faults
  exact ⟨after, outcome⟩

omit healthy

/-- Elements that take no room are all refused, so groups have one lane, and the first pass
compares the first two. -/
theorem exists_pass_of_unstored (keys : keyType.isStored = false)
    (values : valueType.isStored = false) (scratchRoom : scratch.HasRoom request.size)
    (several : 2 ≤ request.size) (hit : refused (request.source.get memory place).1)
    (single : request.KeepsApart memory refused) :
    ∃ before final,
      Launch.runAll ((request.launches environment first scratch).take 1) memory =
        (none, before) ∧
      Launch.runAll ((request.launches environment first scratch).take 2) memory =
        (some (.kernelFault "block_merge" fault), final) := by
  have everywhere : ∀ key, refused key := fun key =>
    Element.eq_of_not_isStored keys _ key ▸ hit
  have one := single.blockSize_eq_one ready.positive several (everywhere _)
  have word := ready.word
  have reached : Launch.runAll ((request.launches environment first scratch).take (0 + 1)) memory =
      (none, request.unrefused scratch memory test 1) :=
    runAll_take_one_of_single calm ready.positive ready.few word ready.firstSort refuses
      ready.room ready.outputsApart single
  have within := passCount_pos ready.positive word (one ▸ several)
  have words : request.grid.groups * request.grid.lanes ≤ Size.largest := by
    have rounded : request.grid.groups * request.grid.lanes < request.size + request.blockSize :=
      Size.roundUp_lt request.size ready.positive
    omega
  have width : request.blockSize * 2 ^ 0 = 1 := by rw [one, Nat.pow_zero, Nat.mul_one]
  have sibling : mid request.size (request.blockSize * 2 ^ 0) 0 <
      stop request.size (request.blockSize * 2 ^ 0) 0 := by
    rw [width, mid, stop, base]
    omega
  have room := room_active ready.room scratchRoom
  obtain ⟨final, stopped⟩ : ∃ final, (request.passLaunch environment first scratch 0).run
      (request.unrefused scratch memory test 1) = (some fault, final) :=
    exists_run_passLaunch_of_refused calm ready.positive refuses
      ⟨room 0, room 1, Pairs.apart_of_unstored keys values _ _⟩
      (RunMerge.fits_of_single width word) words (Nat.lt_of_lt_of_le Nat.zero_lt_two several)
      (width ▸ Alone.of_single _ _) sibling (everywhere _)
  refine ⟨_, final, reached, ?_⟩
  rw [Launch.runAll_take_succ (getElem?_launches_pass calm ready.positive word within) reached]
  exact Launch.runAll_cons_of_some stopped []

/-- Where a refused key has company in no window of the first launch, a merge pass meets it. -/
theorem exists_pass_of_refused {layout : Layout}
    (accepted : request.Accepted storage layout (request.scratchIn storage layout))
    (inside : place < request.size)
    (several : 2 ≤ request.size) (hit : refused (request.source.get memory place).1)
    (single : request.KeepsApart memory refused) :
    ∃ pass before final, Launch.runAll ((request.launches environment first
          (request.scratchIn storage layout)).take (pass + 1)) memory = (none, before) ∧
      Launch.runAll ((request.launches environment first
          (request.scratchIn storage layout)).take (pass + 2)) memory =
        (some (.kernelFault "block_merge" fault), final) := by
  rcases ready.small_or_unstored ready.bounded with small | ⟨keys, values⟩
  · exact (ready.toLocated.soundIn accepted (ready.fits small)).exists_pass_of_refused refuses calm
      inside hit several single
  · exact ⟨0, ready.exists_pass_of_unstored refuses calm keys values
      ⟨Nat.le_refl _, fun _ => Nat.le_refl _⟩ several hit single⟩

include healthy

theorem exists_execute_of_alone (waits : environment.Waits watched) (inside : place < request.size)
    (several : 2 ≤ request.size) (hit : refused (request.source.get memory place).1)
    (single : request.KeepsApart memory refused) :
    ∃ after, (request.execute environment watched storage).outcome host =
      (.error (.kernelFault "block_merge" fault), after) := by
  obtain ⟨layout, accepted⟩ := ready.exists_accepted (Nat.ne_of_gt (Nat.zero_lt_of_lt inside))
  have valid := isValid_grid (Nat.zero_lt_of_lt inside) ready.positive ready.few
  obtain ⟨pass, before, final, reached, faults⟩ :=
    ready.exists_pass_of_refused refuses calm accepted inside several hit single
  obtain ⟨after, outcome, -⟩ :=
    accepted.exists_execute_of_fault valid calm waits healthy reached faults
  exact ⟨after, outcome⟩

theorem exists_execute_of_one (one : request.size = 1) (watched : Bool) :
    ∃ after, (request.execute environment watched storage).outcome host = (.ok (), after) := by
  have nonempty : request.size ≠ 0 := one ▸ Nat.one_ne_zero
  obtain ⟨layout, accepted⟩ := ready.exists_accepted nonempty
  have valid := isValid_grid (Nat.pos_of_ne_zero nonempty) ready.positive ready.few
  have single : request.KeepsApart memory refused := by
    intro position _ _
    rw [length_chunk, one]
    omega
  have ran : Launch.runAll ((request.launches environment host.attempts.size
      (request.scratchIn storage layout)).take 1) memory = _ :=
    runAll_take_one_of_single calm ready.positive ready.few ready.word ready.firstSort refuses
      ready.room ready.outputsApart single
  have length : (request.launches environment host.attempts.size
      (request.scratchIn storage layout)).length = 1 := by
    rw [length_launches, length_stages_plan, passCount, passWidths,
      Size.doublings_of_le (one ▸ ready.positive)]
    rfl
  rw [List.take_of_length_le (Nat.le_of_eq length)] at ran
  obtain ⟨after, outcome, -⟩ := accepted.exists_execute valid calm healthy ran watched
  exact ⟨after, outcome⟩

theorem exists_execute_of_not_refused (small : request.size < 2 ^ 63)
    (absent : ∀ position, position < request.size →
      ¬refused (request.source.get memory position).1) (watched : Bool) :
    ∃ after, (request.execute environment watched storage).outcome host = (.ok (), after) := by
  have answers : request.Answers (request.source.get memory) (request.answersIn memory test) :=
    fun first second hfirst hsecond =>
      refuses.answers _ _ (absent first hfirst) (absent second hsecond)
  obtain ⟨final, -, succeeds⟩ := (ready.admits small).exists_final answers
  obtain ⟨after, outcome, -⟩ := succeeds environment watched host calm healthy
  exact ⟨after, outcome⟩

end Ready

/-- How a call ends whose predicate faults on the marked key: by the launch that first compares
an occurrence of it, or well if there is nothing to compare it with. -/
def refusal (request : SortRequest keyType valueType) (memory : Memory)
    (marked : Element keyType) (fault : Fault) : Except Failure Unit :=
  if 2 ≤ request.size ∧
      ∃ position, position < request.size ∧ request.source.keys.get memory position = marked then
    if ∃ position, position < request.size ∧
        request.source.keys.get memory position = marked ∧
        2 ≤ (request.chunk position).length then
      .error (.kernelFault "block_sort" fault)
    else .error (.kernelFault "block_merge" fault)
  else .ok ()

variable {test : Element keyType → Element keyType → Bool} {marked : Element keyType}

/-- Every occurrence of a key is compared, and nothing but keys is: a predicate that raises a
payload whenever it is given the marked key, and otherwise answers as it likes, ends the call in
a fault of the first launch if some occurrence shares its window there, and otherwise of a merge;
never in a fault of the copy. Without an occurrence, or with a single element, the call
succeeds. -/
theorem refused_keys_fault (ready : request.Ready storage memory) {payload : Option String}
    (refuses : request.less = (Predicate.ofTest test).refusing marked (.ofPayload payload))
    (calm : environment.Calm) (waits : environment.Waits watched) (healthy : host.Settles memory) :
    (∃ after, (request.execute environment watched storage).outcome host =
      (request.refusal memory marked (.ofPayload payload), after)) ∧
    (Fault.ofPayload payload).message = payload.getD "unknown fault" := by
  have refuses : request.less.Refuses test (· = marked) (.ofPayload payload) :=
    refuses ▸ Predicate.refuses_refusing test marked _
  refine ⟨?_, ?_⟩
  · unfold refusal
    split
    case isTrue occurs =>
      obtain ⟨several, place, inside, hit⟩ := occurs
      split
      case isTrue meets =>
        obtain ⟨position, within, found, company⟩ := meets
        exact ready.exists_execute_of_meeting refuses calm healthy waits within company found
      case isFalse apart =>
        refine ready.exists_execute_of_alone refuses calm healthy waits inside several hit ?_
        intro position within found
        exact Nat.le_of_lt_succ (Nat.lt_of_not_le fun company =>
          apart ⟨position, within, found, company⟩)
    case isFalse uncompared =>
      by_cases several : 2 ≤ request.size
      · have absent : ∀ position, position < request.size →
            (request.source.get memory position).1 ≠ marked :=
          fun position within found => uncompared ⟨several, position, within, found⟩
        have small : request.size < 2 ^ 63 := by
          refine (ready.small_or_unstored ready.bounded).resolve_right fun unstored => ?_
          exact absent 0 (Nat.lt_of_lt_of_le Nat.zero_lt_two several)
            (Element.eq_of_not_isStored unstored.1 _ _)
        exact ready.exists_execute_of_not_refused refuses calm healthy small absent watched
      · rcases Nat.eq_zero_or_pos request.size with empty | positive
        · exact ⟨host, outcome_execute_of_empty empty environment watched host⟩
        · exact ready.exists_execute_of_one refuses calm healthy (by omega) watched
  · cases payload with
    | none => rfl
    | some text => rfl

end SortRequest

namespace SmallCall

/-- The last of the three keys has a window for itself. -/
def refusing (marked : Element .byte) (payload : Option String) :
    SortRequest .byte indexType :=
  { request with less := Predicate.less.refusing marked (.ofPayload payload) }

theorem ready_refusing (marked : Element .byte) (payload : Option String) :
    (refusing marked payload).Ready storage memory := { ready with }

end SmallCall

namespace SortRequest

theorem refused_keys_fault_small :
    (∃ after, ((SmallCall.refusing 3 (some "unfit")).execute .prompt true
          SmallCall.storage).outcome SmallCall.host =
        (.error (.kernelFault "block_sort" (.raised "unfit")), after)) ∧
      (∃ after, ((SmallCall.refusing 2 none).execute .prompt true
          SmallCall.storage).outcome SmallCall.host =
        (.error (.kernelFault "block_merge" .unexplained), after)) ∧
      ∃ after, ((SmallCall.refusing 9 none).execute .prompt true
          SmallCall.storage).outcome SmallCall.host = (.ok (), after) := by
  have ends : ∀ marked payload, ∃ after, ((SmallCall.refusing marked payload).execute .prompt true
      SmallCall.storage).outcome SmallCall.host =
        ((SmallCall.refusing marked payload).refusal SmallCall.memory marked (.ofPayload payload),
          after) := fun marked payload =>
    (refused_keys_fault (SmallCall.ready_refusing marked payload) rfl Environment.calm_prompt
      (Or.inl rfl) SmallCall.settles).1
  refine ⟨?_, ?_, ?_⟩
  · exact ends 3 (some "unfit")
  · exact ends 2 none
  · exact ends 9 none

end SortRequest

end GridSort
