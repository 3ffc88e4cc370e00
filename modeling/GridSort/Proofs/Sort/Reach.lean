import GridSort.Proofs.Sort.Overflow
import GridSort.Proofs.Sort.Ready

namespace GridSort

/-! Which calls succeed. Where no merge pass searches beyond the last word, every call whose
predicate answers does; where one searches there, the call ends in its fault. There is no such pass
with elements that take room, and none up to half of what a word can count. -/

namespace Launch

variable {kernel : Kernel} {grid : Grid} {writable : Region → Prop} {fault : Fault}
  {error : Failure}

/-- Where each group runs to its end or faults, whatever it finds, and one faults, the launch
does. -/
theorem exists_runGroups_of_stuck {order : List Nat}
    (each : ∀ id ∈ order,
      (kernel.run ⟨id, grid⟩).Keeps writable (fun _ => False) (fun _ => True) ∨
        ∀ memory, (kernel.run ⟨id, grid⟩).FaultsAt memory fault)
    {id : Nat} (present : id ∈ order)
    (stuck : ∀ memory, (kernel.run ⟨id, grid⟩).FaultsAt memory fault) (memory : Memory) :
    ∃ final, runGroups kernel grid order memory = (some fault, final) := by
  -- Whatever the groups before it store, the one that is stuck is either reached or not needed.
  induction order generalizing memory with
  | nil => cases present
  | cons first rest ih =>
      obtain ⟨here, others⟩ := List.forall_mem_cons.mp each
      rw [runGroups]
      cases ran : (kernel.run ⟨first, grid⟩).run memory with
      | mk result middle =>
          cases result with
          | error cause =>
              rcases here with keeps | stops
              · have ended := (keeps.run memory).2
                rw [ran] at ended
                exact ended.elim
              · have stopped := stops memory
                rw [Program.FaultsAt, ran] at stopped
                cases stopped
                exact ⟨middle, rfl⟩
          | ok value =>
              have later : id ∈ rest := by
                rcases List.mem_cons.mp present with rfl | later
                · have stopped := stuck memory
                  rw [Program.FaultsAt, ran] at stopped
                  cases stopped
                · exact later
              exact ih others later middle

/-- Launches of which each is safe or faults with the same error, and one faults. -/
theorem exists_runAll_of_stuck {launches : List Launch}
    (each : ∀ launch ∈ launches, launch.Safe writable ∨
      ∀ memory, ∃ final, runAll [launch] memory = (some error, final))
    {launch : Launch} (present : launch ∈ launches)
    (stuck : ∀ memory, ∃ final, runAll [launch] memory = (some error, final))
    (memory : Memory) : ∃ final, runAll launches memory = (some error, final) := by
  induction launches generalizing memory with
  | nil => cases present
  | cons first rest ih =>
      obtain ⟨here, others⟩ := List.forall_mem_cons.mp each
      rcases here with safe | stops
      · obtain ⟨middle, ran, -⟩ := exists_run_of_safe safe memory
        rw [runAll_cons_of_none ran]
        have later : launch ∈ rest := by
          rcases List.mem_cons.mp present with rfl | later
          · obtain ⟨final, stopped⟩ := stuck memory
            rw [runAll_cons_of_none ran] at stopped
            cases stopped
          · exact later
        exact ih others later middle
      · obtain ⟨final, stopped⟩ := stops memory
        exact ⟨final, runAll_append_of_some stopped rest⟩

end Launch

namespace SortRequest

variable {keyType valueType : ElementType} {request : SortRequest keyType valueType}
  {storage : Buffer .byte} {layout : Layout} {scratch : Pairs keyType valueType}
  {environment : Environment} {memory : Memory} {first : Nat}

/-- No group of a merge pass begins where a sum of the search for its window is no word. -/
def InReach (request : SortRequest keyType valueType) : Prop :=
  ∀ pass, pass < request.passCount → ∀ id, id < request.grid.groups →
    ¬RunPair.Overreaches request.size (request.blockSize * 2 ^ pass) (id * request.blockSize)

theorem inReach_of_half (positive : 0 < request.blockSize) (half : request.size ≤ 2 ^ 63) :
    request.InReach := fun _ _ _ present =>
  RunPair.not_overreaches (show 2 * request.size ≤ 2 ^ 64 by omega)
    (Grid.mul_lanes_lt positive present) _

/-- The fault of a call that is not in reach. -/
def beyondReach : Failure := .kernelFault "block_merge" (.overflow .add)

/-- Whatever goes on around it, a call succeeds. -/
def Succeeds (request : SortRequest keyType valueType) (storage : Buffer .byte)
    (memory : Memory) : Prop :=
  ∀ (environment : Environment) (watched : Bool) (host : Host), environment.Calm →
    host.Settles memory → ∃ after rested,
      (request.execute environment watched storage).outcome host = (.ok (), after) ∧
        (HostM.synchronize environment).outcome after = (.ok (), rested)

/-- Whatever goes on around it, a call ends in a sum that is no word. A caller who waits for each
launch is told by the call, and any other one at the latest by waiting after it. -/
def Overflows (request : SortRequest keyType valueType) (storage : Buffer .byte)
    (memory : Memory) : Prop :=
  ∀ (environment : Environment) (watched : Bool) (host : Host), environment.Calm →
    host.Settles memory → ∃ result after rested,
      (request.execute environment watched storage).outcome host = (result, after) ∧
        (result = .ok () ∨ result = .error beyondReach) ∧
        (environment.Waits watched → result = .error beyondReach) ∧
        (HostM.synchronize environment).outcome after = (.error beyondReach, rested)

/-- Whatever goes on around it, a call that succeeds leaves these pairs in the output. -/
def Leaves (request : SortRequest keyType valueType) (storage : Buffer .byte)
    (memory : Memory) (pairs : List (Element keyType × Element valueType)) : Prop :=
  ∀ (environment : Environment) (watched : Bool) (host : Host), environment.Calm →
    host.Settles memory → ∀ after rested,
      (request.execute environment watched storage).outcome host = (.ok (), after) →
        (HostM.synchronize environment).outcome after = (.ok (), rested) →
          (List.range request.size).map (request.target.get rested.device.memory) = pairs

section Launches

variable (accepted : request.Accepted storage layout scratch)
  (few : request.blockSize ≤ Grid.maxLanes) (word : request.size ≤ Size.largest)
include accepted word

/-- A pass of which a group is beyond reach faults, as long as no other fault can occur. -/
theorem Accepted.exists_run_passLaunch (known : request.less.FaultsWithin fun _ => False)
    (calm : environment.Calm) {pass id : Nat} (present : id < request.grid.groups)
    (reaches : RunPair.Overreaches request.size (request.blockSize * 2 ^ pass)
      (id * request.blockSize)) (memory : Memory) :
    ∃ final, (request.passLaunch environment first scratch pass).run memory =
      (some (.overflow .add), final) := by
  have positive := accepted.positive
  have room := room_active accepted.targetRoom accepted.scratchRoom
  have complete := calm.order (first + (pass + 1)) request.grid.groups
  have each : ∀ id ∈ environment.order (first + (pass + 1)) request.grid.groups,
      ((request.passMerge scratch pass).kernel.run ⟨id, request.grid⟩).Keeps
          (request.Writable scratch) (fun _ => False) (fun _ => True) ∨
        ∀ memory, ((request.passMerge scratch pass).kernel.run ⟨id, request.grid⟩).FaultsAt
          memory (.overflow .add) := by
    intro id listed
    have begun := Grid.mul_lanes_lt positive (List.mem_range.mp (complete.mem_iff.mp listed))
    by_cases within : RunPair.Overreaches request.size (request.blockSize * 2 ^ pass)
        (id * request.blockSize)
    · exact Or.inr (faultsAt_mergePass accepted word begun within)
    · exact Or.inl (RunMerge.keeps_program known (room pass) (room (pass + 1))
        (writable_active (pass + 1)) word (Nat.mul_pos positive (Nat.two_pow_pos pass)) begun
        within)
  exact Launch.exists_runGroups_of_stuck each
    (complete.mem_iff.mpr (List.mem_range.mpr present))
    (faultsAt_mergePass accepted word (Grid.mul_lanes_lt positive present) reaches) memory

variable (covers : request.source.Covers request.size)
  (known : request.less.FaultsWithin fun _ => False) (calm : environment.Calm)
include few covers known calm

/-- A launch of which no group is beyond reach is safe. -/
theorem Accepted.safe_launch {index : Nat} {launch : Launch}
    (listed : (request.launches environment first scratch)[index]? = some launch)
    (within : ∀ pass, pass < request.passCount → index = pass + 1 →
      ∀ id, id < request.grid.groups → ¬RunPair.Overreaches request.size
        (request.blockSize * 2 ^ pass) (id * request.blockSize)) :
    launch.Safe (request.Writable scratch) := by
  obtain ⟨stage, planned, rfl⟩ := exists_stage calm listed
  intro id member
  have present := List.mem_range.mp ((calm.order _ _).mem_iff.mp member)
  exact keeps_stage known (Source.not_misses covers) few word accepted.targetRoom
    accepted.positive accepted.scratchRoom planned (Grid.mul_lanes_lt accepted.positive present)
    fun pass inside here => within pass inside here id present

theorem Accepted.exists_runAll_of_inReach (inReach : request.InReach) (first : Nat)
    (memory : Memory) :
    ∃ final, Launch.runAll (request.launches environment first scratch) memory =
      (none, final) := by
  have safe : ∀ launch ∈ request.launches environment first scratch,
      launch.Safe (request.Writable scratch) := by
    intro launch member
    obtain ⟨index, listed⟩ := List.getElem?_of_mem member
    exact accepted.safe_launch few word covers known calm listed
      fun pass inside _ => inReach pass inside
  obtain ⟨final, runs, -⟩ := Launch.exists_runAll_of_safe safe memory
  exact ⟨final, runs⟩

theorem Accepted.exists_runAll_of_not_inReach (beyond : ¬request.InReach) (first : Nat)
    (memory : Memory) :
    ∃ final, Launch.runAll (request.launches environment first scratch) memory =
      (some beyondReach, final) := by
  have passes {pass : Nat} (inside : pass < request.passCount) :
      (request.launches environment first scratch)[pass + 1]? =
        some (request.passLaunch environment first scratch pass) :=
    getElem?_launches_pass calm accepted.positive word inside
  have stuck {pass id : Nat} (present : id < request.grid.groups)
      (reaches : RunPair.Overreaches request.size (request.blockSize * 2 ^ pass)
        (id * request.blockSize)) (memory : Memory) :
      ∃ final, Launch.runAll [request.passLaunch environment first scratch pass] memory =
        (some beyondReach, final) := by
    obtain ⟨final, ran⟩ :=
      accepted.exists_run_passLaunch word known calm present reaches memory
    exact ⟨final, Launch.runAll_cons_of_some ran []⟩
  have each : ∀ launch ∈ request.launches environment first scratch,
      launch.Safe (request.Writable scratch) ∨
        ∀ memory, ∃ final, Launch.runAll [launch] memory = (some beyondReach, final) := by
    intro launch member
    obtain ⟨index, listed⟩ := List.getElem?_of_mem member
    by_cases within : ∀ pass, pass < request.passCount → index = pass + 1 →
        ∀ id, id < request.grid.groups → ¬RunPair.Overreaches request.size
          (request.blockSize * 2 ^ pass) (id * request.blockSize)
    · exact Or.inl (accepted.safe_launch few word covers known calm listed within)
    · simp only [not_forall, not_not] at within
      obtain ⟨pass, inside, rfl, id, present, reaches⟩ := within
      rw [passes inside, Option.some.injEq] at listed
      subst listed
      exact Or.inr (stuck present reaches)
  simp only [InReach, not_forall, not_not] at beyond
  obtain ⟨pass, inside, id, present, reaches⟩ := beyond
  exact Launch.exists_runAll_of_stuck each (List.mem_of_getElem? (passes inside))
    (stuck present reaches) memory

end Launches

namespace Ready

variable (ready : request.Ready storage memory)
include ready

/-- Up to half of the words, or with elements that take room, no search goes beyond the words. -/
theorem inReach (reachable : request.size ≤ 2 ^ 63 ∨ keyType.isStored = true ∨
    valueType.isStored = true) : request.InReach := by
  refine inReach_of_half ready.positive ?_
  rcases reachable with half | stored
  · exact half
  · exact Nat.le_of_lt (ready.small_of_stored stored)

theorem leaves {pairs : List (Element keyType × Element valueType)}
    (length : pairs.length = request.size)
    (sorts : request.size < 2 ^ 63 → ∃ test,
      request.Answers (request.source.get memory) test ∧
        (List.range request.size).map (fun position => request.source.get memory
          (sortedFrom test request.size request.blockSize position)) = pairs) :
    request.Leaves storage memory pairs := by
  intro environment watched host calm healthy after rested outcome waited
  rcases ready.small_or_eq with small | same
  · obtain ⟨test, answers, sorted⟩ := sorts small
    obtain ⟨final, gathers, succeeds⟩ := (ready.admits small).exists_final answers
    obtain ⟨_, ran, settles, -⟩ := succeeds environment watched host calm healthy
    cases outcome.symm.trans ran
    obtain ⟨_, wait, -, reached, -⟩ := settles.synchronize environment
    cases waited.symm.trans wait
    rw [← sorted, reached]
    exact List.map_congr_left fun position member => gathers position (List.mem_range.mp member)
  · exact List.ext_getElem (by rw [List.length_map, List.length_range, length])
      fun _ _ _ => same _ _

variable {test : Nat → Nat → Bool}
  (answers : request.Answers (request.source.get memory) test)
include answers

/-- A predicate that answers for one key answers for all, if they take no room. -/
theorem faultsWithin_of_large (large : ¬request.size < 2 ^ 63) :
    request.less.FaultsWithin fun _ => False := by
  intro one other fault failed
  obtain ⟨unstored, -⟩ := (ready.small_or_unstored ready.bounded).resolve_left large
  have answered := answers 0 0 (by omega) (by omega)
  rw [Element.eq_of_not_isStored unstored (request.source.get memory 0).1 one,
    Element.eq_of_not_isStored unstored one other] at answered
  rw [Element.eq_of_not_isStored unstored one other, answered] at failed
  cases failed

/-- If the positions that a call sorts to are a stable sort, so is what it leaves. -/
theorem exists_leaves {order : Predicate (Element keyType × Element valueType)}
    {input : List (Element keyType × Element valueType)} (length : input.length = request.size)
    (irreflexive : ∀ pair ∈ input, order pair pair = .ok false)
    (sorts : Grid.Fits request.size request.blockSize →
      StableSort order input ((List.range request.size).map fun position =>
        request.source.get memory (sortedFrom test request.size request.blockSize position))) :
    ∃ sorted, StableSort order input sorted ∧ request.Leaves storage memory sorted := by
  rcases ready.small_or_eq with small | same
  · exact ⟨_, sorts (ready.fits small), ready.leaves (by simp) fun _ => ⟨test, answers, rfl⟩⟩
  · refine ⟨input, StableSort.refl (List.pairwise_of_forall_mem_list ?_),
      ready.leaves length fun _ => ⟨test, answers, List.ext_getElem (by simp [length])
        fun _ _ _ => same _ _⟩⟩
    intro pair member later _
    rw [same later pair]
    exact irreflexive pair member

theorem succeeds (inReach : request.InReach) : request.Succeeds storage memory := by
  intro environment watched host calm healthy
  by_cases small : request.size < 2 ^ 63
  · obtain ⟨final, -, runs⟩ := (ready.admits small).exists_final answers
    obtain ⟨after, outcome, settles, -⟩ := runs environment watched host calm healthy
    obtain ⟨rested, waited, -⟩ := settles.synchronize environment
    exact ⟨after, rested, outcome, waited⟩
  · obtain ⟨layout, accepted⟩ := ready.exists_accepted (show request.size ≠ 0 by omega)
    obtain ⟨final, runs⟩ := accepted.exists_runAll_of_inReach ready.few ready.word ready.covers
      (ready.faultsWithin_of_large answers small) calm inReach host.attempts.size memory
    obtain ⟨after, outcome, settles, -⟩ := accepted.exists_execute
      (isValid_grid (show 1 ≤ request.size by omega) ready.positive ready.few) calm healthy runs
      watched
    obtain ⟨rested, waited, -⟩ := settles.synchronize environment
    exact ⟨after, rested, outcome, waited⟩

theorem overflows (beyond : ¬request.InReach) : request.Overflows storage memory := by
  intro environment watched host calm healthy
  have large : ¬request.size < 2 ^ 63 := fun small =>
    beyond (inReach_of_half ready.positive (Nat.le_of_lt small))
  obtain ⟨layout, accepted⟩ := ready.exists_accepted (show request.size ≠ 0 by omega)
  obtain ⟨final, faults⟩ := accepted.exists_runAll_of_not_inReach ready.few ready.word
    ready.covers (ready.faultsWithin_of_large answers large) calm beyond host.attempts.size memory
  exact accepted.exists_execute_of_faulting
    (isValid_grid (show 1 ≤ request.size by omega) ready.positive ready.few) calm healthy faults
    watched

/-- A call succeeds if it is in reach, and ends in its fault if not. -/
theorem succeeds_or_overflows : (request.InReach → request.Succeeds storage memory) ∧
    (¬request.InReach → request.Overflows storage memory) ∧
    (request.size ≤ 2 ^ 63 ∨ keyType.isStored = true ∨ valueType.isStored = true →
      request.InReach) :=
  ⟨ready.succeeds answers, ready.overflows answers, ready.inReach⟩

end Ready

end SortRequest

/-! One element more than half of the words can count, whatever the predicate answers. -/

namespace HalfCall

def comparing (test : Element .nothing → Element .nothing → Bool) :
    SortRequest .nothing .nothing :=
  { request with less := .ofTest test }

def host : Host := { stream := .idle, device := .empty }

variable (test : Element .nothing → Element .nothing → Bool)

theorem ready : (comparing test).Ready storage .empty where
  covers := ⟨Nat.le_refl _, fun _ => Nat.le_refl _⟩
  room := ⟨Nat.le_refl _, fun _ => Nat.le_refl _⟩
  keysHeld := Nat.le_refl 0
  valuesHeld := Nat.le_refl 0
  storageHeld := Nat.le_refl 0
  outputsApart := Or.inl rfl
  keysApart := Or.inl rfl
  valuesApart := Or.inl rfl
  keysBeside := Or.inl ⟨rfl, rfl⟩
  valuesBeside := Or.inl ⟨rfl, rfl⟩
  bounded := Memory.bounded_empty
  word := (by decide : 2 ^ 63 + 1 ≤ Size.largest)
  positive := (by decide : 1 ≤ 256)
  few := (by decide : 256 ≤ Grid.maxLanes)
  enough := ⟨⟨0, 0⟩, accepted.hasLayout, Nat.le_refl 0⟩

theorem not_inReach : ¬(comparing test).InReach := by
  change ¬request.InReach
  intro inReach
  have passes := passCount_request
  refine inReach 55 (by omega) (2 ^ 55) ?_ ⟨?_, ?_, ?_⟩
  all_goals decide

/-- The call ends in the fault, whatever the predicate answers. -/
theorem exists_execute : ∃ after,
    ((comparing test).execute .prompt true storage).outcome host =
      (.error (.kernelFault "block_merge" (.overflow .add)), after) := by
  obtain ⟨result, after, rested, outcome, -, told, -⟩ :=
    (ready test).overflows (SortRequest.answers_ofTest rfl) (not_inReach test) .prompt true host
      Environment.calm_prompt (Host.settles_of_idle rfl rfl rfl)
  obtain rfl := told (Or.inl rfl)
  exact ⟨after, outcome⟩

end HalfCall

end GridSort
