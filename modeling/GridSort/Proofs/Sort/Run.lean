import GridSort.Proofs.Host.Endings
import GridSort.Proofs.Sort.Storage

namespace GridSort

/-! A whole sort that nothing disturbs. Its launches lead from one memory to the next, in
whatever order their groups run; the last one leaves the sorted pairs in the output. -/

/-- The attempts of a sort. Which they are depends on the sizes alone. -/
def scheduled (size lanes : Nat) : List Attempt :=
  if size = 0 then []
  else
    ⟨"block_sort", Grid.covering size lanes⟩ ::
      List.replicate (Size.doublings lanes size).length
        ⟨"block_merge", Grid.covering size lanes⟩ ++
      if (Size.doublings lanes size).length % 2 = 0 then []
      else [⟨"block_copy", Grid.covering size lanes⟩]

namespace SortRequest

variable {keyType valueType : ElementType} {request : SortRequest keyType valueType}
  {scratch : Pairs keyType valueType} {storage : Buffer .byte} {environment : Environment}
  {watched : Bool} {host : Host} {memory : Memory} {test : Nat → Nat → Bool}
  {content : Nat → Element keyType × Element valueType} {first : Nat}

theorem getElem?_keys {position : Nat} (inside : position < request.size) :
    ((List.range request.size).map (request.source.keys.get memory))[position]? =
      some (request.source.get memory position).1 := by
  rw [List.getElem?_map, List.getElem?_range inside]
  rfl

theorem answers_ofTest {test : Element keyType → Element keyType → Bool}
    (total : request.less = .ofTest test) :
    request.Answers (request.source.get memory)
      (answersOf test ((List.range request.size).map (request.source.keys.get memory))) := by
  intro first second hfirst hsecond
  rw [answersOf, getElem?_keys hfirst, getElem?_keys hsecond, total]
  rfl

theorem attempts_stages (nonempty : request.size ≠ 0) :
    Stage.attempts request.grid (request.plan scratch).stages =
      scheduled request.size request.blockSize := by
  have merges : Stage.attempts request.grid
      (request.passWidths.mapIdx (request.mergePass scratch)) =
        List.replicate request.passWidths.length ⟨"block_merge", request.grid⟩ := by
    rw [List.eq_replicate_iff, Stage.length_attempts, List.length_mapIdx]
    refine ⟨rfl, fun attempt member => ?_⟩
    obtain ⟨stage, listed, rfl⟩ := List.mem_map.mp member
    obtain ⟨index, inside, rfl⟩ := List.mem_mapIdx.mp listed
    rfl
  rw [scheduled, if_neg nonempty, stages_plan, Stage.attempts_append]
  change ⟨"block_sort", request.grid⟩ :: Stage.attempts request.grid
    (request.passWidths.mapIdx (request.mergePass scratch)) ++ _ = _
  rw [merges]
  by_cases even : request.passCount % 2 = 0
  · rw [if_pos even]
    exact congrArg _ (if_pos even).symm
  · rw [if_neg even]
    exact congrArg _ (if_neg even).symm

/-- An accepted call whose launches run without a fault succeeds. -/
theorem Accepted.exists_execute {layout : Layout} {final : Memory}
    (accepted : request.Accepted storage layout scratch) (valid : request.grid.isValid = true)
    (calm : environment.Calm) (healthy : host.Settles memory)
    (runs : Launch.runAll (request.launches environment host.attempts.size scratch) memory =
      (none, final)) (watched : Bool) :
    ∃ after, (request.execute environment watched storage).outcome host = (.ok (), after) ∧
      after.Settles final ∧
      after.attempts.toList =
        host.attempts.toList ++ scheduled request.size request.blockSize := by
  rw [← Launch.runAll_append_of_none healthy.completes] at runs
  obtain ⟨result, after, outcome, ending⟩ :=
    accepted.exists_ending valid calm.answers healthy watched
  obtain rfl := ending.result_eq_ok calm.refusal runs
  obtain ⟨follows, attempted⟩ := ending.of_ok
  rw [attempts_stages accepted.nonempty] at attempted
  exact ⟨after, outcome, follows.settles runs, attempted⟩

/-- A launch that faults is the last one that an accepted call makes, if it is waited for. -/
theorem Accepted.exists_execute_of_fault {layout : Layout} {count : Nat}
    {before partially : Memory} {error : Failure}
    (accepted : request.Accepted storage layout scratch) (valid : request.grid.isValid = true)
    (calm : environment.Calm) (waits : environment.Waits watched) (healthy : host.Settles memory)
    (ran : Launch.runAll ((request.launches environment host.attempts.size scratch).take count)
      memory = (none, before))
    (faults : Launch.runAll ((request.launches environment host.attempts.size scratch).take
      (count + 1)) memory = (some error, partially)) :
    ∃ after, (request.execute environment watched storage).outcome host = (.error error, after) ∧
      after.Failed error ∧
      after.attempts.toList = host.attempts.toList ++
        Stage.attempts request.grid ((request.plan scratch).stages.take (count + 1)) ∧
      after.device.memory = partially := by
  have inside : count < (request.plan scratch).stages.length := by
    by_contra beyond
    have length : (request.launches environment host.attempts.size scratch).length = _ :=
      length_launches environment host.attempts.size
    rw [List.take_of_length_le (by omega)] at ran faults
    cases ran.symm.trans faults
  have whole : (request.plan scratch).stages = (request.plan scratch).stages.take count ++
      (request.plan scratch).stages[count] :: (request.plan scratch).stages.drop (count + 1) := by
    rw [← List.drop_eq_getElem_cons inside, List.take_append_drop]
  rw [launches, ← Stage.launches_take, ← Launch.runAll_append_of_none healthy.completes] at ran
  rw [launches, ← Stage.launches_take, List.take_succ_eq_append_getElem inside,
    ← Launch.runAll_append_of_none healthy.completes] at faults
  obtain ⟨result, after, outcome, ending⟩ :=
    accepted.exists_ending valid calm.answers healthy watched
  obtain ⟨rfl, failed, attempted, left⟩ :=
    ending.of_faulting calm.refusal waits whole ran faults
  rw [List.take_succ_eq_append_getElem inside]
  exact ⟨after, outcome, failed, attempted, left⟩

/-- Where some launch faults the caller is told, by the call or by waiting after it. -/
theorem Accepted.exists_execute_of_faulting {layout : Layout} {final : Memory} {error : Failure}
    (accepted : request.Accepted storage layout scratch) (valid : request.grid.isValid = true)
    (calm : environment.Calm) (healthy : host.Settles memory)
    (faults : Launch.runAll (request.launches environment host.attempts.size scratch) memory =
      (some error, final)) (watched : Bool) :
    ∃ result after rested, (request.execute environment watched storage).outcome host =
        (result, after) ∧
      (result = .ok () ∨ result = .error error) ∧
      (environment.Waits watched → result = .error error) ∧
      (HostM.synchronize environment).outcome after = (.error error, rested) := by
  rw [← Launch.runAll_append_of_none healthy.completes] at faults
  obtain ⟨result, after, outcome, ending⟩ :=
    accepted.exists_ending valid calm.answers healthy watched
  cases ending with
  | finished _ follows attempted accepted quiet =>
      obtain ⟨rested, waited, -⟩ := Host.Follows.exists_synchronize environment follows faults
      refine ⟨_, after, rested, outcome, Or.inl rfl, fun waits => ?_, waited⟩
      obtain ⟨final, completed⟩ := quiet waits
      cases completed.symm.trans faults
  | refused front rest stage _ refused split follows attempted refusal =>
      rw [calm.refusal] at refusal
      cases refusal
  | failed front rest stage _ found split follows attempted failure quiet =>
      have stopped := Stream.Follows.runAll_of_failure follows failure
      rw [launches, split, Ending.runAll_of_front stopped] at faults
      cases faults
      have failed : after.Failed error := ⟨⟨_, _, follows⟩, failure⟩
      exact ⟨_, after, _, outcome, Or.inr rfl, fun _ => rfl, failed.synchronize environment⟩

theorem exists_stage (calm : environment.Calm) {index : Nat} {launch : Launch}
    (found : (request.launches environment first scratch)[index]? = some launch) :
    ∃ stage, (request.plan scratch).stages[index]? = some stage ∧
      launch = ⟨stage.kernel, request.grid, environment.order (first + index)⟩ := by
  obtain ⟨inside, made⟩ := Stage.exists_of_getElem?_launches found
  refine ⟨_, List.getElem?_eq_getElem inside, ?_⟩
  rw [made, HostM.made, calm.disturb]

/-- What a pass merges, and where to. -/
def passMerge (request : SortRequest keyType valueType) (scratch : Pairs keyType valueType)
    (pass : Nat) : RunMerge keyType valueType :=
  ⟨request.active scratch pass, request.active scratch (pass + 1), request.size,
    request.blockSize * 2 ^ pass, request.less⟩

def passLaunch (request : SortRequest keyType valueType) (environment : Environment)
    (first : Nat) (scratch : Pairs keyType valueType) (pass : Nat) : Launch :=
  ⟨(request.passMerge scratch pass).kernel, request.grid,
    environment.order (first + (pass + 1))⟩

theorem getElem?_launches_pass (calm : environment.Calm) (positive : 0 < request.blockSize)
    (word : request.size ≤ Size.largest) {pass : Nat} (within : pass < request.passCount) :
    (request.launches environment first scratch)[pass + 1]? =
      some (request.passLaunch environment first scratch pass) := by
  have below : pass + 1 < (request.launches environment first scratch).length := by
    rw [length_launches, length_stages_plan]
    omega
  obtain ⟨stage, planned, made⟩ := exists_stage calm (List.getElem?_eq_getElem below)
  rw [getElem?_stages_pass positive word within] at planned
  cases planned
  rw [List.getElem?_eq_getElem below, made]
  rfl

section Launches

variable (held : request.SoundIn scratch memory) (answers : request.Answers content test)
  (found : ∀ position, position < request.size →
    request.source.get memory position = content position)
  (calm : environment.Calm) {index : Nat} {launch : Launch}
  (listed : (request.launches environment first scratch)[index]? = some launch)
include held answers found calm listed

theorem SoundIn.exists_fills_launch :
    launch.grid = Grid.covering request.size request.blockSize ∧
      ∃ readable, launch.kernel.Fills (Grid.covering request.size request.blockSize)
        (request.memoryBefore scratch content test memory index)
        (request.active scratch index) request.size readable
        (request.arranged content test index) := by
  obtain ⟨stage, planned, rfl⟩ := exists_stage calm listed
  exact ⟨rfl, held.sound.exists_fills answers planned (held.finds found index)⟩

theorem SoundIn.runGroups_of_perm {order : List Nat}
    (complete : order.Perm (List.range launch.grid.groups)) :
    Launch.runGroups launch.kernel launch.grid order
        (request.memoryBefore scratch content test memory index) =
      (none, request.memoryBefore scratch content test memory (index + 1)) := by
  obtain ⟨grid, readable, fills⟩ := held.exists_fills_launch answers found calm listed
  rw [grid] at complete ⊢
  exact fills.runGroups_covering held.sound.fits.positive (held.sound.room index)
    (held.sound.separateActive index) complete

theorem SoundIn.run_launch :
    launch.run (request.memoryBefore scratch content test memory index) =
      (none, request.memoryBefore scratch content test memory (index + 1)) := by
  refine held.runGroups_of_perm answers found calm listed ?_
  obtain ⟨stage, -, rfl⟩ := exists_stage calm listed
  exact calm.order _ _

end Launches

theorem SoundIn.runAll_take (held : request.SoundIn scratch memory)
    (answers : request.Answers content test)
    (found : ∀ position, position < request.size →
      request.source.get memory position = content position)
    (calm : environment.Calm) {count : Nat}
    (few : count ≤ (request.plan scratch).stages.length) :
    Launch.runAll ((request.launches environment first scratch).take count) memory =
      (none, request.memoryBefore scratch content test memory count) := by
  induction count with
  | zero => rfl
  | succ count ih =>
      have inside : count < (request.launches environment first scratch).length := by
        rw [length_launches]
        exact few
      have ran := held.run_launch answers found calm (List.getElem?_eq_getElem inside)
      rw [Launch.runAll_take_succ (List.getElem?_eq_getElem inside) (ih (Nat.le_of_succ_le few)),
        Launch.runAll_cons_of_none ran, Launch.runAll_nil]

def finalMemory (request : SortRequest keyType valueType) (scratch : Pairs keyType valueType)
    (content : Nat → Element keyType × Element valueType) (test : Nat → Nat → Bool)
    (memory : Memory) : Memory :=
  request.memoryBefore scratch content test memory (request.plan scratch).stages.length

theorem SoundIn.runAll_launches (held : request.SoundIn scratch memory)
    (answers : request.Answers content test)
    (found : ∀ position, position < request.size →
      request.source.get memory position = content position)
    (calm : environment.Calm) :
    Launch.runAll (request.launches environment first scratch) memory =
      (none, request.finalMemory scratch content test memory) := by
  have ran : Launch.runAll ((request.launches environment first scratch).take
      (request.plan scratch).stages.length) memory =
        (none, request.finalMemory scratch content test memory) :=
    held.runAll_take answers found calm (Nat.le_refl _)
  rwa [List.take_of_length_le (Nat.le_of_eq (length_launches environment first))] at ran

theorem SoundIn.get_finalMemory (held : request.SoundIn scratch memory)
    (found : ∀ position, position < request.size →
      request.source.get memory position = content position)
    {position : Nat} (inside : position < request.size) :
    request.target.get (request.finalMemory scratch content test memory) position =
      content (sortedFrom test request.size request.blockSize position) := by
  have last : (request.plan scratch).stages.length =
      request.passCount + request.passCount % 2 + 1 := by
    rw [length_stages_plan, Nat.add_comm 1, Nat.add_right_comm]
  -- After an odd number of passes the copy is one more launch.
  have even : (request.passCount + request.passCount % 2) % 2 = 0 := by omega
  have left : (request.active scratch (request.passCount + request.passCount % 2)).get
      (request.memoryBefore scratch content test memory
        (request.passCount + request.passCount % 2 + 1)) position =
        request.arranged content test (request.passCount + request.passCount % 2) position :=
    held.finds found (request.passCount + request.passCount % 2 + 1) position inside
  rw [active_even even, arranged, Nat.min_eq_right (Nat.le_add_right _ _)] at left
  rw [finalMemory, last]
  exact left

/-- An admitted call succeeds, makes the scheduled launches, and gathers the pairs. The
memory it leads to is the same in all environments. -/
theorem Admits.exists_final (admits : request.Admits storage memory)
    (answers : request.Answers (request.source.get memory) test) :
    ∃ final, (∀ position, position < request.size →
        request.target.get final position =
          request.source.get memory
            (sortedFrom test request.size request.blockSize position)) ∧
      ∀ (environment : Environment) (watched : Bool) (host : Host),
        environment.Calm → host.Settles memory →
          ∃ after, (request.execute environment watched storage).outcome host =
              (.ok (), after) ∧
            after.Settles final ∧
            after.attempts.toList =
              host.attempts.toList ++ scheduled request.size request.blockSize := by
  by_cases empty : request.size = 0
  · refine ⟨memory, fun position inside => ?_, fun environment watched host _ healthy =>
      ⟨host, outcome_execute_of_empty empty environment watched host, healthy, ?_⟩⟩
    · rw [empty] at inside
      exact absurd inside (Nat.not_lt_zero position)
    · rw [scheduled, if_pos empty, List.append_nil]
  · obtain ⟨layout, scratch, accepted, held⟩ := admits.exists_accepted empty
    refine ⟨request.finalMemory scratch (request.source.get memory) test memory,
      fun position inside => held.get_finalMemory (fun _ _ => rfl) inside, ?_⟩
    intro environment watched host calm healthy
    have runs : Launch.runAll (request.launches environment host.attempts.size scratch)
        memory = (none, request.finalMemory scratch (request.source.get memory) test memory) :=
      held.runAll_launches answers (fun _ _ => rfl) calm
    exact accepted.exists_execute (isValid_grid (Nat.pos_of_ne_zero empty)
      admits.fits.positive admits.fits.lanes_le) calm healthy runs watched

end SortRequest

end GridSort
