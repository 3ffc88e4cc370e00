import GridSort.Proofs.Host.Disturbance
import GridSort.Proofs.Host.Rest

namespace GridSort

/-! How a run of stages ends whose launches would all run without a fault, when nothing
disturbs it and when one launch is refused or broken. -/

def Launch.attempt (launch : Launch) : Attempt := ⟨launch.kernel.name, launch.grid⟩

theorem Stage.map_launches {environment : Environment} (calm : environment.Calm) (grid : Grid)
    (index : Nat) (stages : List Stage) :
    (Stage.launches environment grid index stages).map
        (fun launch => (launch.kernel, launch.grid)) =
      stages.map fun stage => (stage.kernel, grid) := by
  induction stages generalizing index with
  | nil => rfl
  | cons stage rest ih =>
      rw [Stage.launches, List.map_cons, ih, HostM.made, calm.disturb]
      rfl

/-- A stage on a stream in error is launched, but the caller finds the error at once. -/
theorem Host.Failed.stage {environment : Environment} {grid : Grid} {host : Host}
    {error : Failure} (h : host.Failed error) {stage : Stage}
    (accepted : environment.refusal host.attempts.size stage.kernel = none)
    (valid : grid.isValid = true)
    (answers : ∀ index, (environment.disturb index stage.kernel).answersWorker = true)
    (watched : Bool) (size : Nat) :
    ∃ after, (stage.run environment watched grid size).outcome host = (.error error, after) ∧
      after.Failed error ∧ after.device.memory = host.device.memory ∧
      after.attempts = host.attempts.push ⟨stage.kernel.name, grid⟩ := by
  have launched := HostM.outcome_launch_of_valid accepted valid (h.proceed environment).alive
  have queued := h.launch environment answers grid
  rw [launched] at queued
  refine ⟨_, (HostM.outcome_bind_of_ok launched _).trans
    (HostM.outcome_bind_of_error (queued.peek environment) _), queued.proceed environment, ?_, rfl⟩
  rw [queued.memory_proceed environment]
  exact h.memory_proceed environment

namespace Ending

variable {environment : Environment} {watched : Bool} {grid : Grid} {start memory : Memory}
  {launches : List Launch} {attempts : Array Attempt} {stages : List Stage}
  {result : Except Failure Unit} {after : Host}

theorem attempts_launches (calm : environment.Calm) (index : Nat) (stages : List Stage) :
    (Stage.launches environment grid index stages).map Launch.attempt =
      Stage.attempts grid stages := by
  have made := congrArg (List.map fun made : Kernel × Grid => (⟨made.1.name, made.2⟩ : Attempt))
    (Stage.map_launches calm grid index stages)
  rw [List.map_map, List.map_map] at made
  exact made

theorem runAll_of_front {front rest : List Stage} {stage : Stage} {index : Nat}
    {error : Failure}
    (found : Launch.runAll (launches ++ Stage.launches environment grid index
      (front ++ [stage])) start = (some error, memory)) :
    Launch.runAll (launches ++ Stage.launches environment grid index
      (front ++ stage :: rest)) start = (some error, memory) := by
  rw [List.append_cons, Stage.launches_append, ← List.append_assoc,
    Launch.runAll_append_of_some found]

theorem of_ok (ending : Ending environment watched grid start launches attempts stages
    (.ok ()) after) :
    after.Follows start
        (launches ++ Stage.launches environment grid attempts.size stages) ∧
      after.attempts.toList = attempts.toList ++ Stage.attempts grid stages := by
  cases ending with
  | finished _ follows attempted accepted quiet => exact ⟨follows, attempted⟩

theorem result_eq_ok (ending : Ending environment watched grid start launches attempts stages
      result after)
    (accepts : ∀ index kernel, environment.refusal index kernel = none)
    (runs : Launch.runAll (launches ++ Stage.launches environment grid attempts.size stages)
      start = (none, memory)) : result = .ok () := by
  cases ending with
  | finished _ follows attempted accepted quiet => rfl
  | refused front rest stage _ error split follows attempted refusal =>
      rw [accepts] at refusal
      cases refusal
  | failed front rest stage _ error split follows attempted failure quiet =>
      have found := Stream.Follows.runAll_of_failure follows failure
      rw [split, runAll_of_front found] at runs
      cases runs

/-- The first launch that faults is the last one attempted, if it is waited for. -/
theorem of_faulting (ending : Ending environment watched grid start launches attempts stages
      result after)
    (accepts : ∀ index kernel, environment.refusal index kernel = none)
    (waits : environment.Waits watched) {front rest : List Stage} {stage : Stage}
    (whole : stages = front ++ stage :: rest) {before partially : Memory} {error : Failure}
    (ran : Launch.runAll (launches ++ Stage.launches environment grid attempts.size front)
      start = (none, before))
    (faults : Launch.runAll (launches ++ Stage.launches environment grid attempts.size
      (front ++ [stage])) start = (some error, partially)) :
    result = .error error ∧ after.Failed error ∧
      after.attempts.toList = attempts.toList ++ Stage.attempts grid (front ++ [stage]) ∧
      after.device.memory = partially := by
  cases ending with
  | finished _ follows attempted accepted quiet =>
      obtain ⟨final, completed⟩ := quiet waits
      rw [whole, runAll_of_front faults] at completed
      cases completed
  | refused others later refused _ error split follows attempted refusal =>
      rw [accepts] at refusal
      cases refusal
  | failed others later last _ found split follows attempted failure quiet =>
      have stopped := Stream.Follows.runAll_of_failure follows failure
      have place : others = front := by
        rcases List.append_eq_append_iff.mp (whole.symm.trans split) with
          ⟨more, rfl, cut⟩ | ⟨more, rfl, cut⟩
        · cases more with
          | nil => exact List.append_nil front
          | cons first more =>
              obtain ⟨rfl, -⟩ := List.cons.inj cut
              obtain ⟨final, completed⟩ := quiet waits
              rw [runAll_of_front faults] at completed
              cases completed
        · cases more with
          | nil => exact (List.append_nil others).symm
          | cons first more =>
              obtain ⟨rfl, -⟩ := List.cons.inj cut
              rw [runAll_of_front stopped] at ran
              cases ran
      subst place
      obtain ⟨rfl, -⟩ := List.cons.inj (List.append_cancel_left (whole.symm.trans split))
      rw [faults] at stopped
      cases stopped
      exact ⟨rfl, ⟨⟨start, _, follows⟩, failure⟩, attempted, rfl⟩

theorem of_refusing {index : Nat} {error : Failure}
    (ending : Ending (environment.refusing (attempts.size + index) error) watched grid start
      launches attempts stages result after)
    (inside : index < stages.length)
    (runs : Launch.runAll (launches ++ Stage.launches environment grid attempts.size stages)
      start = (none, memory)) :
    result = .error error ∧
      after.Follows start
        (launches ++ (Stage.launches environment grid attempts.size stages).take index) ∧
      after.attempts.toList = attempts.toList ++ (Stage.attempts grid stages).take (index + 1) := by
  have same : ∀ front, Stage.launches (environment.refusing (attempts.size + index) error)
      grid attempts.size front = Stage.launches environment grid attempts.size front :=
    fun front => Stage.launches_congr fun _ _ _ => rfl
  cases ending with
  | finished _ follows attempted accepted quiet =>
      have found := accepted.refusal_eq_none inside
      rw [Environment.refusal_refusing, if_pos rfl] at found
      cases found
  | refused front rest stage _ other split follows attempted refusal =>
      have place : front.length = index ∧ error = other := by
        rw [Environment.refusal_refusing] at refusal
        split at refusal
        · exact ⟨Nat.add_left_cancel ‹_›, Option.some.inj refusal⟩
        · cases refusal
      obtain ⟨rfl, rfl⟩ := place
      have before : stages.take front.length = front := by rw [split, List.take_left]
      have upTo : stages.take (front.length + 1) = front ++ [stage] := by
        rw [split, List.append_cons, List.take_left' (by simp)]
      refine ⟨rfl, ?_, ?_⟩
      · rw [← Stage.launches_take, before, ← same]
        exact follows
      · rw [attempted, ← upTo, Stage.attempts, Stage.attempts, List.map_take]
  | failed front rest stage _ other split follows attempted failure quiet =>
      have found := Stream.Follows.runAll_of_failure follows failure
      rw [same] at found
      rw [split, runAll_of_front found] at runs
      cases runs

section Breaking

variable {index id : Nat} {program : Program Unit} {fault : Fault}

theorem launches_breaking_take (calm : environment.Calm) {count : Nat} (few : count ≤ index)
    (first : Nat) (stages : List Stage) :
    Stage.launches (environment.breaking (first + index) id program) grid first
        (stages.take count) =
      Stage.launches environment grid first (stages.take count) := by
  apply Stage.launches_congr
  intro earlier inside kernel
  rw [List.length_take] at inside
  rw [HostM.made, HostM.made, Environment.disturb_breaking, if_neg (by omega), calm.disturb]
  rfl

theorem exists_runAll_breaking (calm : environment.Calm) (faults : program.Faults fault)
    {first : Nat} (inside : index < stages.length) (present : id < grid.groups)
    (runs : Launch.runAll (launches ++ Stage.launches environment grid first stages) start =
      (none, memory)) :
    ∃ partially, Launch.runAll (launches ++ Stage.launches
        (environment.breaking (first + index) id program) grid first
          (stages.take (index + 1))) start =
      (some (.kernelFault stages[index].kernel.name fault), partially) := by
  have whole : stages = stages.take index ++ stages[index] :: stages.drop (index + 1) := by
    rw [← List.drop_eq_getElem_cons inside, List.take_append_drop]
  have length : (stages.take index).length = index := by
    rw [List.length_take]
    omega
  rw [whole, Stage.launches_append, Stage.launches, length, ← List.append_assoc] at runs
  obtain ⟨middle, before, later⟩ := Launch.exists_runAll_prefix runs
  rw [List.take_succ_eq_append_getElem inside, Stage.launches_append, length,
    launches_breaking_take calm (Nat.le_refl index), ← List.append_assoc,
    Launch.runAll_append_of_none before]
  cases found : (HostM.made environment (first + index) stages[index].kernel grid).run middle with
  | mk cause next =>
      cases cause with
      | some cause =>
          rw [Launch.runAll_cons_of_some found] at later
          cases later
      | none =>
          rw [Launch.run, HostM.made, calm.disturb] at found
          have member : id ∈ environment.order (first + index) grid.groups :=
            (calm.order _ _).mem_iff.mpr (List.mem_range.mpr present)
          obtain ⟨partially, broken⟩ := Launch.runGroups_replacing faults member found
          have made : HostM.made (environment.breaking (first + index) id program)
                (first + index) stages[index].kernel grid =
              ⟨stages[index].kernel.replacing id program, grid,
                environment.order (first + index)⟩ := by
            rw [HostM.made, Environment.disturb_breaking, if_pos rfl]
            rfl
          have faulted : (⟨stages[index].kernel.replacing id program, grid,
              environment.order (first + index)⟩ : Launch).run middle =
                (some fault, partially) := broken
          rw [Stage.launches, Stage.launches, made]
          exact ⟨partially, Launch.runAll_cons_of_some faulted []⟩

/-- A broken launch is the last one attempted, if it is waited for. -/
theorem of_breaking (calm : environment.Calm) (waits : environment.Waits watched)
    (ending : Ending (environment.breaking (attempts.size + index) id program) watched grid
      start launches attempts stages result after)
    (faults : program.Faults fault) (inside : index < stages.length)
    (present : id < grid.groups)
    (runs : Launch.runAll (launches ++ Stage.launches environment grid attempts.size stages)
      start = (none, memory)) :
    result = .error (.kernelFault stages[index].kernel.name fault) ∧
      after.Failed (.kernelFault stages[index].kernel.name fault) ∧
      after.attempts.toList =
        attempts.toList ++ (Stage.attempts grid stages).take (index + 1) := by
  obtain ⟨partially, broken⟩ := exists_runAll_breaking calm faults inside present runs
  have whole : stages = stages.take index ++ stages[index] :: stages.drop (index + 1) := by
    rw [← List.drop_eq_getElem_cons inside, List.take_append_drop]
  have upTo : stages.take (index + 1) = stages.take index ++ [stages[index]] :=
    List.take_succ_eq_append_getElem inside
  have before : ∃ middle, Launch.runAll (launches ++ Stage.launches
      (environment.breaking (attempts.size + index) id program) grid attempts.size
        (stages.take index)) start = (none, middle) := by
    rw [launches_breaking_take calm (Nat.le_refl index)]
    rw [whole, Stage.launches_append, ← List.append_assoc] at runs
    obtain ⟨middle, front, -⟩ := Launch.exists_runAll_prefix runs
    exact ⟨middle, front⟩
  obtain ⟨middle, ran⟩ := before
  rw [upTo] at broken
  obtain ⟨rfl, failed, attempted, -⟩ := ending.of_faulting calm.refusal waits whole ran broken
  refine ⟨rfl, failed, ?_⟩
  rw [attempted, ← upTo, Stage.attempts, Stage.attempts, List.map_take]

theorem runAll_breaking_absent (calm : environment.Calm) (absent : grid.groups ≤ id)
    (broken first : Nat) (stages : List Stage) (memory : Memory) :
    Launch.runAll (Stage.launches (environment.breaking broken id program) grid first stages)
        memory =
      Launch.runAll (Stage.launches environment grid first stages) memory := by
  induction stages generalizing first memory with
  | nil => rfl
  | cons stage rest ih =>
      have same : (HostM.made (environment.breaking broken id program) first stage.kernel
          grid).run memory = (HostM.made environment first stage.kernel grid).run memory := by
        rw [Launch.run, Launch.run, HostM.made, HostM.made, Environment.disturb_breaking,
          calm.disturb]
        by_cases here : first = broken
        · rw [if_pos here]
          refine Launch.runGroups_replacing_of_not_mem ?_ memory
          intro member
          have inside := List.mem_range.mp ((calm.order first grid.groups).mem_iff.mp member)
          omega
        · rw [if_neg here]
          rfl
      have name : (HostM.made (environment.breaking broken id program) first stage.kernel
          grid).kernel.name = (HostM.made environment first stage.kernel grid).kernel.name := by
        rw [HostM.made, HostM.made, Environment.disturb_breaking, calm.disturb]
        split <;> rfl
      rw [Stage.launches, Stage.launches, Launch.runAll, Launch.runAll, same]
      cases (HostM.made environment first stage.kernel grid).run memory with
      | mk cause next =>
          cases cause with
          | none => exact ih (first + 1) next
          | some cause =>
              dsimp only
              rw [Launch.fault, Launch.fault, name]

end Breaking

end Ending

end GridSort
