import GridSort.Proofs.Sort.Run

namespace GridSort

/-! A call stops at its first error. What it has done by then is a beginning of what it
does undisturbed, down to the last byte. -/

namespace SortRequest

variable {keyType valueType : ElementType} {request : SortRequest keyType valueType}
  {storage : Buffer .byte} {environment : Environment} {watched : Bool}
  {host finished settled : Host} {memory : Memory}

/-- A call that has run to its end, and whose launches are all done. -/
structure Undisturbed (request : SortRequest keyType valueType) (environment : Environment)
    (watched : Bool) (storage : Buffer .byte) (host finished : Host) (memory : Memory)
    (layout : Layout) (scratch : Pairs keyType valueType) (final : Memory) : Prop where
  calm : environment.Calm
  valid : request.grid.isValid = true
  accepted : request.Accepted storage layout scratch
  healthy : host.Settles memory
  succeeds : (request.execute environment watched storage).outcome host = (.ok (), finished)
  attempted : finished.attempts.toList = host.attempts.toList ++
    (request.launches environment host.attempts.size scratch).map Launch.attempt
  runs : Launch.runAll (request.launches environment host.attempts.size scratch) memory =
    (none, final)

theorem exists_undisturbed (calm : environment.Calm) (nonempty : 1 ≤ request.size)
    (positive : 1 ≤ request.blockSize) (few : request.blockSize ≤ Grid.maxLanes)
    (healthy : host.Settles memory)
    (succeeds : (request.execute environment watched storage).outcome host =
      (.ok (), finished))
    (waited : (HostM.synchronize environment).outcome finished = (.ok (), settled)) :
    ∃ layout scratch, request.Undisturbed environment watched storage host finished memory
      layout scratch settled.device.memory := by
  obtain ⟨layout, scratch, accepted⟩ :=
    exists_accepted (Nat.ne_of_gt nonempty) succeeds
  have valid := isValid_grid nonempty positive few
  obtain ⟨result, after, outcome, ending⟩ :=
    accepted.exists_ending valid calm.answers healthy watched
  rw [succeeds] at outcome
  obtain ⟨rfl, rfl⟩ := Prod.mk.inj outcome
  obtain ⟨follows, attempted⟩ := ending.of_ok
  have rested := follows.proceed environment
  rw [HostM.outcome_synchronize_of_alive rested.drain.alive] at waited
  obtain ⟨status, rfl⟩ := Prod.mk.inj waited
  have runs := rested.runAll_drain
  rw [Launch.runAll_append_of_none healthy.completes] at runs
  refine ⟨layout, scratch, calm, valid, accepted, healthy, succeeds, ?_, ?_⟩
  · rw [attempted, launches, Ending.attempts_launches calm]
  · rw [launches, runs]
    cases failure : (finished.proceed environment).drain.stream.failure with
    | none => rfl
    | some error =>
        rw [Stream.status, failure] at status
        cases status

namespace Undisturbed

variable {layout : Layout} {scratch : Pairs keyType valueType} {final : Memory}

theorem pendingRuns (h : request.Undisturbed environment watched storage host finished memory
      layout scratch final) :
    Launch.runAll (host.stream.pending ++ Stage.launches environment request.grid
      host.attempts.size (request.plan scratch).stages) host.device.memory = (none, final) := by
  rw [Launch.runAll_append_of_none h.healthy.completes]
  exact h.runs

theorem refused (h : request.Undisturbed environment watched storage host finished memory
      layout scratch final) {index : Nat} (error : Failure)
    (inside : index < (request.launches environment host.attempts.size scratch).length) :
    ∃ after, (request.execute (environment.refusing (host.attempts.size + index) error)
        watched storage).outcome host = (.error error, after) ∧
      after.attempts.toList = host.attempts.toList ++
        ((request.launches environment host.attempts.size scratch).take (index + 1)).map
          Launch.attempt ∧
      after.Settles (Launch.runAll
        ((request.launches environment host.attempts.size scratch).take index) memory).2 := by
  obtain ⟨result, after, outcome, ending⟩ :=
    h.accepted.exists_ending h.valid (h.calm.answers.refusing _ error) h.healthy watched
  rw [length_launches] at inside
  obtain ⟨rfl, follows, attempted⟩ := ending.of_refusing inside h.pendingRuns
  have runs := h.runs
  rw [← List.take_append_drop index (request.launches environment host.attempts.size scratch)]
    at runs
  obtain ⟨middle, front, -⟩ := Launch.exists_runAll_prefix runs
  refine ⟨after, outcome, ?_, ?_⟩
  · rw [attempted, List.map_take, launches, Ending.attempts_launches h.calm]
  · rw [front]
    apply follows.settles
    rw [Launch.runAll_append_of_none h.healthy.completes]
    exact front

theorem refused_beyond (h : request.Undisturbed environment watched storage host finished
      memory layout scratch final) {index : Nat} (error : Failure)
    (beyond : (request.launches environment host.attempts.size scratch).length ≤ index) :
    (request.execute (environment.refusing (host.attempts.size + index) error) watched
      storage).outcome host = (.ok (), finished) := by
  rw [length_launches] at beyond
  rw [← h.succeeds]
  exact h.accepted.agree_execute (environment.agreesBelow_refusing _ error h.calm) (by omega)

section Breaking

variable {index id : Nat} {program : Program Unit}

theorem broken (h : request.Undisturbed environment watched storage host finished memory
      layout scratch final) (waits : environment.Waits watched) {fault : Fault}
    (faults : program.Faults fault) {launch : Launch}
    (found : (request.launches environment host.attempts.size scratch)[index]? = some launch)
    (present : id < launch.grid.groups) :
    ∃ after, (request.execute (environment.breaking (host.attempts.size + index) id program)
        watched storage).outcome host = (.error (launch.fault fault), after) ∧
      after.attempts.toList = host.attempts.toList ++
        ((request.launches environment host.attempts.size scratch).take (index + 1)).map
          Launch.attempt ∧
      after.Failed (launch.fault fault) := by
  obtain ⟨inside, rfl⟩ := Stage.exists_of_getElem?_launches found
  obtain ⟨result, after, outcome, ending⟩ :=
    h.accepted.exists_ending h.valid (.breaking _ id program) h.healthy watched
  obtain ⟨rfl, failed, attempted⟩ :=
    ending.of_breaking h.calm waits faults inside present h.pendingRuns
  have named : (HostM.made environment (host.attempts.size + index)
      (request.plan scratch).stages[index].kernel request.grid).fault fault =
        .kernelFault (request.plan scratch).stages[index].kernel.name fault := by
    rw [Launch.fault, HostM.made, h.calm.disturb]
  rw [named]
  refine ⟨after, outcome, ?_, failed⟩
  rw [attempted, List.map_take, launches, Ending.attempts_launches h.calm]

theorem broken_beyond (h : request.Undisturbed environment watched storage host finished
      memory layout scratch final) (program : Program Unit) (id : Nat)
    (beyond : (request.launches environment host.attempts.size scratch).length ≤ index) :
    (request.execute (environment.breaking (host.attempts.size + index) id program) watched
      storage).outcome host = (.ok (), finished) := by
  rw [length_launches] at beyond
  rw [← h.succeeds]
  exact h.accepted.agree_execute (environment.agreesBelow_breaking _ id program h.calm)
    (by omega)

theorem broken_absent (h : request.Undisturbed environment watched storage host finished
      memory layout scratch final) (program : Program Unit) (index : Nat)
    (absent : request.grid.groups ≤ id) :
    ∃ after, (request.execute (environment.breaking (host.attempts.size + index) id program)
        watched storage).outcome host = (.ok (), after) ∧
      after.attempts.toList = finished.attempts.toList ∧ after.Settles final := by
  obtain ⟨result, after, outcome, ending⟩ :=
    h.accepted.exists_ending h.valid (.breaking _ id program) h.healthy watched
  have runs : Launch.runAll (host.stream.pending ++ Stage.launches
      (environment.breaking (host.attempts.size + index) id program) request.grid
        host.attempts.size (request.plan scratch).stages) host.device.memory =
      (none, final) := by
    rw [Launch.runAll_append_of_none h.healthy.completes,
      Ending.runAll_breaking_absent h.calm absent]
    exact h.runs
  obtain rfl := ending.result_eq_ok h.calm.refusal runs
  obtain ⟨follows, attempted⟩ := ending.of_ok
  refine ⟨after, outcome, ?_, follows.settles runs⟩
  rw [attempted, h.attempted, launches, Ending.attempts_launches h.calm]

end Breaking

end Undisturbed

/-- A refused launch, and a launch of which a group faults, is the last one of its call.
The call returns the error, and has done what it does undisturbed up to there; a fault
stays on the stream. A disturbance that the call does not come to changes nothing. -/
theorem execute_stops_at_first_error (calm : environment.Calm) (nonempty : 1 ≤ request.size)
    (positive : 1 ≤ request.blockSize) (few : request.blockSize ≤ Grid.maxLanes)
    (healthy : host.Settles memory)
    (succeeds : (request.execute environment watched storage).outcome host =
      (.ok (), finished))
    (waited : (HostM.synchronize environment).outcome finished = (.ok (), settled)) :
    ∃ layout scratch, request.layout = .ok layout ∧
      request.accept layout storage = .ok scratch ∧
      ∃ made, made = request.launches environment host.attempts.size scratch ∧
        finished.attempts.toList = host.attempts.toList ++ made.map Launch.attempt ∧
        Launch.runAll made memory = (none, settled.device.memory) ∧
        (∀ index error,
          (index < made.length →
            ∃ after, (request.execute (environment.refusing (host.attempts.size + index) error)
                watched storage).outcome host = (.error error, after) ∧
              after.attempts.toList =
                host.attempts.toList ++ (made.take (index + 1)).map Launch.attempt ∧
              after.Settles (Launch.runAll (made.take index) memory).2) ∧
          (made.length ≤ index →
            (request.execute (environment.refusing (host.attempts.size + index) error)
              watched storage).outcome host = (.ok (), finished))) ∧
        (environment.Waits watched → ∀ index id program fault, program.Faults fault →
          (∀ launch, made[index]? = some launch → id < launch.grid.groups →
            ∃ after, (request.execute
                (environment.breaking (host.attempts.size + index) id program) watched
                  storage).outcome host = (.error (launch.fault fault), after) ∧
              after.attempts.toList =
                host.attempts.toList ++ (made.take (index + 1)).map Launch.attempt ∧
              ∀ (later : Environment) (steps : List CallerStep),
                (∀ step ∈ steps, step.Answers later) →
                  ((HostM.peek later).outcome (CallerStep.performAll later steps after)).1 =
                    .error (launch.fault fault) ∧
                  ((HostM.synchronize later).outcome
                    (CallerStep.performAll later steps after)).1 =
                      .error (launch.fault fault)) ∧
          (made.length ≤ index →
            (request.execute (environment.breaking (host.attempts.size + index) id program)
              watched storage).outcome host = (.ok (), finished)) ∧
          (request.grid.groups ≤ id →
            ∃ after, (request.execute
                (environment.breaking (host.attempts.size + index) id program) watched
                  storage).outcome host = (.ok (), after) ∧
              after.attempts.toList = finished.attempts.toList ∧
              after.Settles settled.device.memory)) := by
  obtain ⟨layout, scratch, undisturbed⟩ :=
    exists_undisturbed calm nonempty positive few healthy succeeds waited
  refine ⟨layout, scratch, undisturbed.accepted.hasLayout, undisturbed.accepted.hasRoom, _,
    rfl, undisturbed.attempted, undisturbed.runs, ?_, ?_⟩
  · intro index error
    exact ⟨undisturbed.refused error, undisturbed.refused_beyond error⟩
  · intro waits index id program fault faults
    refine ⟨?_, undisturbed.broken_beyond program id, undisturbed.broken_absent program index⟩
    intro launch found present
    obtain ⟨after, outcome, attempted, failed⟩ :=
      undisturbed.broken waits faults found present
    refine ⟨after, outcome, attempted, fun later steps answers => ?_⟩
    have stuck := CallerStep.failed_performAll failed answers
    exact ⟨congrArg Prod.fst (stuck.peek later), congrArg Prod.fst (stuck.synchronize later)⟩

theorem execute_stops_small :
    (∃ after, (SmallCall.request.execute
        (Environment.prompt.refusing 0 (.launchFailure "block_sort" "injected")) true
          SmallCall.storage).outcome SmallCall.host =
        (.error (.launchFailure "block_sort" "injected"), after) ∧
      after.attempts.toList = [⟨"block_sort", ⟨2, 2⟩⟩] ∧ after.Settles SmallCall.memory) ∧
    ∃ after, (SmallCall.request.execute
        (Environment.prompt.breaking 0 1 (.fail (.raised "injected"))) true
          SmallCall.storage).outcome SmallCall.host =
        (.error (.kernelFault "block_sort" (.raised "injected")), after) ∧
      after.attempts.toList = [⟨"block_sort", ⟨2, 2⟩⟩] := by
  obtain ⟨final, -, runs⟩ := SmallCall.admits.exists_final (answers_ofTest rfl)
  obtain ⟨finished, succeeds, settles, -⟩ :=
    runs .prompt true SmallCall.host Environment.calm_prompt SmallCall.settles
  obtain ⟨settled, waited, -⟩ := settles.synchronize .prompt
  obtain ⟨layout, scratch, -, -, made, rfl, -, -, refused, broken⟩ :=
    execute_stops_at_first_error Environment.calm_prompt (by decide) (by decide) (by decide)
      SmallCall.settles succeeds waited
  have first : (SmallCall.request.launches .prompt 0 scratch)[0]? =
      some (HostM.made .prompt 0 SmallCall.request.tileSort.kernel SmallCall.request.grid) := rfl
  have inside := (List.getElem?_eq_some_iff.mp first).1
  refine ⟨?_, ?_⟩
  · obtain ⟨after, stopped, attempted, rest⟩ :=
      (refused 0 (.launchFailure "block_sort" "injected")).1 inside
    exact ⟨after, stopped, attempted, rest⟩
  · obtain ⟨after, stopped, attempted, -⟩ :=
      (broken (Or.inl rfl) 0 1 (.fail (.raised "injected")) _ fun _ => rfl).1 _ first
        (by decide)
    exact ⟨after, stopped, attempted⟩

end SortRequest

end GridSort
