import GridSort.Proofs.Sort.Run

namespace GridSort

/-! The groups of a launch run in no particular order. Each one stores to its own window,
and loads nothing that another one stores to, so that the order does not matter. -/

namespace SortRequest

variable {keyType valueType : ElementType} {request : SortRequest keyType valueType}
  {scratch : Pairs keyType valueType} {storage : Buffer .byte} {environment : Environment}
  {memory : Memory} {test : Nat → Nat → Bool}
  {content : Nat → Element keyType × Element valueType} {first : Nat}

/-- The group ends well, stores once to each position of its window and nowhere else, and
loads nothing from the window of another group. -/
def KeepsToWindow (launch : Launch) (target : Pairs keyType valueType) (size id : Nat)
    (memory : Memory) : Prop :=
  ((launch.kernel.run ⟨id, launch.grid⟩).run memory).1 = .ok () ∧
    ((launch.kernel.run ⟨id, launch.grid⟩).stores memory).map Write.region =
      ((⟨id, launch.grid⟩ : Group).window size).flatMap target.regions ∧
    ∀ read ∈ (launch.kernel.run ⟨id, launch.grid⟩).loads memory, ∀ other, other ≠ id →
      ∀ position ∈ (⟨other, launch.grid⟩ : Group).window size,
        ∀ written ∈ target.regions position, read.Disjoint written

theorem SoundIn.exists_keepsToWindow (held : request.SoundIn scratch memory)
    (answers : request.Answers content test)
    (found : ∀ position, position < request.size →
      request.source.get memory position = content position)
    (calm : environment.Calm) {index : Nat} {launch : Launch}
    (listed : (request.launches environment first scratch)[index]? = some launch)
    {id : Nat} {finished : List Nat} (distinct : (id :: finished).Nodup)
    (present : ∀ other ∈ id :: finished, other < launch.grid.groups) :
    ∃ reached, Launch.runGroups launch.kernel launch.grid finished
        (request.memoryBefore scratch content test memory index) = (none, reached) ∧
      KeepsToWindow launch (request.active scratch index) request.size id reached := by
  obtain ⟨grid, readable, fills⟩ := held.exists_fills_launch answers found calm listed
  rw [grid] at present ⊢
  obtain ⟨reached, ran, performs⟩ := fills.performs_after distinct present
  refine ⟨reached, ran, ?_⟩
  rw [KeepsToWindow, grid]
  refine ⟨performs.result, ?_, ?_⟩
  · rw [performs.stores, Pairs.region_fill]
  · intro read loaded other different position member written writes
    exact fills.apart id other (Ne.symm different) read (performs.loads read loaded)
      position member written writes

/-- A call leads through the same memories in whatever order the groups of each launch
run, since no group has to do with the window of another one. -/
theorem groups_in_any_order (admits : request.Admits storage memory)
    {test : Element keyType → Element keyType → Bool} (total : request.less = .ofTest test) :
    (request.size ≠ 0 → ∃ layout scratch, request.Accepted storage layout scratch ∧
      ∃ states : Nat → Memory, ∀ (environment : Environment) (watched : Bool) (host : Host),
        environment.Calm → host.Settles memory →
        ((request.execute environment watched storage).outcome host).2.attempts.toList =
            host.attempts.toList ++
              (request.launches environment host.attempts.size scratch).map Launch.attempt ∧
          ∀ index launch,
            (request.launches environment host.attempts.size scratch)[index]? = some launch →
            Launch.runAll
                ((request.launches environment host.attempts.size scratch).take index) memory =
                  (none, states index) ∧
              (∀ (id : Nat) (finished : List Nat), (id :: finished).Nodup →
                (∀ other ∈ id :: finished, other < launch.grid.groups) →
                ∃ reached, Launch.runGroups launch.kernel launch.grid finished (states index) =
                    (none, reached) ∧
                  KeepsToWindow launch (request.active scratch index) request.size id
                    reached) ∧
              ∀ order : List Nat, order.Perm (List.range launch.grid.groups) →
                Launch.runGroups launch.kernel launch.grid order (states index) =
                  (none, states (index + 1))) ∧
    ∃ final, ∀ (environment : Environment) (watched : Bool) (host : Host),
      environment.Calm → host.Settles memory →
      ∃ after rested, (request.execute environment watched storage).outcome host =
          (.ok (), after) ∧
        (HostM.synchronize environment).outcome after = (.ok (), rested) ∧
        rested.device.memory = final := by
  obtain ⟨answered, answers⟩ : ∃ answered, request.Answers (request.source.get memory) answered :=
    ⟨_, answers_ofTest total⟩
  obtain ⟨final, -, runs⟩ := admits.exists_final answers
  refine ⟨fun nonempty => ?_, final, fun environment watched host calm healthy => ?_⟩
  · obtain ⟨layout, scratch, accepted, held⟩ := admits.exists_accepted nonempty
    refine ⟨layout, scratch, accepted,
      request.memoryBefore scratch (request.source.get memory) answered memory,
      fun environment watched host calm healthy => ⟨?_, fun index launch listed => ?_⟩⟩
    · obtain ⟨after, succeeds, -, attempted⟩ := runs environment watched host calm healthy
      rw [succeeds, attempted, launches, Ending.attempts_launches calm,
        attempts_stages nonempty]
    · obtain ⟨inside, -⟩ := List.getElem?_eq_some_iff.mp listed
      rw [length_launches] at inside
      exact ⟨held.runAll_take answers (fun _ _ => rfl) calm (Nat.le_of_lt inside),
        fun id finished distinct present =>
          held.exists_keepsToWindow answers (fun _ _ => rfl) calm listed distinct present,
        fun order complete =>
          held.runGroups_of_perm answers (fun _ _ => rfl) calm listed complete⟩
  · obtain ⟨after, succeeds, settles, -⟩ := runs environment watched host calm healthy
    obtain ⟨rested, waited, -, same, -⟩ := settles.synchronize environment
    exact ⟨after, rested, succeeds, waited, same⟩

theorem groups_in_any_order_small :
    ∃ layout scratch, SmallCall.request.Accepted SmallCall.storage layout scratch ∧
      ∃ states : Nat → Memory, ∀ index launch,
        (SmallCall.request.launches .prompt 0 scratch)[index]? = some launch →
          Launch.runGroups launch.kernel launch.grid [1, 0] (states index) =
            (none, states (index + 1)) := by
  obtain ⟨layout, scratch, accepted, states, runs⟩ :=
    (groups_in_any_order SmallCall.admits
      (show _ = Predicate.ofTest Element.less from rfl)).1 (by decide)
  refine ⟨layout, scratch, accepted, states, fun index launch listed => ?_⟩
  obtain ⟨-, steps⟩ :=
    runs .prompt false SmallCall.host Environment.calm_prompt SmallCall.settles
  obtain ⟨-, -, ordered⟩ := steps index launch listed
  apply ordered
  obtain ⟨stage, -, rfl⟩ := exists_stage Environment.calm_prompt listed
  exact List.Perm.swap 0 1 []

end SortRequest

end GridSort
