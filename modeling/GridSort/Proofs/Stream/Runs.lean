import GridSort.Stream

namespace GridSort

/-! What becomes of the launches on a stream. However far the worker has got, its state
is that of running the launches it has taken, one after the other, up to the first one
that faults; the rest is still to come. -/

namespace Launch

/-- Runs launches in order. After one that faults, the others are skipped. -/
def runAll : List Launch → Memory → Option Failure × Memory
  | [], memory => (none, memory)
  | launch :: rest, memory =>
      match launch.run memory with
      | (none, memory) => runAll rest memory
      | (some cause, memory) => (some (launch.fault cause), memory)

/-! The lines that a launch can leave in the log. -/

def enqueuedLine (launch : Launch) : LogLine :=
  let name := launch.kernel.name
  let groups := launch.grid.groups
  let lanes := launch.grid.lanes
  ⟨.debug, s!"enqueue `{name}` grid={groups} block={lanes}"⟩

def skippedLine (launch : Launch) : LogLine :=
  let name := launch.kernel.name
  ⟨.warn, s!"skipping `{name}`: stream is in an error state"⟩

/-- The worker finds a name for each kernel. -/
def Answer (launches : List Launch) : Prop :=
  ∀ launch ∈ launches, launch.kernel.answersWorker = true

@[simp] theorem runAll_nil (memory : Memory) : runAll [] memory = (none, memory) := rfl

theorem runAll_cons_of_none {launch : Launch} {memory next : Memory}
    (h : launch.run memory = (none, next)) (rest : List Launch) :
    runAll (launch :: rest) memory = runAll rest next := by
  rw [runAll, h]

theorem runAll_cons_of_some {launch : Launch} {memory next : Memory} {cause : Fault}
    (h : launch.run memory = (some cause, next)) (rest : List Launch) :
    runAll (launch :: rest) memory = (some (launch.fault cause), next) := by
  rw [runAll, h]

theorem runAll_append_of_none {first : List Launch} {memory middle : Memory}
    (h : runAll first memory = (none, middle)) (second : List Launch) :
    runAll (first ++ second) memory = runAll second middle := by
  induction first generalizing memory with
  | nil =>
      cases h
      rfl
  | cons launch rest ih =>
      cases found : launch.run memory with
      | mk cause next =>
          cases cause with
          | none =>
              rw [runAll_cons_of_none found] at h
              rw [List.cons_append, runAll_cons_of_none found, ih h]
          | some cause =>
              rw [runAll_cons_of_some found] at h
              cases h

theorem runAll_append_of_some {first : List Launch} {memory middle : Memory}
    {error : Failure} (h : runAll first memory = (some error, middle))
    (second : List Launch) : runAll (first ++ second) memory = (some error, middle) := by
  induction first generalizing memory with
  | nil => cases h
  | cons launch rest ih =>
      cases found : launch.run memory with
      | mk cause next =>
          cases cause with
          | none =>
              rw [runAll_cons_of_none found] at h
              rw [List.cons_append, runAll_cons_of_none found, ih h]
          | some cause =>
              rw [runAll_cons_of_some found] at h
              rw [List.cons_append, runAll_cons_of_some found, h]

theorem runAll_take_succ {launches : List Launch} {count : Nat} {launch : Launch}
    {memory middle : Memory} (listed : launches[count]? = some launch)
    (ran : runAll (launches.take count) memory = (none, middle)) :
    runAll (launches.take (count + 1)) memory = runAll [launch] middle := by
  obtain ⟨inside, rfl⟩ := List.getElem?_eq_some_iff.mp listed
  rw [List.take_succ_eq_append_getElem inside, runAll_append_of_none ran]

theorem exists_runAll_prefix {first second : List Launch} {memory final : Memory}
    (h : runAll (first ++ second) memory = (none, final)) :
    ∃ middle, runAll first memory = (none, middle) ∧
      runAll second middle = (none, final) := by
  cases found : runAll first memory with
  | mk failure middle =>
      cases failure with
      | none => exact ⟨middle, rfl, (runAll_append_of_none found second).symm.trans h⟩
      | some error =>
          rw [runAll_append_of_some found second] at h
          cases h

end Launch

namespace Stream

/-! The four things that a step of the worker can be. -/

section Step

variable {launch : Launch} {rest : List Launch} {alive : Bool} {device : Device}
  {memory : Memory} {error : Failure} {cause : Fault}

theorem step_of_mute (mute : launch.kernel.answersWorker = false) (failure : Option Failure) :
    step ⟨launch :: rest, failure, alive⟩ device = (⟨[], failure, false⟩, device) := by
  simp only [step, mute, Bool.false_eq_true, if_false]

theorem step_of_failed (answers : launch.kernel.answersWorker = true) :
    step ⟨launch :: rest, some error, alive⟩ device =
      (⟨rest, some error, alive⟩, ⟨device.memory, device.log.push launch.skippedLine⟩) := by
  simp only [step, answers, if_true, Option.isSome_some]
  rfl

theorem step_of_completes (answers : launch.kernel.answersWorker = true)
    (ran : launch.run device.memory = (none, memory)) :
    step ⟨launch :: rest, none, alive⟩ device =
      (⟨rest, none, alive⟩, ⟨memory, device.log⟩) := by
  simp only [step, answers, if_true, Option.isSome_none, ran]
  rfl

theorem step_of_faults (answers : launch.kernel.answersWorker = true)
    (ran : launch.run device.memory = (some cause, memory)) :
    step ⟨launch :: rest, none, alive⟩ device =
      (⟨rest, some (launch.fault cause), alive⟩,
        ⟨memory, device.log.push ⟨.error, (launch.fault cause).message⟩⟩) := by
  simp only [step, answers, if_true, Option.isSome_none, ran]
  rfl

end Step

/-- The four of them, and the step of a worker that has nothing to do. -/
inductive Moves (device : Device) : Stream → Stream × Device → Prop
  | rests {failure : Option Failure} {alive : Bool} :
      Moves device ⟨[], failure, alive⟩ (⟨[], failure, alive⟩, device)
  | leaves {launch : Launch} {rest : List Launch} {failure : Option Failure} {alive : Bool}
      (mute : launch.kernel.answersWorker = false) :
      Moves device ⟨launch :: rest, failure, alive⟩ (⟨[], failure, false⟩, device)
  | skips {launch : Launch} {rest : List Launch} {error : Failure} {alive : Bool}
      (answers : launch.kernel.answersWorker = true) :
      Moves device ⟨launch :: rest, some error, alive⟩
        (⟨rest, some error, alive⟩, ⟨device.memory, device.log.push launch.skippedLine⟩)
  | completes {launch : Launch} {rest : List Launch} {alive : Bool} {memory : Memory}
      (answers : launch.kernel.answersWorker = true)
      (ran : launch.run device.memory = (none, memory)) :
      Moves device ⟨launch :: rest, none, alive⟩ (⟨rest, none, alive⟩, ⟨memory, device.log⟩)
  | faults {launch : Launch} {rest : List Launch} {alive : Bool} {memory : Memory}
      {cause : Fault} (answers : launch.kernel.answersWorker = true)
      (ran : launch.run device.memory = (some cause, memory)) :
      Moves device ⟨launch :: rest, none, alive⟩
        (⟨rest, some (launch.fault cause), alive⟩,
          ⟨memory, device.log.push ⟨.error, (launch.fault cause).message⟩⟩)

theorem moves (stream : Stream) (device : Device) : Moves device stream (stream.step device) := by
  obtain ⟨pending, failure, alive⟩ := stream
  cases pending with
  | nil => exact .rests
  | cons launch rest =>
      cases answers : launch.kernel.answersWorker with
      | false =>
          rw [step_of_mute answers]
          exact .leaves answers
      | true =>
          cases failure with
          | some error =>
              rw [step_of_failed answers]
              exact .skips answers
          | none =>
              cases ran : launch.run device.memory with
              | mk cause memory =>
                  cases cause with
                  | none =>
                      rw [step_of_completes answers ran]
                      exact .completes answers ran
                  | some cause =>
                      rw [step_of_faults answers ran]
                      exact .faults answers ran

/-- A launch on a stream in error is skipped. -/
theorem memory_step {stream : Stream} {error : Failure} (h : stream.failure = some error)
    (device : Device) : (stream.step device).2.memory = device.memory := by
  have moved := stream.moves device
  generalize stream.step device = next at moved ⊢
  cases moved with
  | rests => rfl
  | leaves mute => rfl
  | skips answers => rfl
  | completes answers ran => cases h
  | faults answers ran => cases h

theorem memory_advance {stream : Stream} {error : Failure} (h : stream.failure = some error)
    (count : Nat) (device : Device) :
    (advance count stream device).2.memory = device.memory := by
  induction count generalizing stream device with
  | zero => rfl
  | succ count ih => exact (ih (failure_step h device) _).trans (memory_step h device)

/-- A worker that is gone does not come back. -/
theorem alive_step {stream : Stream} {device : Device}
    (h : (stream.step device).1.alive = true) : stream.alive = true := by
  have moved := stream.moves device
  generalize stream.step device = next at moved h
  cases moved with
  | rests => exact h
  | leaves mute => cases h
  | skips answers => exact h
  | completes answers ran => exact h
  | faults answers ran => exact h

theorem alive_advance {stream : Stream} {device : Device} {count : Nat}
    (h : (advance count stream device).1.alive = true) : stream.alive = true := by
  induction count generalizing stream device with
  | zero => exact h
  | succ count ih => exact alive_step (ih h)

/-! The queue gets shorter with each step of the worker, whatever is in it. -/

theorem length_pending_step (stream : Stream) (device : Device) :
    (stream.step device).1.pending.length ≤ stream.pending.length - 1 := by
  have moved := stream.moves device
  generalize stream.step device = next at moved ⊢
  cases moved with
  | rests => exact Nat.le_refl _
  | leaves mute => exact Nat.zero_le _
  | skips answers => exact Nat.le_refl _
  | completes answers ran => exact Nat.le_refl _
  | faults answers ran => exact Nat.le_refl _

theorem pending_advance {stream : Stream} {count : Nat}
    (enough : stream.pending.length ≤ count) (device : Device) :
    (advance count stream device).1.pending = [] := by
  induction count generalizing stream device with
  | zero => exact List.length_eq_zero_iff.mp (Nat.le_zero.mp enough)
  | succ count ih =>
      have shorter := length_pending_step stream device
      have enoughLeft : (stream.step device).1.pending.length ≤ count := by omega
      exact ih enoughLeft _

theorem pending_drain (stream : Stream) (device : Device) :
    (stream.drain device).1.pending = [] :=
  pending_advance (Nat.le_refl _) device

theorem advance_add (first second : Nat) (stream : Stream) (device : Device) :
    advance (first + second) stream device =
      advance second (advance first stream device).1 (advance first stream device).2 := by
  induction first generalizing stream device with
  | zero => rw [Nat.zero_add, advance]
  | succ first ih =>
      rw [Nat.succ_add, advance, advance]
      exact ih _ _

theorem advance_eq_drain {stream : Stream} {count : Nat} {device : Device}
    (rest : (advance count stream device).1.pending = []) :
    advance count stream device = stream.drain device := by
  have further := advance_add count stream.pending.length stream device
  have done := advance_of_pending_eq_nil (pending_drain stream device) count
    (stream.drain device).2
  rw [advance_of_pending_eq_nil rest, Nat.add_comm, advance_add] at further
  exact further.symm.trans done

/-- How far the worker gets on its own makes no difference to a caller who waits. -/
theorem drain_advance (count : Nat) (stream : Stream) (device : Device) :
    (advance count stream device).1.drain (advance count stream device).2 =
      stream.drain device := by
  have rest := pending_drain (advance count stream device).1 (advance count stream device).2
  rw [drain, ← advance_add] at rest ⊢
  exact advance_eq_drain rest

/-! What the worker has done by the launches it has taken. -/

/-- The worker has taken some of the launches, and has got as far as they lead. -/
structure Follows (stream : Stream) (device : Device) (start : Memory)
    (launches : List Launch) : Prop where
  alive : stream.alive = true
  answer : Launch.Answer launches
  split : ∃ taken, launches = taken ++ stream.pending ∧
    Launch.runAll taken start = (stream.failure, device.memory)

variable {stream : Stream} {device : Device} {start : Memory} {launches : List Launch}

theorem Follows.step (h : stream.Follows device start launches) :
    (stream.step device).1.Follows (stream.step device).2 start launches := by
  have moved := stream.moves device
  generalize stream.step device = next at moved ⊢
  obtain ⟨alive, answer, taken, rfl, ran⟩ := h
  have split : ∀ launch rest, taken ++ launch :: rest = (taken ++ [launch]) ++ rest := by simp
  cases moved with
  | rests => exact ⟨alive, answer, taken, rfl, ran⟩
  | @leaves launch rest failure alive mute =>
      have answers := answer launch (List.mem_append_right _ List.mem_cons_self)
      rw [mute] at answers
      cases answers
  | skips answers =>
      exact ⟨alive, answer, _, split _ _, Launch.runAll_append_of_some ran _⟩
  | completes answers found =>
      refine ⟨alive, answer, _, split _ _, ?_⟩
      rw [Launch.runAll_append_of_none ran, Launch.runAll_cons_of_none found]
      rfl
  | faults answers found =>
      refine ⟨alive, answer, _, split _ _, ?_⟩
      rw [Launch.runAll_append_of_none ran, Launch.runAll_cons_of_some found]

theorem Follows.advance (h : stream.Follows device start launches) (count : Nat) :
    (Stream.advance count stream device).1.Follows (Stream.advance count stream device).2
      start launches := by
  induction count generalizing stream device with
  | zero => exact h
  | succ count ih => exact ih h.step

theorem Follows.enqueue (h : stream.Follows device start launches) {launch : Launch}
    (answers : launch.kernel.answersWorker = true) :
    (stream.enqueue launch).Follows device start (launches ++ [launch]) := by
  obtain ⟨alive, answer, taken, rfl, ran⟩ := h
  refine ⟨alive, ?_, taken, List.append_assoc _ _ _, ran⟩
  intro other member
  rcases List.mem_append.mp member with earlier | new
  · exact answer other earlier
  · rwa [List.mem_singleton.mp new]

theorem Follows.runAll_of_failure (h : stream.Follows device start launches)
    {error : Failure} (failed : stream.failure = some error) :
    Launch.runAll launches start = (some error, device.memory) := by
  obtain ⟨-, -, taken, rfl, ran⟩ := h
  rw [failed] at ran
  exact Launch.runAll_append_of_some ran _

theorem Follows.failure_eq_none (h : stream.Follows device start launches)
    {final : Memory} (runs : Launch.runAll launches start = (none, final)) :
    stream.failure = none := by
  cases failed : stream.failure with
  | none => rfl
  | some error =>
      rw [h.runAll_of_failure failed] at runs
      cases runs

theorem Follows.runAll_of_rest (h : stream.Follows device start launches)
    (rest : stream.pending = []) :
    Launch.runAll launches start = (stream.failure, device.memory) := by
  obtain ⟨-, -, taken, rfl, ran⟩ := h
  rw [rest, List.append_nil]
  exact ran

end Stream

end GridSort
