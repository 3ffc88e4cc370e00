import GridSort.Proofs.Host.Disturbance
import GridSort.Proofs.Host.Invariants

namespace GridSort

/-! Two callers side by side who take the same launches to their streams. If each launch is
done before the caller's next step, to wait for it once more changes nothing but the terminal. -/

theorem Stream.Standing.of_rest {stream : Stream} (rest : stream.pending = [])
    (alive : stream.alive = true) : Standing [] stream := by
  obtain ⟨pending, failure, living⟩ := stream
  cases rest
  cases alive
  exact .serving [] failure rfl (List.forall_mem_nil _)

namespace Host

/-- The hosts differ in what has been printed and in the steps of the caller alone. -/
structure Matches (host twin : Host) : Prop where
  stream : host.stream = twin.stream
  device : host.device = twin.device
  bytesNeeded : host.bytesNeeded = twin.bytesNeeded
  attempts : host.attempts = twin.attempts

namespace Matches

variable {host twin other : Host}

theorem refl (host : Host) : host.Matches host := ⟨rfl, rfl, rfl, rfl⟩

theorem trans (first : host.Matches twin) (second : twin.Matches other) : host.Matches other :=
  ⟨first.stream.trans second.stream, first.device.trans second.device,
    first.bytesNeeded.trans second.bytesNeeded, first.attempts.trans second.attempts⟩

theorem print (h : host.Matches twin) (report : Report) : (host.print report).Matches twin :=
  ⟨h.stream, h.device, h.bytesNeeded, h.attempts⟩

theorem note (h : host.Matches twin) (level : Level) (text : String) :
    (host.note level text).Matches (twin.note level text) :=
  ⟨h.stream, congrArg (·.note level text) h.device, h.bytesNeeded, h.attempts⟩

theorem enqueue (h : host.Matches twin) (launch : Launch) :
    (host.enqueue launch).Matches (twin.enqueue launch) :=
  { h.note launch.enqueuedLine.level launch.enqueuedLine.text with
    stream := congrArg (·.enqueue launch) h.stream }

end Matches

variable {environment : Environment} (prompt : environment.Waits false)
include prompt

theorem pending_proceed_of_waits (host : Host) :
    (host.proceed environment).stream.pending = [] :=
  pending_proceed environment (prompt.resolve_left Bool.false_ne_true) host

theorem Matches.proceed {host twin : Host} (h : host.Matches twin) :
    (host.proceed environment).Matches (twin.proceed environment) := by
  obtain ⟨stream, device, bytesNeeded, attempts, printed, clock⟩ := host
  obtain ⟨twinStream, twinDevice, twinBytes, twinAttempts, twinPrinted, twinClock⟩ := twin
  obtain ⟨rfl, rfl, rfl, rfl⟩ := h
  have drained : ∀ clock, Stream.advance (environment.pace clock stream.pending.length) stream
      device = stream.drain device := fun clock =>
    Stream.advance_eq_drain (Stream.pending_advance
      (prompt.resolve_left Bool.false_ne_true _ _) device)
  refine ⟨?_, ?_, rfl, rfl⟩
  · exact congrArg Prod.fst ((drained clock).trans (drained twinClock).symm)
  · exact congrArg Prod.snd ((drained clock).trans (drained twinClock).symm)

theorem Matches.attempt {host twin : Host} (h : host.Matches twin) (kernel : Kernel)
    (grid : Grid) : (host.attempt environment kernel grid).Matches
      (twin.attempt environment kernel grid) :=
  { h.proceed prompt with
    attempts := congrArg (fun attempts => attempts.push ⟨kernel.name, grid⟩) h.attempts }

end Host

namespace HostM

/-- From hosts that match, the steps come to the same result, and the hosts match again. -/
def Matched (steps others : HostM Unit) : Prop :=
  ∀ host twin, host.Matches twin →
    (steps.outcome host).1 = (others.outcome twin).1 ∧
      (steps.outcome host).2.Matches (others.outcome twin).2

namespace Matched

variable {steps others next otherNext : HostM Unit}

theorem note (level : Level) (text : String) :
    Matched (modify (Host.note level text)) (modify (Host.note level text)) :=
  fun _ _ matched => ⟨rfl, matched.note level text⟩

theorem bind (first : Matched steps others) (second : Matched next otherNext) :
    Matched (steps >>= fun _ => next) (others >>= fun _ => otherNext) := by
  intro host twin matched
  have reached := first host twin matched
  rw [outcome_bind, outcome_bind]
  cases found : steps.outcome host with
  | mk result middle =>
      cases otherFound : others.outcome twin with
      | mk otherResult otherMiddle =>
          rw [found, otherFound] at reached
          obtain ⟨rfl, matchedMiddle⟩ := reached
          cases result with
          | ok value => exact second middle otherMiddle matchedMiddle
          | error error => exact ⟨rfl, matchedMiddle⟩

theorem forM {run otherRun : Stage → HostM Unit} {stages : List Stage}
    (each : ∀ stage ∈ stages, Matched (run stage) (otherRun stage)) :
    Matched (stages.forM run) (stages.forM otherRun) := by
  induction stages with
  | nil => exact fun _ _ matched => ⟨rfl, matched⟩
  | cons stage rest ih =>
      obtain ⟨first, later⟩ := List.forall_mem_cons.mp each
      exact first.bind (ih later)

theorem print_bind (h : Matched steps others) (report : Report) :
    Matched (modify (Host.print report) >>= fun _ => steps) others := by
  intro host twin matched
  rw [outcome_bind_of_ok (outcome_modify _ _)]
  exact h (host.print report) twin (matched.print report)

variable {environment : Environment}

theorem enqueue (kernel : Kernel) (grid : Grid) (order : Nat → List Nat) :
    Matched (HostM.enqueue kernel grid order) (HostM.enqueue kernel grid order) := by
  intro host twin matched
  rw [outcome_enqueue, outcome_enqueue, matched.stream]
  split
  · split
    · exact ⟨rfl, matched.enqueue _⟩
    · exact ⟨rfl, matched.note _ _⟩
  · exact ⟨rfl, matched⟩

variable (prompt : environment.Waits false)
include prompt

theorem launch (kernel : Kernel) (grid : Grid) :
    Matched (HostM.launch environment kernel grid) (HostM.launch environment kernel grid) := by
  intro host twin matched
  have attempted := matched.attempt prompt kernel grid
  rw [outcome_launch, outcome_launch, matched.attempts]
  cases environment.refusal twin.attempts.size kernel with
  | some error => exact ⟨rfl, attempted⟩
  | none => exact enqueue _ grid _ _ _ attempted

theorem peek : Matched (HostM.peek environment) (HostM.peek environment) := by
  intro host twin matched
  have proceeded := matched.proceed prompt
  rw [outcome_peek, outcome_peek, proceeded.stream]
  exact ⟨rfl, proceeded⟩

end Matched

variable {environment : Environment} {host launched : Host} {kernel : Kernel} {grid : Grid}

/-- A worker that has a name for what it is given, and nothing else to do, does not go. -/
theorem alive_of_launch (prompt : environment.Waits false)
    (answers : ∀ index, (environment.disturb index kernel).answersWorker = true)
    (accepted : (launch environment kernel grid).outcome host = (.ok (), launched)) :
    (launched.proceed environment).stream.alive = true := by
  have rest : (host.attempt environment kernel grid).stream.pending = [] :=
    Host.pending_proceed_of_waits prompt host
  rw [outcome_launch] at accepted
  split at accepted
  · cases accepted
  · rw [outcome_enqueue] at accepted
    split at accepted
    · split at accepted
      · rename_i alive
        cases accepted
        have given := (Stream.Standing.of_rest rest alive).enqueue alive
          (made environment host.attempts.size kernel grid)
        exact (given.advance _ _).alive_of_answer (List.forall_mem_singleton.mpr (answers _))
      · cases accepted
    · cases accepted

/-- To wait for what is done already, and to print, is nothing to the stream. -/
theorem exists_watch (rest : host.stream.pending = []) (alive : host.stream.alive = true)
    (healthy : host.stream.failure = none) (report : Report) :
    ∃ after, (synchronize environment >>= fun _ => modify (Host.print report)).outcome host =
        (.ok (), after) ∧ after.Matches host := by
  have waited : (host.proceed environment).drain = { host with clock := host.clock + 1 } := by
    rw [Host.drain_of_rest, Host.proceed_of_rest rest]
    rw [Host.proceed_of_rest rest]
    exact rest
  have synchronized : (synchronize environment).outcome host =
      (.ok (), { host with clock := host.clock + 1 }) := by
    rw [outcome_synchronize, waited, if_pos alive, Stream.status, healthy]
  rw [outcome_bind_of_ok synchronized]
  exact ⟨_, rfl, rfl, rfl, rfl, rfl⟩

section Stage

variable {stage : Stage} (prompt : environment.Waits false)
include prompt

theorem watched_stage
    (answers : ∀ index, (environment.disturb index stage.kernel).answersWorker = true)
    (grid : Grid) (size : Nat) (host : Host) :
    ((stage.run environment true grid size).outcome host).1 =
        ((stage.run environment false grid size).outcome host).1 ∧
      ((stage.run environment true grid size).outcome host).2.Matches
        ((stage.run environment false grid size).outcome host).2 := by
  rw [Stage.run, Stage.run]
  cases found : (launch environment stage.kernel grid).outcome host with
  | mk result launched =>
      cases result with
      | error error =>
          rw [outcome_bind_of_error found, outcome_bind_of_error found]
          exact ⟨rfl, .refl launched⟩
      | ok value =>
          rw [outcome_bind_of_ok found, outcome_bind_of_ok found]
          have peeked : (peek environment).outcome launched = _ := outcome_peek launched
          cases failure : (launched.proceed environment).stream.failure with
          | some error =>
              rw [Stream.status, failure] at peeked
              rw [outcome_bind_of_error peeked, outcome_bind_of_error peeked]
              exact ⟨rfl, .refl _⟩
          | none =>
              rw [Stream.status, failure] at peeked
              rw [outcome_bind_of_ok peeked, outcome_bind_of_ok peeked]
              obtain ⟨after, outcome, same⟩ :=
                exists_watch (Host.pending_proceed_of_waits prompt launched)
                  (alive_of_launch prompt answers found) failure (.stage stage.label size)
              rw [if_pos rfl, outcome]
              exact ⟨rfl, same⟩

/-- A stage that is watched comes to the same as one that is not. -/
theorem matched_stage
    (answers : ∀ index, (environment.disturb index stage.kernel).answersWorker = true)
    (grid : Grid) (size : Nat) :
    Matched (stage.run environment true grid size) (stage.run environment false grid size) := by
  have quiet : Matched (stage.run environment false grid size)
      (stage.run environment false grid size) :=
    (Matched.launch prompt stage.kernel grid).bind
      ((Matched.peek prompt).bind fun _ _ matched => ⟨rfl, matched⟩)
  intro host twin matched
  obtain ⟨same, watched⟩ := watched_stage prompt answers grid size host
  obtain ⟨equal, reached⟩ := quiet host twin matched
  exact ⟨same.trans equal, watched.trans reached⟩

end Stage

end HostM

end GridSort
