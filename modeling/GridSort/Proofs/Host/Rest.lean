import GridSort.Proofs.Host.Steps

namespace GridSort

/-! Two states in which a caller can find a stream: healthy, with work to do that will
not fault, and in error, which is for good. -/

namespace Host

/-- The stream is healthy, and memory is as given once its pending launches are done. -/
structure Settles (host : Host) (memory : Memory) : Prop where
  alive : host.stream.alive = true
  failure : host.stream.failure = none
  answer : Launch.Answer host.stream.pending
  completes : Launch.runAll host.stream.pending host.device.memory = (none, memory)

variable {host : Host} {memory start : Memory} {launches : List Launch} {error : Failure}
  (environment : Environment)

theorem Settles.follows (h : host.Settles memory) :
    host.Follows host.device.memory host.stream.pending := by
  refine ⟨h.alive, h.answer, [], rfl, ?_⟩
  rw [h.failure]
  rfl

theorem Follows.settles (h : host.Follows start launches)
    (runs : Launch.runAll launches start = (none, memory)) : host.Settles memory := by
  have failure := Stream.Follows.failure_eq_none h runs
  obtain ⟨alive, answer, taken, rfl, ran⟩ := h
  rw [failure] at ran
  refine ⟨alive, failure, ?_, ?_⟩
  · exact fun launch member => answer launch (List.mem_append_right _ member)
  · rw [← Launch.runAll_append_of_none ran, runs]

theorem settles_of_idle (alive : host.stream.alive = true)
    (failure : host.stream.failure = none) (rest : host.stream.pending = []) :
    host.Settles host.device.memory := by
  refine ⟨alive, failure, ?_, ?_⟩
  · rw [rest]
    exact fun _ member => nomatch member
  · rw [rest, Launch.runAll_nil]

theorem Settles.print (h : host.Settles memory) (report : Report) :
    (host.print report).Settles memory := ⟨h.alive, h.failure, h.answer, h.completes⟩

theorem Settles.synchronize (h : host.Settles memory) :
    ∃ rested, (HostM.synchronize environment).outcome host = (.ok (), rested) ∧
      rested.stream.pending = [] ∧ rested.device.memory = memory ∧
      rested.attempts = host.attempts := by
  have waited := h.follows.proceed environment
  have failure := Stream.Follows.failure_eq_none waited.drain h.completes
  have ran := waited.runAll_drain
  rw [h.completes] at ran
  refine ⟨_, ?_, Host.pending_drain _, (congrArg Prod.snd ran).symm, rfl⟩
  rw [HostM.outcome_synchronize_of_alive waited.drain.alive, Stream.status, failure]

/-- The caller who waits for launches of which one faults is told. -/
theorem Follows.exists_synchronize (h : host.Follows start launches)
    (faults : Launch.runAll launches start = (some error, memory)) :
    ∃ rested, (HostM.synchronize environment).outcome host = (.error error, rested) ∧
      rested.device.memory = memory := by
  have waited := h.proceed environment
  have ran := waited.runAll_drain
  rw [faults] at ran
  obtain ⟨failure, same⟩ := Prod.mk.inj ran
  refine ⟨_, ?_, same.symm⟩
  rw [HostM.outcome_synchronize_of_alive waited.drain.alive, Stream.status, ← failure]

def Failed (host : Host) (error : Failure) : Prop :=
  (∃ start launches, host.Follows start launches) ∧ host.stream.failure = some error

theorem Failed.alive (h : host.Failed error) : host.stream.alive = true := by
  obtain ⟨⟨start, launches, follows⟩, -⟩ := h
  exact follows.alive

theorem Failed.proceed (h : host.Failed error) : (host.proceed environment).Failed error := by
  obtain ⟨⟨start, launches, follows⟩, failure⟩ := h
  exact ⟨⟨start, launches, follows.proceed environment⟩, Stream.failure_advance failure _ _⟩

theorem Failed.drain (h : host.Failed error) : host.drain.Failed error := by
  obtain ⟨⟨start, launches, follows⟩, failure⟩ := h
  exact ⟨⟨start, launches, follows.drain⟩, Stream.failure_advance failure _ _⟩

theorem Failed.memory_proceed (h : host.Failed error) :
    (host.proceed environment).device.memory = host.device.memory :=
  Stream.memory_advance h.2 _ _

theorem Failed.memory_drain (h : host.Failed error) :
    host.drain.device.memory = host.device.memory :=
  Stream.memory_advance h.2 _ _

theorem Failed.peek (h : host.Failed error) :
    (HostM.peek environment).outcome host = (.error error, host.proceed environment) := by
  rw [HostM.outcome_peek, Stream.status, (h.proceed environment).2]

theorem Failed.synchronize (h : host.Failed error) :
    (HostM.synchronize environment).outcome host =
      (.error error, (host.proceed environment).drain) := by
  have waited := (h.proceed environment).drain
  rw [HostM.outcome_synchronize_of_alive waited.alive, Stream.status, waited.2]

theorem Failed.launch (h : host.Failed error) {kernel : Kernel}
    (answers : ∀ index, (environment.disturb index kernel).answersWorker = true)
    (grid : Grid) :
    ((HostM.launch environment kernel grid).outcome host).2.Failed error := by
  obtain ⟨⟨start, launches, follows⟩, failure⟩ := h.proceed environment
  cases refusal : environment.refusal host.attempts.size kernel with
  | some refused =>
      rw [HostM.outcome_launch_of_refusal refusal]
      exact ⟨⟨start, launches, follows⟩, failure⟩
  | none =>
      cases valid : grid.isValid with
      | true =>
          rw [HostM.outcome_launch_of_valid refusal valid follows.alive]
          exact ⟨⟨start, _, Follows.enqueue follows (answers _)⟩, failure⟩
      | false =>
          rw [HostM.outcome_launch_of_invalid refusal valid]
          exact ⟨⟨start, launches, follows⟩, failure⟩

end Host

/-- What a caller can go on to do with a stream. -/
inductive CallerStep
  | launch (kernel : Kernel) (grid : Grid)
  | peek
  | synchronize

namespace CallerStep

def perform (environment : Environment) : CallerStep → HostM Unit
  | .launch kernel grid => HostM.launch environment kernel grid
  | .peek => HostM.peek environment
  | .synchronize => HostM.synchronize environment

theorem alive_of_perform {environment : Environment} {host : Host} {step : CallerStep}
    (h : ((step.perform environment).outcome host).2.stream.alive = true) :
    host.stream.alive = true := by
  have proceeding : ∀ {count : Nat},
      (Stream.advance count host.stream host.device).1.alive = true →
        host.stream.alive = true := Stream.alive_advance
  cases step with
  | launch kernel grid =>
      rw [perform] at h
      rcases HostM.host_launch environment kernel grid host with same | ⟨launch, same | same⟩
      all_goals
        rw [same] at h
        exact proceeding h
  | peek =>
      rw [perform, HostM.outcome_peek] at h
      exact proceeding h
  | synchronize =>
      rw [perform, HostM.outcome_synchronize] at h
      split at h
      · exact proceeding (Stream.alive_advance h)
      · exact proceeding (Stream.alive_advance h)

/-- The worker finds a name for what is launched. -/
def Answers (environment : Environment) : CallerStep → Prop
  | .launch kernel _ => ∀ index, (environment.disturb index kernel).answersWorker = true
  | .peek => True
  | .synchronize => True

def performAll (environment : Environment) (steps : List CallerStep) (host : Host) : Host :=
  steps.foldl (fun host step => ((step.perform environment).outcome host).2) host

theorem failed_perform {environment : Environment} {host : Host} {error : Failure}
    (h : host.Failed error) {step : CallerStep} (answers : step.Answers environment) :
    ((step.perform environment).outcome host).2.Failed error := by
  cases step with
  | launch kernel grid => exact h.launch environment answers grid
  | peek =>
      rw [perform, h.peek environment]
      exact h.proceed environment
  | synchronize =>
      rw [perform, h.synchronize environment]
      exact (h.proceed environment).drain

/-- The sticky error stays whatever the caller does. -/
theorem failed_performAll {environment : Environment} {host : Host} {error : Failure}
    (h : host.Failed error) {steps : List CallerStep}
    (answers : ∀ step ∈ steps, step.Answers environment) :
    (performAll environment steps host).Failed error := by
  induction steps generalizing host with
  | nil => exact h
  | cons step rest ih =>
      exact ih (failed_perform h (answers step List.mem_cons_self))
        fun later member => answers later (List.mem_cons_of_mem _ member)

end CallerStep

end GridSort
