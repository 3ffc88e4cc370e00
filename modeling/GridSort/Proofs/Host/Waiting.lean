import GridSort.Proofs.Host.Disturbance
import GridSort.Proofs.Host.Sites

namespace GridSort

/-! One launch on a healthy stream, and a caller who waits for it. -/

namespace Host

/-- The launch is taken, and the caller who waits for it is given the result. -/
def Gives (host : Host) (environment : Environment) (kernel : Kernel) (grid : Grid)
    (result : Except Failure Unit) (rested : Host) : Prop :=
  ∃ launched, (HostM.launch environment kernel grid).outcome host = (.ok (), launched) ∧
    (HostM.synchronize environment).outcome launched = (result, rested)

variable {host : Host} {environment : Environment} {kernel : Kernel} {grid : Grid}
  {memory final : Memory}

/-- The stream comes to rest with what the groups of the launch lead to. -/
theorem Settles.exists_gives {cause : Option Fault} (settles : host.Settles memory)
    (calm : environment.Calm) (valid : grid.isValid = true)
    (answers : kernel.answersWorker = true)
    (ran : Launch.runGroups kernel grid (environment.order host.attempts.size grid.groups) memory =
      (cause, final)) :
    ∃ rested, host.Gives environment kernel grid
        (Stream.atRest (cause.map (.kernelFault kernel.name))).status rested ∧
      rested.stream = .atRest (cause.map (.kernelFault kernel.name)) ∧
      rested.device.memory = final := by
  obtain ⟨launched, accepted, follows, -⟩ := HostM.exists_launch settles.follows
    (calm.refusal _ kernel) valid (by rwa [calm.disturb])
  have made : HostM.made environment host.attempts.size kernel grid =
      ⟨kernel, grid, environment.order host.attempts.size⟩ := by
    rw [HostM.made, calm.disturb]
  have ran : (⟨kernel, grid, environment.order host.attempts.size⟩ : Launch).run memory =
      (cause, final) := ran
  have taken : Launch.runAll [⟨kernel, grid, environment.order host.attempts.size⟩] memory =
      (cause.map (.kernelFault kernel.name), final) := by
    cases cause with
    | none => exact Launch.runAll_cons_of_none ran []
    | some cause => exact Launch.runAll_cons_of_some ran []
  rw [made] at follows
  have waited := follows.proceed environment
  have reached := waited.runAll_drain
  rw [Launch.runAll_append_of_none settles.completes, taken] at reached
  obtain ⟨failure, same⟩ := Prod.mk.inj reached
  have rests : (launched.proceed environment).drain.stream =
      .atRest (cause.map (.kernelFault kernel.name)) := by
    have pending := pending_drain (launched.proceed environment)
    have alive := waited.drain.alive
    cases stream : (launched.proceed environment).drain.stream with
    | mk left recorded living =>
        rw [stream] at pending alive failure
        cases pending
        cases alive
        cases failure
        rfl
  refine ⟨_, ⟨launched, accepted, ?_⟩, rests, same.symm⟩
  rw [HostM.outcome_synchronize_of_alive waited.drain.alive, rests]

end Host

/-- Whoever launches the kernel on a healthy stream and waits for it finds this memory, in
whatever order the groups run. -/
def Kernel.LeadsTo (kernel : Kernel) (grid : Grid) (memory final : Memory) : Prop :=
  ∀ (environment : Environment) (host : Host), environment.Calm → host.Settles memory →
    ∃ rested, host.Gives environment kernel grid (.ok ()) rested ∧ rested.stream = .idle ∧
      rested.device.memory = final

theorem Kernel.leadsTo {kernel : Kernel} {grid : Grid} {memory final : Memory}
    (valid : grid.isValid = true) (answers : kernel.answersWorker = true)
    (runs : ∀ order : List Nat, order.Perm (List.range grid.groups) →
      Launch.runGroups kernel grid order memory = (none, final)) :
    kernel.LeadsTo grid memory final :=
  fun _ _ calm settles => settles.exists_gives calm valid answers (runs _ (calm.order _ _))

end GridSort
