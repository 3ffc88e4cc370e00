import GridSort.Kernel.Probe
import GridSort.Proofs.Host.Disturbance
import GridSort.Proofs.Host.Invariants
import GridSort.Proofs.Host.Rest

namespace GridSort

/-! The end of a worker. It is gone once it has taken a launch whose kernel gives it no name,
and not before. From then on a caller gets nothing done, and is told so. -/

/-- Whatever a caller can do with a stream, and with buffers when it has come to rest. -/
inductive Operation
  | step (next : CallerStep)
  | download {type : ElementType} (buffer : Buffer type)
  | upload {type : ElementType} (buffer : Buffer type) (elements : List (Element type))

namespace Operation

def perform (environment : Environment) : Operation → HostM Unit
  | .step next => next.perform environment
  | .download buffer => HostM.download environment buffer >>= fun _ => pure ()
  | .upload buffer elements => HostM.upload environment buffer elements

/-- The launch that is made, if the operation is a launch and returns no error. -/
def accepted (environment : Environment) (operation : Operation) (host : Host) : List Launch :=
  match operation with
  | .step (.launch kernel grid) =>
      match ((HostM.launch environment kernel grid).outcome host).1 with
      | .ok _ => [HostM.made environment host.attempts.size kernel grid]
      | .error _ => []
  | _ => []

/-- Performs the operations one after the other, whatever the ones before returned. -/
def performAll (environment : Environment) :
    List Operation → Host → List (Except Failure Unit) × Host
  | [], host => ([], host)
  | operation :: rest, host =>
      let (result, middle) := (operation.perform environment).outcome host
      let (results, after) := performAll environment rest middle
      (result :: results, after)

def acceptedAll (environment : Environment) : List Operation → Host → List Launch
  | [], _ => []
  | operation :: rest, host =>
      operation.accepted environment host ++
        acceptedAll environment rest ((operation.perform environment).outcome host).2

/-- What a caller is told whose stream has lost its worker with this on record. -/
def told (recorded : Option Failure) : Operation → Except Failure Unit
  | .step (.launch kernel grid) =>
      .error (if grid.isValid then Stream.gone kernel.name
        else .invalidConfiguration kernel.name grid)
  | .step .peek => (Stream.deserted recorded).status
  | .step .synchronize => .error (Stream.gone "<synchronize>")
  | .download _ => .error (Stream.gone "<synchronize>")
  | .upload buffer elements =>
      .error (if elements.length = buffer.length then Stream.gone "<synchronize>"
        else .invalidValue (.lengthMismatch elements.length buffer.length))

variable {environment : Environment} {operation : Operation} {operations : List Operation}
  {host : Host} {recorded : Option Failure}

theorem outcome_of_deserted (calm : environment.Calm)
    (gone : host.stream = .deserted recorded) (operation : Operation) :
    ((operation.perform environment).outcome host).1 = operation.told recorded ∧
      ((operation.perform environment).outcome host).2.stream = host.stream ∧
      ((operation.perform environment).outcome host).2.device.memory = host.device.memory := by
  have rest : host.stream.pending = [] := by
    rw [gone]
    rfl
  have dead : host.stream.alive = false := by
    rw [gone]
    rfl
  have proceeded := Host.proceed_of_rest rest environment
  have waited : (HostM.synchronize environment).outcome host =
      (.error (Stream.gone "<synchronize>"), { host with clock := host.clock + 1 }) := by
    have drained : ({ host with clock := host.clock + 1 } : Host).drain = _ :=
      Host.drain_of_rest rest
    rw [HostM.outcome_synchronize, proceeded, drained, if_neg]
    rw [dead]
    exact Bool.false_ne_true
  cases operation with
  | step next =>
      cases next with
      | launch kernel grid =>
          cases valid : grid.isValid with
          | false =>
              rw [perform, CallerStep.perform,
                HostM.outcome_launch_of_invalid (calm.refusal _ _) valid, Host.attempt,
                proceeded, calm.disturb, told, valid]
              exact ⟨rfl, rfl, rfl⟩
          | true =>
              have still : (host.proceed environment).stream.alive = false := by
                rw [proceeded]
                exact dead
              rw [perform, CallerStep.perform,
                HostM.outcome_launch_of_gone (calm.refusal _ _) valid still, Host.attempt,
                proceeded, calm.disturb, told, valid]
              exact ⟨rfl, rfl, rfl⟩
      | peek =>
          rw [perform, CallerStep.perform, HostM.outcome_peek, proceeded, told, ← gone]
          exact ⟨rfl, rfl, rfl⟩
      | synchronize =>
          rw [perform, CallerStep.perform, waited]
          exact ⟨rfl, rfl, rfl⟩
  | download buffer =>
      have stopped : (HostM.download environment buffer).outcome host = _ :=
        HostM.outcome_bind_of_error waited _
      rw [perform, HostM.outcome_bind_of_error stopped]
      exact ⟨rfl, rfl, rfl⟩
  | upload buffer elements =>
      rw [perform, HostM.upload, told]
      by_cases same : elements.length = buffer.length
      · rw [if_pos same, if_pos same, HostM.outcome_bind_of_error waited]
        exact ⟨rfl, rfl, rfl⟩
      · rw [if_neg same, if_neg same]
        exact ⟨rfl, rfl, rfl⟩

theorem performAll_of_deserted (calm : environment.Calm)
    (gone : host.stream = .deserted recorded) (operations : List Operation) :
    (performAll environment operations host).1 = operations.map (told recorded) ∧
      (performAll environment operations host).2.stream = host.stream ∧
      (performAll environment operations host).2.device.memory = host.device.memory := by
  induction operations generalizing host with
  | nil => exact ⟨rfl, rfl, rfl⟩
  | cons operation rest ih =>
      obtain ⟨answer, stream, memory⟩ := outcome_of_deserted calm gone operation
      obtain ⟨answers, laterStream, laterMemory⟩ := ih (stream.trans gone)
      refine ⟨?_, laterStream.trans stream, laterMemory.trans memory⟩
      rw [List.map_cons, ← answer, ← answers]
      rfl

/-- What an operation does besides letting the worker go on: a launch is accepted, or nothing
is, and then memory can only change on a stream that has its worker. -/
theorem exists_perform (calm : environment.Calm) (operation : Operation) (host : Host) :
    ∃ count,
      (operation.accepted environment host = [] ∧
        ((operation.perform environment).outcome host).2.stream = (host.advance count).stream ∧
        ((host.advance count).stream.alive = false →
          ((operation.perform environment).outcome host).2.device.memory =
            (host.advance count).device.memory)) ∨
      ∃ launch, operation.accepted environment host = [launch] ∧
        launch.grid.isValid = true ∧ (host.advance count).stream.alive = true ∧
        ((operation.perform environment).outcome host).2.stream =
          (host.advance count).stream.enqueue launch := by
  cases operation with
  | step next =>
      cases next with
      | launch kernel grid =>
          refine ⟨environment.pace host.clock host.stream.pending.length, ?_⟩
          rw [accepted, perform, CallerStep.perform]
          cases valid : grid.isValid with
          | false =>
              rw [HostM.outcome_launch_of_invalid (calm.refusal _ _) valid]
              exact Or.inl ⟨rfl, rfl, fun _ => rfl⟩
          | true =>
              cases alive : (host.proceed environment).stream.alive with
              | false =>
                  rw [HostM.outcome_launch_of_gone (calm.refusal _ _) valid alive]
                  exact Or.inl ⟨rfl, rfl, fun _ => rfl⟩
              | true =>
                  rw [HostM.outcome_launch_of_valid (calm.refusal _ _) valid alive]
                  exact Or.inr ⟨_, rfl, valid, alive, rfl⟩
      | peek =>
          refine ⟨environment.pace host.clock host.stream.pending.length, Or.inl ?_⟩
          rw [perform, CallerStep.perform, HostM.outcome_peek]
          exact ⟨rfl, rfl, fun _ => rfl⟩
      | synchronize =>
          obtain ⟨count, stream, device⟩ := host.exists_drain environment
          refine ⟨count, Or.inl ⟨rfl, ?_⟩⟩
          rw [perform, CallerStep.perform, HostM.host_synchronize]
          exact ⟨stream, fun _ => congrArg Device.memory device⟩
  | download buffer =>
      obtain ⟨count, stream, device⟩ := host.exists_drain environment
      refine ⟨count, Or.inl ⟨rfl, ?_⟩⟩
      rw [perform, HostM.outcome_bind]
      have waited := HostM.host_download environment buffer host
      cases found : (HostM.download environment buffer).outcome host with
      | mk result after =>
          rw [found] at waited
          subst waited
          cases result with
          | ok _ => exact ⟨stream, fun _ => congrArg Device.memory device⟩
          | error _ => exact ⟨stream, fun _ => congrArg Device.memory device⟩
  | upload buffer elements =>
      by_cases same : elements.length = buffer.length
      · obtain ⟨count, stream, device⟩ := host.exists_drain environment
        refine ⟨count, Or.inl ⟨rfl, ?_⟩⟩
        rw [perform, HostM.upload, if_pos same, HostM.outcome_bind, HostM.outcome_synchronize]
        cases alive : (host.proceed environment).drain.stream.alive with
        | false => exact ⟨stream, fun _ => congrArg Device.memory device⟩
        | true =>
            have living : (host.advance count).stream.alive = true := by rwa [← stream]
            rw [if_pos rfl]
            cases (host.proceed environment).drain.stream.status with
            | error error => exact ⟨stream, fun _ => congrArg Device.memory device⟩
            | ok _ => exact ⟨stream, fun gone => Bool.noConfusion (living.symm.trans gone)⟩
      · refine ⟨0, Or.inl ⟨rfl, ?_⟩⟩
        rw [perform, HostM.upload, if_neg same]
        exact ⟨rfl, fun _ => rfl⟩

theorem accepted_valid (calm : environment.Calm) :
    ∀ launch ∈ acceptedAll environment operations host, launch.grid.isValid = true := by
  induction operations generalizing host with
  | nil => exact List.forall_mem_nil _
  | cons operation rest ih =>
      refine List.forall_mem_append.mpr ⟨?_, ih⟩
      obtain ⟨count, ⟨nothing, -⟩ | ⟨launch, one, valid, -⟩⟩ := exists_perform calm operation host
      · rw [nothing]
        exact List.forall_mem_nil _
      · rw [one]
        exact List.forall_mem_singleton.mpr valid

theorem standing_performAll (calm : environment.Calm) {given : List Launch}
    (standing : Stream.Standing given host.stream) (operations : List Operation) :
    Stream.Standing (given ++ acceptedAll environment operations host)
      (performAll environment operations host).2.stream := by
  induction operations generalizing given host with
  | nil => rwa [acceptedAll, List.append_nil]
  | cons operation rest ih =>
      rw [acceptedAll, ← List.append_assoc]
      refine ih ?_
      obtain ⟨count, ⟨nothing, same, -⟩ | ⟨launch, one, -, alive, same⟩⟩ :=
        exists_perform calm operation host
      · rw [nothing, same, List.append_nil]
        exact standing.advance count host.device
      · rw [one, same]
        exact (standing.advance count host.device).enqueue alive launch

theorem kernelFault_performAll (calm : environment.Calm)
    (held : ∀ error, host.stream.failure = some error →
      ∃ kernel fault, error = .kernelFault kernel fault) (operations : List Operation) :
    ∀ error, (performAll environment operations host).2.stream.failure = some error →
      ∃ kernel fault, error = .kernelFault kernel fault := by
  induction operations generalizing host with
  | nil => exact held
  | cons operation rest ih =>
      have middle : ∀ error,
          ((operation.perform environment).outcome host).2.stream.failure = some error →
            ∃ kernel fault, error = .kernelFault kernel fault := by
        obtain ⟨count, ⟨-, same, -⟩ | ⟨launch, -, -, -, same⟩⟩ :=
          exists_perform calm operation host
        all_goals
          rw [same]
          exact Stream.invariant_kernelFault.advance held count
      exact ih middle

/-- In the course of the operation, the worker takes a launch whose kernel gives it no name.
Just before, the same error was on record, and memory was the same. -/
structure Fatal (environment : Environment) (operation : Operation) (host after : Host) : Prop where
  gone : ((operation.perform environment).outcome host).2.stream = after.stream
  before : ∃ count last lost,
    (host.advance count).stream = ⟨last :: lost, after.stream.failure, true⟩ ∧
    last.kernel.answersWorker = false ∧
    (host.advance count).device.memory = after.device.memory

theorem fatal_perform (calm : environment.Calm) (alive : host.stream.alive = true)
    (gone : ((operation.perform environment).outcome host).2.stream.alive = false) :
    operation.Fatal environment host ((operation.perform environment).outcome host).2 ∧
      ∃ recorded, ((operation.perform environment).outcome host).2.stream =
        .deserted recorded := by
  obtain ⟨count, ⟨-, same, memory⟩ | ⟨launch, -, -, living, same⟩⟩ :=
    exists_perform calm operation host
  · rw [same] at gone
    obtain ⟨earlier, last, lost, recorded, there, mute, departed⟩ :=
      Stream.exists_departure alive gone
    have left : (host.advance count).stream = .deserted recorded := congrArg Prod.fst departed
    refine ⟨⟨rfl, earlier, last, lost, ?_, mute, ?_⟩, recorded, same.trans left⟩
    · rw [same, left]
      exact there
    · rw [memory gone]
      exact congrArg (fun reached => reached.2.memory) departed.symm
  · rw [same] at gone
    cases living.symm.trans gone

theorem exists_fatal (calm : environment.Calm) (alive : host.stream.alive = true)
    (gone : (performAll environment operations host).2.stream.alive = false) :
    ∃ earlier operation later, operations = earlier ++ operation :: later ∧
      operation.Fatal environment (performAll environment earlier host).2
        (performAll environment operations host).2 := by
  induction operations generalizing host with
  | nil => cases alive.symm.trans gone
  | cons operation rest ih =>
      cases living : ((operation.perform environment).outcome host).2.stream.alive with
      | true =>
          obtain ⟨earlier, fatal, later, split, during⟩ := ih living gone
          refine ⟨operation :: earlier, fatal, later, ?_, during⟩
          rw [split]
          rfl
      | false =>
          obtain ⟨⟨-, before⟩, recorded, left⟩ := fatal_perform calm alive living
          obtain ⟨-, stream, memory⟩ := performAll_of_deserted calm left rest
          refine ⟨[], operation, rest, rfl, ⟨stream.symm, ?_⟩⟩
          obtain ⟨count, last, lost, there, mute, same⟩ := before
          refine ⟨count, last, lost, ?_, mute, same.trans memory.symm⟩
          exact there.trans (by rw [← stream]; rfl)

/-- What becomes of a stream that was new. It has its worker as long as each launch that the
worker took had a name for it; a launch is only given to the worker if its grid is valid, and
nothing is on record but a fault. When the worker is gone, the record is what it was just
before, and stays; every operation that needs the worker fails, and memory does not change. -/
theorem departure_is_final (calm : environment.Calm) (idle : host.stream = .idle)
    (operations : List Operation) :
    (∀ launch ∈ acceptedAll environment operations host, launch.grid.isValid = true) ∧
      Stream.Standing (acceptedAll environment operations host)
        (performAll environment operations host).2.stream ∧
      (∀ error, (performAll environment operations host).2.stream.failure = some error →
        ∃ kernel fault, error = .kernelFault kernel fault) ∧
      ((performAll environment operations host).2.stream.alive = false →
        (∃ earlier operation later, operations = earlier ++ operation :: later ∧
          operation.Fatal environment (performAll environment earlier host).2
            (performAll environment operations host).2) ∧
        ∀ later,
          (performAll environment later (performAll environment operations host).2).1 =
            later.map (told (performAll environment operations host).2.stream.failure) ∧
          (performAll environment later (performAll environment operations host).2).2.stream =
            (performAll environment operations host).2.stream ∧
          (performAll environment later
              (performAll environment operations host).2).2.device.memory =
            (performAll environment operations host).2.device.memory) := by
  have alive : host.stream.alive = true := by
    rw [idle]
    rfl
  have start : Stream.Standing [] host.stream := by
    rw [idle]
    exact .serving [] none rfl (List.forall_mem_nil _)
  have clean : ∀ error, host.stream.failure = some error →
      ∃ kernel fault, error = .kernelFault kernel fault := by
    rw [idle]
    exact fun _ recorded => nomatch recorded
  have standing := standing_performAll calm start operations
  rw [List.nil_append] at standing
  refine ⟨accepted_valid calm, standing, kernelFault_performAll calm clean operations,
    fun gone => ⟨exists_fatal calm alive gone, ?_⟩⟩
  exact performAll_of_deserted calm (standing.eq_deserted gone)

end Operation

/-! A kernel that gives the worker no name is launched on a stream in error. -/

namespace SmallDeparture

def host : Host := { stream := .idle, device := .empty }

def operations : List Operation :=
  [.step (.launch (.faulting "probe" 1 (.raised "stuck")) ⟨2, 1⟩),
    .step .synchronize,
    .step (.launch .mute ⟨1, 1⟩),
    .step .synchronize]

def buffer : Buffer .byte := ⟨0, 2⟩

def later : List Operation :=
  [.step (.launch (.faulting "late" 0 .unexplained) ⟨1, 1⟩),
    .step (.launch .mute ⟨0, 1⟩),
    .step .peek,
    .step .synchronize,
    .download buffer,
    .upload buffer [1, 2],
    .upload buffer [1]]

end SmallDeparture

theorem Operation.departure_is_final_small :
    (Operation.performAll .lazy SmallDeparture.later
      (Operation.performAll .lazy SmallDeparture.operations SmallDeparture.host).2).1 =
        [.error (Stream.gone "late"), .error (.invalidConfiguration "mute" ⟨0, 1⟩),
          .error (.kernelFault "probe" (.raised "stuck")),
          .error (Stream.gone "<synchronize>"), .error (Stream.gone "<synchronize>"),
          .error (Stream.gone "<synchronize>"),
          .error (.invalidValue (.lengthMismatch 1 2))] := by
  obtain ⟨-, -, -, departed⟩ := Operation.departure_is_final Environment.calm_lazy
    (show SmallDeparture.host.stream = .idle from rfl) SmallDeparture.operations
  obtain ⟨-, stays⟩ := departed rfl
  rw [(stays SmallDeparture.later).1]
  rfl

end GridSort
