import GridSort.Proofs.Sort.Calls
import GridSort.Proofs.Sort.Status

namespace GridSort

/-! Calls on a stream that is in error or has lost its worker. Such a call goes as far as its
first launch, and is told why nothing came of it. -/

namespace Stream

/-- Why a stream at rest does not run a launch of the kernel, if it does not. -/
def obstacle (stream : Stream) (kernel : String) : Option Failure :=
  if stream.alive then stream.failure else some (gone kernel)

theorem failure_of_status {stream : Stream} {error : Failure}
    (told : stream.status = .error error) : stream.failure = some error := by
  unfold status at told
  split at told
  · cases told
    assumption
  · cases told

end Stream

/-- The host has attempted a launch, and nothing came of it or ever will. -/
structure Host.AttemptedInVain (host after : Host) (attempt : Attempt) : Prop where
  attempts : after.attempts.toList = host.attempts.toList ++ [attempt]
  failure : after.stream.failure = host.stream.failure
  alive : after.stream.alive = host.stream.alive
  memory : ∀ count, (after.advance count).device.memory = host.device.memory

section Stage

variable {environment : Environment} {grid : Grid} {host : Host} {error : Failure}
  {stage : Stage} (calm : environment.Calm) (rest : host.stream.pending = [])
include calm rest

theorem Stage.exists_run_of_invalid (invalid : grid.isValid = false) (watched : Bool)
    (size : Nat) :
    ∃ after, (stage.run environment watched grid size).outcome host =
        (.error (.invalidConfiguration stage.kernel.name grid), after) ∧
      host.AttemptedInVain after ⟨stage.kernel.name, grid⟩ := by
  have proceeded := Host.proceed_of_rest rest environment
  have refused := HostM.outcome_launch_of_invalid
    (calm.refusal host.attempts.size stage.kernel) invalid
  rw [calm.disturb, Host.attempt, proceeded] at refused
  refine ⟨_, HostM.outcome_bind_of_error refused _, Array.toList_push, rfl, rfl, fun count => ?_⟩
  rw [Host.advance_of_rest]
  exact rest

variable (valid : grid.isValid = true)
include valid

theorem Stage.exists_run_of_gone (gone : host.stream.alive = false) (watched : Bool)
    (size : Nat) :
    ∃ after, (stage.run environment watched grid size).outcome host =
        (.error (Stream.gone stage.kernel.name), after) ∧
      host.AttemptedInVain after ⟨stage.kernel.name, grid⟩ := by
  have proceeded := Host.proceed_of_rest rest environment
  have dead : (host.proceed environment).stream.alive = false := by
    rw [proceeded]
    exact gone
  have lost := HostM.outcome_launch_of_gone (calm.refusal host.attempts.size stage.kernel)
    valid dead
  rw [calm.disturb, Host.attempt, proceeded] at lost
  refine ⟨_, HostM.outcome_bind_of_error lost _, Array.toList_push, rfl, rfl, fun count => ?_⟩
  rw [Host.advance_of_rest]
  · rfl
  · exact rest

theorem Stage.exists_run_of_failure (answers : stage.kernel.answersWorker = true)
    (alive : host.stream.alive = true) (failed : host.stream.failure = some error)
    (watched : Bool) (size : Nat) :
    ∃ after, (stage.run environment watched grid size).outcome host = (.error error, after) ∧
      host.AttemptedInVain after ⟨stage.kernel.name, grid⟩ := by
  have proceeded := Host.proceed_of_rest rest environment
  have living : (host.proceed environment).stream.alive = true := by
    rw [proceeded]
    exact alive
  have made := HostM.outcome_launch_of_valid (calm.refusal host.attempts.size stage.kernel)
    valid living
  rw [HostM.made, calm.disturb, Host.attempt, proceeded] at made
  obtain ⟨queued, enqueued, stream, memory, attempts⟩ : ∃ queued,
      (HostM.launch environment stage.kernel grid).outcome host = (.ok (), queued) ∧
      queued.stream = host.stream.enqueue
        ⟨stage.kernel, grid, environment.order host.attempts.size⟩ ∧
      queued.device.memory = host.device.memory ∧
      queued.attempts = host.attempts.push ⟨stage.kernel.name, grid⟩ :=
    ⟨_, made, rfl, rfl, rfl⟩
  have stuck : queued.stream.failure = some error := by
    rw [stream]
    exact failed
  have noticed : (queued.proceed environment).stream.failure = some error :=
    Stream.failure_advance stuck _ _
  have told : (HostM.peek environment).outcome queued =
      (.error error, queued.proceed environment) := by
    rw [HostM.outcome_peek, Stream.status, noticed]
  have standing : Stream.Standing [⟨stage.kernel, grid, environment.order host.attempts.size⟩]
      queued.stream := by
    rw [stream, Stream.enqueue, rest, alive]
    exact .serving [] _ rfl (List.forall_mem_nil _)
  have serves : (queued.proceed environment).stream.alive = true :=
    (standing.advance _ _).alive_of_answer (List.forall_mem_singleton.mpr answers)
  refine ⟨_, (HostM.outcome_bind_of_ok enqueued _).trans (HostM.outcome_bind_of_error told _),
    ?_, noticed.trans failed.symm, serves.trans alive.symm, fun count => ?_⟩
  · rw [Host.attempts_proceed, attempts]
    exact Array.toList_push
  · exact (Stream.memory_advance noticed _ _).trans
      ((Stream.memory_advance stuck _ _).trans memory)

theorem Stage.exists_run_of_obstacle (answers : stage.kernel.answersWorker = true)
    (unhealthy : host.stream.obstacle stage.kernel.name = some error) (watched : Bool)
    (size : Nat) :
    ∃ after, (stage.run environment watched grid size).outcome host = (.error error, after) ∧
      host.AttemptedInVain after ⟨stage.kernel.name, grid⟩ := by
  rw [Stream.obstacle] at unhealthy
  cases alive : host.stream.alive with
  | true =>
      rw [alive, if_pos rfl] at unhealthy
      exact exists_run_of_failure calm rest valid answers alive unhealthy watched size
  | false =>
      rw [alive, if_neg Bool.false_ne_true] at unhealthy
      cases unhealthy
      exact exists_run_of_gone calm rest valid alive watched size

end Stage

namespace SortRequest

variable {keyType valueType : ElementType} {request : SortRequest keyType valueType}
  {scratch : Pairs keyType valueType} {storage : Buffer .byte} {layout : Layout}
  {environment : Environment} {watched : Bool} {host : Host} {error : Failure}

/-- Either a call is rejected or has nothing to do, on every stream, or it is accepted. -/
theorem verdict_cases (request : SortRequest keyType valueType) (storage : Buffer .byte) :
    (∃ cause, request.verdict storage = .rejected cause ∧ ∀ environment watched host,
      (request.execute environment watched storage).outcome host =
        (.error (.invalidValue cause), host)) ∨
    (request.verdict storage = .nothingToDo ∧ ∀ environment watched host,
      (request.execute environment watched storage).outcome host = (.ok (), host)) ∨
    request.Accepted storage request.regions (request.scratchIn storage request.regions) ∧
      request.verdict storage =
        if Grid.maxLanes < request.blockSize then .refused
        else if request.source.Covers request.size then .sorted
        else .faulted := by
  rw [verdict]
  by_cases overflows : Size.largest < request.regions.total
  · have layout : request.layout = _ := Layout.ofSize_eq_error overflows
    refine Or.inl ⟨_, if_pos overflows, fun environment watched host => ?_⟩
    rw [outcome_execute, layout]
  have found : request.layout = .ok request.regions :=
    Layout.ofSize_eq_ok_iff.mpr ⟨rfl, Nat.not_lt.mp overflows⟩
  rw [if_neg overflows]
  by_cases empty : request.size = 0
  · exact Or.inr (Or.inl ⟨if_pos empty, outcome_execute_of_empty empty⟩)
  rw [if_neg empty]
  have checks : request.accept request.regions storage = _ := accept_eq found
  have rejects : ∀ cause,
      request.accept request.regions storage = .error (.invalidValue cause) →
        ∀ environment watched host,
          (request.execute environment watched storage).outcome host =
            (.error (.invalidValue cause), host) :=
    fun _ rejected => outcome_execute_of_rejected found empty rejected
  split at checks
  · exact Or.inl ⟨_, if_pos ‹_›, rejects _ checks⟩
  rw [if_neg ‹_›]
  split at checks
  · exact Or.inl ⟨_, if_pos ‹_›, rejects _ checks⟩
  rw [if_neg ‹_›]
  split at checks
  · exact Or.inl ⟨_, if_pos ‹_›, rejects _ checks⟩
  rw [if_neg ‹_›]
  split at checks
  · exact Or.inl ⟨_, if_pos ‹_›, rejects _ checks⟩
  rw [if_neg ‹_›]
  exact Or.inr (Or.inr ⟨⟨empty, found, checks⟩, rfl⟩)

/-- A call whose first stage comes to nothing comes to nothing. -/
theorem Accepted.exists_execute_in_vain (accepted : request.Accepted storage layout scratch)
    {attempt : Attempt} (stopped : ∀ announced : Host, announced.stream = host.stream →
      announced.device = host.device → ∃ after,
        (request.tileSort.run environment watched request.grid request.size).outcome announced =
          (.error error, after) ∧ announced.AttemptedInVain after attempt) :
    ∃ after, (request.execute environment watched storage).outcome host = (.error error, after) ∧
      host.AttemptedInVain after attempt := by
  obtain ⟨stream, device, attempts⟩ : (host.announce watched request.grid).stream = host.stream ∧
      (host.announce watched request.grid).device = host.device ∧
      (host.announce watched request.grid).attempts = host.attempts := by
    cases watched with
    | false => exact ⟨rfl, rfl, rfl⟩
    | true => exact ⟨rfl, rfl, rfl⟩
  obtain ⟨after, ran, attempted, failure, alive, memory⟩ := stopped _ stream device
  refine ⟨after, ?_, ?_, ?_, ?_, ?_⟩
  · rw [accepted.outcome_execute]
    exact SortPlan.outcome_run_of_error ran
  · rw [attempted, attempts]
  · rw [failure, stream]
  · rw [alive, stream]
  · rw [← device]
    exact memory

/-- How a call ends on a stream at rest that does not run its first launch, for this reason. -/
def EndsInVain (request : SortRequest keyType valueType) (error : Failure) (host : Host)
    (ended : Except Failure Unit × Host) : Verdict → Prop
  | .rejected cause => ended = (.error (.invalidValue cause), host)
  | .nothingToDo => ended = (.ok (), host)
  | .refused =>
      ∃ after, ended = (.error (.invalidConfiguration "block_sort" request.grid), after) ∧
        host.AttemptedInVain after ⟨"block_sort", request.grid⟩
  | .faulted | .sorted =>
      ∃ after, ended = (.error error, after) ∧
        host.AttemptedInVain after ⟨"block_sort", request.grid⟩

theorem execute_in_vain (calm : environment.Calm) (rest : host.stream.pending = [])
    (unhealthy : host.stream.obstacle "block_sort" = some error) (watched : Bool) :
    request.EndsInVain error host ((request.execute environment watched storage).outcome host)
      (request.verdict storage) := by
  obtain ⟨cause, rejected, ends⟩ | ⟨nothing, ends⟩ | ⟨accepted, judged⟩ :=
    verdict_cases request storage
  · rw [rejected]
    exact ends environment watched host
  · rw [nothing]
    exact ends environment watched host
  · rw [judged]
    by_cases many : Grid.maxLanes < request.blockSize
    · have invalid : request.grid.isValid = false := by
        rw [← Bool.not_eq_true, Grid.isValid_iff]
        exact fun valid => Nat.not_lt.mpr valid.2.2 many
      rw [if_pos many]
      exact accepted.exists_execute_in_vain fun announced stream _ =>
        Stage.exists_run_of_invalid calm (stream ▸ rest) invalid watched request.size
    · have valid := isValid_grid (Nat.pos_of_ne_zero accepted.nonempty) accepted.positive
        (Nat.not_lt.mp many)
      have stopped : ∃ after, (request.execute environment watched storage).outcome host =
          (.error error, after) ∧ host.AttemptedInVain after ⟨"block_sort", request.grid⟩ :=
        accepted.exists_execute_in_vain fun announced stream _ =>
          Stage.exists_run_of_obstacle calm (stream ▸ rest) valid rfl (stream ▸ unhealthy) watched
            request.size
      rw [if_neg many]
      split
      · exact stopped
      · exact stopped

end SortRequest

/-! A fault that is returned is on record, and then memory has changed for the last time. -/

namespace HostM

/-- A fault that the steps return is on the record of the stream. -/
def Reports (steps : HostM α) : Prop :=
  ∀ host kernel fault, (steps.outcome host).1 = .error (.kernelFault kernel fault) →
    (steps.outcome host).2.stream.failure = some (.kernelFault kernel fault)

namespace Reports

variable {environment : Environment}

theorem pure (value : α) : Reports (Pure.pure value : HostM α) := fun _ _ _ told => nomatch told

theorem change (change : Host → Host) : Reports (modify change : HostM Unit) :=
  fun _ _ _ told => nomatch told

theorem bind {steps : HostM α} {next : α → HostM β} (first : Reports steps)
    (second : ∀ value, Reports (next value)) : Reports (steps >>= next) := by
  intro host kernel fault told
  have earlier := first host kernel fault
  rw [outcome_bind] at told ⊢
  cases found : steps.outcome host with
  | mk result middle =>
      rw [found] at told earlier
      cases result with
      | ok value => exact second value middle kernel fault told
      | error error =>
          cases told
          exact earlier rfl

theorem composes : Composes Reports where
  pure := pure ()
  bind := fun first second => first.bind fun _ => second

theorem launch (calm : environment.Calm) (kernel : Kernel) (grid : Grid) :
    Reports (HostM.launch environment kernel grid) := by
  intro host name fault told
  rw [outcome_launch, calm.refusal] at told
  dsimp only at told
  rw [outcome_enqueue] at told
  split at told
  · split at told
    · cases told
    · cases told
  · cases told

theorem peek : Reports (HostM.peek environment) := by
  intro host kernel fault told
  rw [outcome_peek] at told ⊢
  exact Stream.failure_of_status told

theorem synchronize : Reports (HostM.synchronize environment) := by
  intro host kernel fault told
  rw [outcome_synchronize] at told ⊢
  split at told
  · rw [if_pos ‹_›]
    exact Stream.failure_of_status told
  · cases told

theorem stage (calm : environment.Calm) (watched : Bool) (grid : Grid) (size : Nat)
    (stage : Stage) : Reports (stage.run environment watched grid size) := by
  refine (launch calm stage.kernel grid).bind fun _ => peek.bind fun _ => ?_
  cases watched with
  | false => exact pure ()
  | true => exact synchronize.bind fun _ => change _

end Reports

end HostM

theorem SortPlan.reports_run {environment : Environment} (calm : environment.Calm)
    {plan : SortPlan} (watched : Bool) (size : Nat) :
    HostM.Reports (plan.run environment watched size) :=
  holds_run HostM.Reports.composes (fun _ _ => .change _) (fun _ => .change _)
    fun stage _ => .stage calm watched plan.grid size stage

theorem SortRequest.reports_execute {keyType valueType : ElementType}
    {environment : Environment} (calm : environment.Calm)
    (request : SortRequest keyType valueType) (storage : Buffer .byte) (watched : Bool) :
    HostM.Reports (request.execute environment watched storage) := by
  intro host kernel fault told
  obtain ⟨cause, -, ends⟩ | ⟨-, ends⟩ | ⟨accepted, -⟩ := request.verdict_cases storage
  · rw [ends] at told
    cases told
  · rw [ends] at told
    cases told
  · rw [accepted.outcome_execute] at told ⊢
    exact SortPlan.reports_run calm watched request.size host kernel fault told

/-- With an error on record, memory stays as it is. -/
theorem Stream.invariant_recorded (error : Failure) (memory : Memory) :
    Stream.Invariant (fun stream now => stream.failure = some error ∧ now = memory)
      (fun _ => True) where
  step := fun ⟨recorded, same⟩ => ⟨failure_step recorded _, (memory_step recorded _).trans same⟩
  enqueue := fun held _ _ => held

namespace SortCall

variable {environment : Environment}

/-- The host once the calls are made, some of which may be watched. -/
def hostAfter (environment : Environment) (calls : List (SortCall × Bool)) (host : Host) : Host :=
  calls.foldl (fun host (call, watched) =>
    ((call.request.execute environment watched call.storage).outcome host).2) host

theorem recorded_hostAfter {error : Failure} {memory : Memory} {host : Host}
    (held : host.stream.failure = some error ∧ host.device.memory = memory)
    (calls : List (SortCall × Bool)) :
    (hostAfter environment calls host).stream.failure = some error ∧
      (hostAfter environment calls host).device.memory = memory := by
  induction calls generalizing host with
  | nil => exact held
  | cons first rest ih =>
      exact ih (SortRequest.maintains_execute (Stream.invariant_recorded error memory)
        (fun _ _ _ _ _ _ _ => trivial) first.2 host held)

/-- On a stream in error, or without its worker, a call attempts its first launch at most, is
told the reason, and changes nothing. Checks come first, and give the same on every stream.
Once a call has returned a fault, no later call changes memory. -/
theorem unhealthy_calls (calm : environment.Calm) (call : SortCall) (watched : Bool) :
    (∀ host error, host.stream.pending = [] → host.stream.obstacle "block_sort" = some error →
      call.request.EndsInVain error host
        ((call.request.execute environment watched call.storage).outcome host)
        (call.request.verdict call.storage)) ∧
    (∀ cause, call.request.verdict call.storage = .rejected cause → ∀ host,
      (call.request.execute environment watched call.storage).outcome host =
        (.error (.invalidValue cause), host)) ∧
    ∀ host after kernel fault,
      (call.request.execute environment watched call.storage).outcome host =
        (.error (.kernelFault kernel fault), after) →
      ∀ later count, ((hostAfter environment later after).advance count).device.memory =
        after.device.memory := by
  refine ⟨fun host error rest unhealthy =>
    SortRequest.execute_in_vain calm rest unhealthy watched, fun cause rejected host => ?_, ?_⟩
  · obtain ⟨_, found, ends⟩ | ⟨nothing, -⟩ | ⟨-, judged⟩ :=
      call.request.verdict_cases call.storage
    · rw [found] at rejected
      cases rejected
      exact ends environment watched host
    · rw [nothing] at rejected
      cases rejected
    · rw [judged] at rejected
      repeat' split at rejected
      all_goals cases rejected
  · intro host after kernel fault returned later count
    have recorded := call.request.reports_execute calm call.storage watched host kernel fault
    rw [returned] at recorded
    obtain ⟨stuck, same⟩ := recorded_hostAfter ⟨recorded rfl, rfl⟩ later
    exact (Stream.memory_advance stuck count _).trans same

end SortCall

namespace SmallCall

def fault : Failure := .kernelFault "probe" (.raised "stuck")

/-- The host of the small call, but for its stream: there a fault is on record. -/
def failedHost (alive : Bool) : Host :=
  { host with stream := { pending := [], failure := some fault, alive } }

end SmallCall

namespace SortCall

theorem unhealthy_calls_small :
    (∃ after, (SmallCall.request.execute .lazy true SmallCall.storage).outcome
        (SmallCall.failedHost true) = (.error SmallCall.fault, after) ∧
      after.attempts.toList = [⟨"block_sort", ⟨2, 2⟩⟩] ∧
      ∀ later count, ((hostAfter .lazy later after).advance count).device.memory =
        SmallCall.memory) ∧
    (∃ after, (SmallCall.request.execute .lazy true SmallCall.storage).outcome
        (SmallCall.failedHost false) = (.error (Stream.gone "block_sort"), after) ∧
      after.attempts.toList = [⟨"block_sort", ⟨2, 2⟩⟩] ∧
      after.device.memory = SmallCall.memory) ∧
    ∀ host, (({ SmallCall.request with blockSize := 0 }.execute .lazy true
      SmallCall.storage).outcome host) = (.error (.invalidValue .zeroBlockSize), host) := by
  obtain ⟨vain, -, settled⟩ := unhealthy_calls Environment.calm_lazy
    (SmallCall.call SmallCall.request) true
  obtain ⟨-, rejects, -⟩ := unhealthy_calls Environment.calm_lazy
    (SmallCall.call { SmallCall.request with blockSize := 0 }) true
  have sorted : SmallCall.request.verdict SmallCall.storage = .sorted := by decide
  refine ⟨?_, ?_, rejects .zeroBlockSize (by decide)⟩
  · have ends := vain (SmallCall.failedHost true) SmallCall.fault rfl rfl
    obtain ⟨after, told, attempted⟩ := sorted ▸ ends
    exact ⟨after, told, attempted.attempts, fun later count =>
      (settled _ after _ _ told later count).trans (attempted.memory 0)⟩
  · have ends := vain (SmallCall.failedHost false) _ rfl rfl
    obtain ⟨after, told, attempted⟩ := sorted ▸ ends
    exact ⟨after, told, attempted.attempts, attempted.memory 0⟩

end SortCall

end GridSort
