import GridSort.Host
import GridSort.Proofs.Stream.Runs

namespace GridSort

/-! The steps of a caller, one by one: what each gives and what it leaves behind. -/

namespace HostM

def outcome (steps : HostM α) (host : Host) : Except Failure α × Host :=
  steps.run.run host

variable {α β : Type}

@[simp] theorem outcome_get (host : Host) :
    (get : HostM Host).outcome host = (.ok host, host) := rfl

@[simp] theorem outcome_modify (change : Host → Host) (host : Host) :
    (modify change : HostM Unit).outcome host = (.ok (), change host) := rfl

@[simp] theorem outcome_lift (result : Except Failure α) (host : Host) :
    (liftM result : HostM α).outcome host = (result, host) := by
  cases result <;> rfl

theorem outcome_bind (steps : HostM α) (next : α → HostM β) (host : Host) :
    (steps >>= next).outcome host =
      match steps.outcome host with
      | (.ok value, after) => (next value).outcome after
      | (.error error, after) => (.error error, after) := by
  unfold outcome
  rw [ExceptT.run_bind, StateT.run_bind]
  generalize (ExceptT.run steps).run host = found
  obtain ⟨result, after⟩ := found
  cases result with
  | ok value => rfl
  | error error => rfl

theorem outcome_bind_of_ok {steps : HostM α} {host after : Host} {value : α}
    (h : steps.outcome host = (.ok value, after)) (next : α → HostM β) :
    (steps >>= next).outcome host = (next value).outcome after := by
  rw [outcome_bind, h]

theorem outcome_bind_of_error {steps : HostM α} {host after : Host} {error : Failure}
    (h : steps.outcome host = (.error error, after)) (next : α → HostM β) :
    (steps >>= next).outcome host = (.error error, after) := by
  rw [outcome_bind, h]

/-- It holds of doing nothing, and of steps in a row if it holds of each of them. -/
structure Composes (holds : HostM Unit → Prop) : Prop where
  pure : holds (Pure.pure ())
  bind : ∀ {first second : HostM Unit}, holds first → holds second →
    holds (first >>= fun _ => second)

theorem Composes.forM {holds : HostM Unit → Prop} (composes : Composes holds)
    {run : α → HostM Unit} {items : List α} (each : ∀ item ∈ items, holds (run item)) :
    holds (items.forM run) := by
  induction items with
  | nil => exact composes.pure
  | cons item rest ih =>
      obtain ⟨first, later⟩ := List.forall_mem_cons.mp each
      exact composes.bind first (ih later)

/-- Even if they fail, the steps leave this of the host as it was. -/
def Retains (view : Host → β) (steps : HostM α) : Prop :=
  ∀ host, view (steps.outcome host).2 = view host

namespace Retains

variable {view : Host → γ}

theorem pure (value : α) : Retains view (Pure.pure value : HostM α) := fun _ => rfl

theorem lift (result : Except Failure α) : Retains view (liftM result : HostM α) := by
  intro host
  rw [outcome_lift]

theorem change {change : Host → Host} (kept : ∀ host, view (change host) = view host) :
    Retains view (modify change : HostM Unit) := kept

theorem bind {steps : HostM α} {next : α → HostM β} (first : Retains view steps)
    (second : ∀ value, Retains view (next value)) : Retains view (steps >>= next) := by
  intro host
  have kept := first host
  rw [outcome_bind]
  cases found : steps.outcome host with
  | mk result middle =>
      rw [found] at kept
      cases result with
      | ok value => exact (second value middle).trans kept
      | error error => exact kept

theorem composes : Composes (Retains view) where
  pure := pure ()
  bind := fun first second => first.bind fun _ => second

end Retains

end HostM

namespace Host

/-- The host's stream has taken some of the launches, and follows the rest. -/
def Follows (host : Host) (start : Memory) (launches : List Launch) : Prop :=
  host.stream.Follows host.device start launches

variable {host : Host} {start : Memory} {launches : List Launch} (environment : Environment)

@[simp] theorem attempts_proceed (host : Host) :
    (host.proceed environment).attempts = host.attempts := rfl

theorem Follows.proceed (h : host.Follows start launches) :
    (host.proceed environment).Follows start launches :=
  Stream.Follows.advance h _

theorem Follows.drain (h : host.Follows start launches) : host.drain.Follows start launches :=
  Stream.Follows.advance h _

theorem Follows.print (h : host.Follows start launches) (report : Report) :
    (host.print report).Follows start launches := h

theorem Follows.note (h : host.Follows start launches) (level : Level) (text : String) :
    (host.note level text).Follows start launches := ⟨h.alive, h.answer, h.split⟩

theorem pending_drain (host : Host) : host.drain.stream.pending = [] :=
  Stream.pending_drain host.stream host.device

theorem Follows.runAll_drain (h : host.Follows start launches) :
    Launch.runAll launches start = (host.drain.stream.failure, host.drain.device.memory) :=
  h.drain.runAll_of_rest host.pending_drain

/-- A worker that never lags has taken every launch before the next step. -/
theorem pending_proceed (prompt : ∀ clock pending, pending ≤ environment.pace clock pending)
    (host : Host) : (host.proceed environment).stream.pending = [] :=
  Stream.pending_advance (prompt _ _) host.device

def attempt (kernel : Kernel) (grid : Grid) (host : Host) : Host :=
  { host.proceed environment with
    attempts := host.attempts.push ⟨kernel.name, grid⟩ }

theorem Follows.attempt (h : host.Follows start launches) (kernel : Kernel) (grid : Grid) :
    (host.attempt environment kernel grid).Follows start launches :=
  h.proceed environment

def noteLaunch (launch : Launch) (host : Host) : Host :=
  host.note launch.enqueuedLine.level launch.enqueuedLine.text

def enqueue (launch : Launch) (host : Host) : Host :=
  { host.noteLaunch launch with stream := host.stream.enqueue launch }

theorem Follows.enqueue (h : host.Follows start launches) {launch : Launch}
    (answers : launch.kernel.answersWorker = true) :
    (host.enqueue launch).Follows start (launches ++ [launch]) :=
  Stream.Follows.enqueue (h.note _ _) answers

end Host

namespace HostM

variable {environment : Environment} {kernel : Kernel} {grid : Grid} {host : Host}

/-- The launch that an environment makes of the kernel, as the one with that number. -/
def made (environment : Environment) (index : Nat) (kernel : Kernel) (grid : Grid) : Launch :=
  ⟨environment.disturb index kernel, grid, environment.order index⟩

theorem outcome_enqueue (kernel : Kernel) (grid : Grid) (order : Nat → List Nat)
    (host : Host) :
    (enqueue kernel grid order).outcome host =
      if grid.isValid then
        if host.stream.alive then (.ok (), host.enqueue ⟨kernel, grid, order⟩)
        else (.error (Stream.gone kernel.name), host.noteLaunch ⟨kernel, grid, order⟩)
      else (.error (.invalidConfiguration kernel.name grid), host) := by
  unfold enqueue
  cases grid.isValid with
  | false => rfl
  | true =>
      rw [if_pos rfl, if_pos rfl, outcome_bind_of_ok (outcome_modify _ _),
        outcome_bind_of_ok (outcome_get _)]
      change outcome (if host.stream.alive = true then _ else _)
        (host.noteLaunch ⟨kernel, grid, order⟩) = _
      cases host.stream.alive with
      | false => rfl
      | true => rfl

theorem outcome_launch (environment : Environment) (kernel : Kernel) (grid : Grid)
    (host : Host) :
    (launch environment kernel grid).outcome host =
      match environment.refusal host.attempts.size kernel with
      | some error => (.error error, host.attempt environment kernel grid)
      | none =>
          (enqueue (environment.disturb host.attempts.size kernel) grid
            (environment.order host.attempts.size)).outcome
              (host.attempt environment kernel grid) := by
  rw [launch, outcome_bind_of_ok (outcome_modify _ _),
    outcome_bind_of_ok (outcome_get _), outcome_bind_of_ok (outcome_modify _ _),
    Host.attempts_proceed]
  cases environment.refusal host.attempts.size kernel with
  | some error => rfl
  | none => rfl

/-- A launch is not accepted, or enqueued, or the worker is gone. -/
theorem host_launch (environment : Environment) (kernel : Kernel) (grid : Grid)
    (host : Host) :
    ((launch environment kernel grid).outcome host).2 = host.attempt environment kernel grid ∨
      ∃ launch, ((HostM.launch environment kernel grid).outcome host).2 =
          (host.attempt environment kernel grid).enqueue launch ∨
        ((HostM.launch environment kernel grid).outcome host).2 =
          (host.attempt environment kernel grid).noteLaunch launch := by
  rw [outcome_launch]
  cases environment.refusal host.attempts.size kernel with
  | some error => exact Or.inl rfl
  | none =>
      dsimp only
      rw [outcome_enqueue]
      split
      · split
        · exact Or.inr ⟨_, Or.inl rfl⟩
        · exact Or.inr ⟨_, Or.inr rfl⟩
      · exact Or.inl rfl

@[simp] theorem attempts_launch (environment : Environment) (kernel : Kernel) (grid : Grid)
    (host : Host) :
    ((launch environment kernel grid).outcome host).2.attempts =
      host.attempts.push ⟨kernel.name, grid⟩ := by
  rcases host_launch environment kernel grid host with same | ⟨launch, same | same⟩
  all_goals
    rw [same]
    rfl

@[simp] theorem bytesNeeded_launch (environment : Environment) (kernel : Kernel)
    (grid : Grid) (host : Host) :
    ((launch environment kernel grid).outcome host).2.bytesNeeded = host.bytesNeeded := by
  rcases host_launch environment kernel grid host with same | ⟨launch, same | same⟩
  all_goals
    rw [same]
    rfl

theorem outcome_launch_of_refusal {error : Failure}
    (refused : environment.refusal host.attempts.size kernel = some error) :
    (launch environment kernel grid).outcome host =
      (.error error, host.attempt environment kernel grid) := by
  rw [outcome_launch, refused]

theorem outcome_launch_of_valid
    (accepted : environment.refusal host.attempts.size kernel = none)
    (valid : grid.isValid = true)
    (alive : (host.proceed environment).stream.alive = true) :
    (launch environment kernel grid).outcome host =
      (.ok (), (host.attempt environment kernel grid).enqueue
        (made environment host.attempts.size kernel grid)) := by
  have attempted : (host.attempt environment kernel grid).stream.alive = true := alive
  rw [outcome_launch, accepted]
  dsimp only
  rw [outcome_enqueue, if_pos valid, if_pos attempted]
  rfl

theorem outcome_launch_of_gone
    (accepted : environment.refusal host.attempts.size kernel = none)
    (valid : grid.isValid = true)
    (gone : (host.proceed environment).stream.alive = false) :
    (launch environment kernel grid).outcome host =
      (.error (Stream.gone (environment.disturb host.attempts.size kernel).name),
        (host.attempt environment kernel grid).noteLaunch
          (made environment host.attempts.size kernel grid)) := by
  have attempted : (host.attempt environment kernel grid).stream.alive = false := gone
  rw [outcome_launch, accepted]
  dsimp only
  rw [outcome_enqueue, if_pos valid, attempted]
  rfl

theorem outcome_launch_of_invalid
    (accepted : environment.refusal host.attempts.size kernel = none)
    (invalid : grid.isValid = false) :
    (launch environment kernel grid).outcome host =
      (.error (.invalidConfiguration
          (environment.disturb host.attempts.size kernel).name grid),
        host.attempt environment kernel grid) := by
  rw [outcome_launch, accepted]
  dsimp only
  rw [outcome_enqueue, invalid]
  rfl

theorem exists_launch {start : Memory} {launches : List Launch}
    (h : host.Follows start launches)
    (accepted : environment.refusal host.attempts.size kernel = none)
    (valid : grid.isValid = true)
    (answers : (environment.disturb host.attempts.size kernel).answersWorker = true) :
    ∃ after, (launch environment kernel grid).outcome host = (.ok (), after) ∧
      after.Follows start (launches ++ [made environment host.attempts.size kernel grid]) ∧
      after.attempts = host.attempts.push ⟨kernel.name, grid⟩ := by
  refine ⟨_, outcome_launch_of_valid accepted valid (h.proceed environment).alive, ?_, rfl⟩
  exact (h.attempt environment kernel grid).enqueue answers

theorem outcome_status (host : Host) :
    status.outcome host = (host.stream.status, host) := by
  rw [status, outcome_bind_of_ok (outcome_get _), outcome_lift]

theorem outcome_peek (host : Host) :
    (peek environment).outcome host =
      ((host.proceed environment).stream.status, host.proceed environment) := by
  rw [peek, outcome_bind_of_ok (outcome_modify _ _), outcome_status]

theorem Retains.peek {view : Host → β}
    (proceed : ∀ host : Host, view (host.proceed environment) = view host) :
    Retains view (peek environment) := by
  intro host
  rw [outcome_peek]
  exact proceed host

theorem outcome_synchronize (environment : Environment) (host : Host) :
    (synchronize environment).outcome host =
      if (host.proceed environment).drain.stream.alive then
        ((host.proceed environment).drain.stream.status, (host.proceed environment).drain)
      else (.error (Stream.gone "<synchronize>"), (host.proceed environment).drain) := by
  rw [synchronize, outcome_bind_of_ok (outcome_modify _ _),
    outcome_bind_of_ok (outcome_modify _ _), outcome_bind_of_ok (outcome_get _)]
  cases (host.proceed environment).drain.stream.alive with
  | false => rfl
  | true =>
      rw [if_pos rfl, if_pos rfl]
      exact outcome_status _

theorem host_synchronize (environment : Environment) (host : Host) :
    ((synchronize environment).outcome host).2 = (host.proceed environment).drain := by
  rw [outcome_synchronize]
  split <;> rfl

theorem host_download {type : ElementType} (environment : Environment) (buffer : Buffer type)
    (host : Host) :
    ((download environment buffer).outcome host).2 = (host.proceed environment).drain := by
  rw [download, outcome_bind, ← host_synchronize]
  cases (synchronize environment).outcome host with
  | mk result after =>
      cases result with
      | ok _ => rfl
      | error _ => rfl

theorem outcome_synchronize_of_alive
    (alive : (host.proceed environment).drain.stream.alive = true) :
    (synchronize environment).outcome host =
      ((host.proceed environment).drain.stream.status,
        (host.proceed environment).drain) := by
  rw [outcome_synchronize, if_pos alive]

theorem Retains.synchronize {view : Host → β}
    (proceed : ∀ host : Host, view (host.proceed environment) = view host)
    (drain : ∀ host : Host, view host.drain = view host) :
    Retains view (synchronize environment) := by
  intro host
  rw [outcome_synchronize]
  split
  · exact (drain _).trans (proceed host)
  · exact (drain _).trans (proceed host)

end HostM

end GridSort
