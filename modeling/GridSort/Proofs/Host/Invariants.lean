import GridSort.Proofs.Host.Stages
import GridSort.Proofs.Stream.Standing

namespace GridSort

/-! An invariant of a stream holds through all that a caller does with it, whether or not the
caller's steps succeed. -/

namespace Host

/-- The worker takes up to `count` more launches while the caller does nothing. -/
def advance (count : Nat) (host : Host) : Host :=
  { host with
    stream := (Stream.advance count host.stream host.device).1
    device := (Stream.advance count host.stream host.device).2 }

theorem exists_drain (environment : Environment) (host : Host) :
    ∃ count, (host.proceed environment).drain.stream = (host.advance count).stream ∧
      (host.proceed environment).drain.device = (host.advance count).device := by
  have whole := Stream.advance_add (environment.pace host.clock host.stream.pending.length)
    (host.proceed environment).stream.pending.length host.stream host.device
  exact ⟨_, (congrArg Prod.fst whole).symm, (congrArg Prod.snd whole).symm⟩

section Rest

variable {host : Host} (rest : host.stream.pending = [])
include rest

theorem advance_of_rest (count : Nat) : host.advance count = host := by
  rw [advance, Stream.advance_of_pending_eq_nil rest]

theorem proceed_of_rest (environment : Environment) :
    host.proceed environment = { host with clock := host.clock + 1 } := by
  obtain ⟨stream, device, bytesNeeded, attempts, printed, clock⟩ := host
  rw [proceed, Stream.advance_of_pending_eq_nil rest]

theorem drain_of_rest : host.drain = host := by
  obtain ⟨stream, device, bytesNeeded, attempts, printed, clock⟩ := host
  rw [drain, Stream.drain, Stream.advance_of_pending_eq_nil rest]

end Rest

end Host

namespace HostM

/-- Even if they fail, the steps keep this of the stream and of memory. -/
def Maintains (holds : Stream → Memory → Prop) (steps : HostM α) : Prop :=
  ∀ host, holds host.stream host.device.memory →
    holds (steps.outcome host).2.stream (steps.outcome host).2.device.memory

namespace Maintains

variable {α β : Type} {holds : Stream → Memory → Prop} {allowed : Launch → Prop}
  {environment : Environment}

theorem pure (value : α) : Maintains holds (Pure.pure value : HostM α) := fun _ held => held

/-- What is printed or logged is nothing to the stream. -/
theorem change {change : Host → Host} (stream : ∀ host, (change host).stream = host.stream)
    (memory : ∀ host, (change host).device.memory = host.device.memory) :
    Maintains holds (modify change : HostM Unit) := by
  intro host held
  rw [outcome_modify, stream, memory]
  exact held

theorem bind {steps : HostM α} {next : α → HostM β} (first : Maintains holds steps)
    (second : ∀ value, Maintains holds (next value)) : Maintains holds (steps >>= next) := by
  intro host held
  have middle := first host held
  rw [outcome_bind]
  cases found : steps.outcome host with
  | mk result after =>
      rw [found] at middle
      cases result with
      | ok value => exact second value after middle
      | error error => exact middle

theorem composes : Composes (Maintains holds) where
  pure := pure ()
  bind := fun first second => first.bind fun _ => second

section Stream

variable (invariant : Stream.Invariant holds allowed)
include invariant

theorem launch {kernel : Kernel} {grid : Grid}
    (permitted : ∀ index, allowed (made environment index kernel grid)) :
    Maintains holds (HostM.launch environment kernel grid) := by
  intro host held
  have proceeded : holds (host.attempt environment kernel grid).stream
      (host.attempt environment kernel grid).device.memory := invariant.advance held _
  rw [outcome_launch]
  cases environment.refusal host.attempts.size kernel with
  | some error => exact proceeded
  | none =>
      dsimp only
      rw [outcome_enqueue]
      split
      · split
        · exact invariant.enqueue proceeded ‹_› (permitted host.attempts.size)
        · exact proceeded
      · exact proceeded

theorem peek : Maintains holds (HostM.peek environment) := by
  intro host held
  rw [outcome_peek]
  exact invariant.advance held _

theorem synchronize : Maintains holds (HostM.synchronize environment) := by
  intro host held
  have proceeded : holds (host.proceed environment).stream
      (host.proceed environment).device.memory := invariant.advance held _
  rw [outcome_synchronize]
  split
  · exact invariant.advance proceeded _
  · exact invariant.advance proceeded _

theorem look (watched : Bool) (report : Report) :
    Maintains holds (HostM.look environment watched report) := by
  refine (peek invariant).bind fun _ => ?_
  cases watched with
  | false => exact pure ()
  | true => exact (synchronize invariant).bind fun _ => change (fun _ => rfl) fun _ => rfl

theorem stage {grid : Grid} {stage : Stage}
    (permitted : ∀ index, allowed (made environment index stage.kernel grid)) (watched : Bool)
    (size : Nat) : Maintains holds (stage.run environment watched grid size) := by
  have looked : Maintains holds (HostM.look environment watched (.stage stage.label size)) :=
    look invariant watched _
  exact (launch invariant permitted).bind fun _ => looked

end Stream

end Maintains

end HostM

end GridSort
