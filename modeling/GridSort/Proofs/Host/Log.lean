import GridSort.Proofs.Host.Steps
import GridSort.Sort.Call

namespace GridSort

/-! What has been logged stays in the log, whatever a caller does. -/

namespace Stream

theorem log_step (stream : Stream) (device : Device) :
    device.log.toList <+: (stream.step device).2.log.toList := by
  have moved := stream.moves device
  generalize stream.step device = next at moved ⊢
  cases moved with
  | rests => exact List.prefix_rfl
  | leaves mute => exact List.prefix_rfl
  | skips answers => simp
  | completes answers ran => exact List.prefix_rfl
  | faults answers ran => simp

theorem log_advance (count : Nat) (stream : Stream) (device : Device) :
    device.log.toList <+: (advance count stream device).2.log.toList := by
  induction count generalizing stream device with
  | zero => exact List.prefix_rfl
  | succ count ih => exact (log_step stream device).trans (ih _ _)

end Stream

namespace HostM

variable {α β : Type} {environment : Environment}

/-- The steps only add to the log, even if they fail. -/
def KeepsLog (steps : HostM α) : Prop :=
  ∀ host, host.device.log.toList <+: (steps.outcome host).2.device.log.toList

/-- If the steps succeed, the line is in the log. -/
def Logs (line : LogLine) (steps : HostM Unit) : Prop :=
  ∀ host after, steps.outcome host = (.ok (), after) → line ∈ after.device.log.toList

namespace KeepsLog

theorem pure (value : α) : KeepsLog (Pure.pure value) := fun _ => List.prefix_rfl

theorem print (report : Report) : KeepsLog (modify (Host.print report)) :=
  fun _ => List.prefix_rfl

theorem bind {steps : HostM α} {next : α → HostM β} (first : KeepsLog steps)
    (second : ∀ value, KeepsLog (next value)) : KeepsLog (steps >>= next) := by
  intro host
  have kept := first host
  rw [outcome_bind]
  cases found : steps.outcome host with
  | mk result middle =>
      rw [found] at kept
      cases result with
      | ok value => exact kept.trans (second value middle)
      | error error => exact kept

theorem composes : Composes KeepsLog where
  pure := pure ()
  bind := fun first second => first.bind fun _ => second

theorem launch (kernel : Kernel) (grid : Grid) :
    KeepsLog (HostM.launch environment kernel grid) := by
  intro host
  have attempted : host.device.log.toList <+:
      (host.attempt environment kernel grid).device.log.toList := Stream.log_advance _ _ _
  have noted : ∀ launch : Launch, (host.attempt environment kernel grid).device.log.toList <+:
      ((host.attempt environment kernel grid).noteLaunch launch).device.log.toList := by
    simp [Host.noteLaunch, Host.note, Device.note]
  rcases host_launch environment kernel grid host with same | ⟨launch, same | same⟩
  · rw [same]
    exact attempted
  · rw [same]
    exact attempted.trans (noted launch)
  · rw [same]
    exact attempted.trans (noted launch)

theorem peek : KeepsLog (HostM.peek environment) := by
  intro host
  rw [outcome_peek]
  exact Stream.log_advance _ _ _

theorem synchronize : KeepsLog (HostM.synchronize environment) := by
  intro host
  rw [host_synchronize]
  exact (Stream.log_advance _ _ _).trans (Stream.log_advance _ _ _)

theorem stage (watched : Bool) (grid : Grid) (size : Nat) (stage : Stage) :
    KeepsLog (stage.run environment watched grid size) := by
  cases watched with
  | false => exact (launch _ _).bind fun _ => peek.bind fun _ => pure _
  | true =>
      exact (launch _ _).bind fun _ => peek.bind fun _ => synchronize.bind fun _ => print _

end KeepsLog

namespace Logs

variable {line : LogLine} {first second : HostM Unit}

theorem note (level : Level) (text : String) :
    Logs ⟨level, text⟩ (modify (Host.note level text)) := by
  intro host after noted
  cases noted
  simp [Host.note, Device.note]

theorem bind_keepsLog (logs : Logs line first) (keeps : KeepsLog second) :
    Logs line (first >>= fun _ => second) := by
  intro host after ran
  rw [outcome_bind] at ran
  cases found : first.outcome host with
  | mk result middle =>
      rw [found] at ran
      cases result with
      | ok value =>
          have kept := keeps middle
          have reached : second.outcome middle = (.ok (), after) := ran
          rw [reached] at kept
          exact kept.subset (logs host middle found)
      | error error => cases ran

theorem bind_of_later (logs : Logs line second) : Logs line (first >>= fun _ => second) := by
  intro host after ran
  rw [outcome_bind] at ran
  cases found : first.outcome host with
  | mk result middle =>
      rw [found] at ran
      cases result with
      | ok value => exact logs middle after ran
      | error error => cases ran

end Logs

end HostM

end GridSort
