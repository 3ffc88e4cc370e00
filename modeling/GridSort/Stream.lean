import GridSort.Kernel.Basic

namespace GridSort

/-! A stream is a queue of launches with a worker that runs them in order. A launch
that faults leaves its error on the stream for good, and later launches are skipped.
A worker that finds no name for a kernel is gone, and the queue with it. -/

inductive Level
  | debug
  | warn
  | error
  deriving DecidableEq, Repr

structure LogLine where
  level : Level
  text : String
  deriving DecidableEq, Repr

/-- What the streams of a device share. -/
structure Device where
  memory : Memory
  log : Array LogLine

namespace Device

def empty : Device := ⟨Memory.empty, #[]⟩

def note (device : Device) (level : Level) (text : String) : Device :=
  { device with log := device.log.push ⟨level, text⟩ }

@[simp] theorem memory_note (device : Device) (level : Level) (text : String) :
    (device.note level text).memory = device.memory := rfl

end Device

structure Launch where
  kernel : Kernel
  grid : Grid
  /-- For a number of groups, the order in which they run. -/
  order : Nat → List Nat

namespace Launch

/-- Runs groups one after the other, up to the first that faults. -/
def runGroups (kernel : Kernel) (grid : Grid) :
    List Nat → Memory → Option Fault × Memory
  | [], memory => (none, memory)
  | id :: rest, memory =>
      match (kernel.run ⟨id, grid⟩).run memory with
      | (.ok _, memory) => runGroups kernel grid rest memory
      | (.error fault, memory) => (some fault, memory)

def run (launch : Launch) (memory : Memory) : Option Fault × Memory :=
  runGroups launch.kernel launch.grid (launch.order launch.grid.groups) memory

def fault (launch : Launch) (cause : Fault) : Failure :=
  .kernelFault launch.kernel.name cause

end Launch

structure Stream where
  pending : List Launch
  failure : Option Failure
  alive : Bool

namespace Stream

def idle : Stream := ⟨[], none, true⟩

def enqueue (stream : Stream) (launch : Launch) : Stream :=
  { stream with pending := stream.pending ++ [launch] }

/-- The sticky error, if there is one. -/
def status (stream : Stream) : Except Failure Unit :=
  match stream.failure with
  | some error => .error error
  | none => .ok ()

def gone (kernel : String) : Failure :=
  .launchFailure kernel "stream worker is gone"

/-- The worker takes the launch at the head of the queue. -/
def step (stream : Stream) (device : Device) : Stream × Device :=
  match stream.pending with
  | [] => (stream, device)
  | launch :: rest =>
      let name := launch.kernel.name
      if launch.kernel.answersWorker then
        let stream := { stream with pending := rest }
        if stream.failure.isSome then
          (stream, device.note .warn s!"skipping `{name}`: stream is in an error state")
        else
          match device with
          | ⟨memory, log⟩ =>
            match launch.run memory with
            | (none, memory) => (stream, ⟨memory, log⟩)
            | (some cause, memory) =>
                let error := launch.fault cause
                ({ stream with failure := some error },
                  (⟨memory, log⟩ : Device).note .error error.message)
      else
        ({ stream with pending := [], alive := false }, device)

/-- The worker takes up to `count` launches. -/
def advance : Nat → Stream → Device → Stream × Device
  | 0, stream, device => (stream, device)
  | count + 1, stream, device =>
      let (stream, device) := stream.step device
      advance count stream device

/-- The worker takes every launch in the queue. -/
def drain (stream : Stream) (device : Device) : Stream × Device :=
  advance stream.pending.length stream device

theorem step_of_pending_eq_nil {stream : Stream} (h : stream.pending = [])
    (device : Device) : stream.step device = (stream, device) := by
  simp [step, h]

theorem advance_of_pending_eq_nil {stream : Stream} (h : stream.pending = [])
    (count : Nat) (device : Device) :
    advance count stream device = (stream, device) := by
  induction count with
  | zero => rfl
  | succ count ih =>
      rw [advance, step_of_pending_eq_nil h]
      exact ih

theorem failure_step {stream : Stream} {error : Failure}
    (h : stream.failure = some error) (device : Device) :
    (stream.step device).1.failure = some error := by
  unfold step
  split
  · exact h
  · simp only [h, Option.isSome_some, if_true]
    split <;> rfl

theorem failure_advance {stream : Stream} {error : Failure}
    (h : stream.failure = some error) (count : Nat) (device : Device) :
    (advance count stream device).1.failure = some error := by
  induction count generalizing stream device with
  | zero => exact h
  | succ count ih => exact ih (failure_step h device) _

end Stream

end GridSort
