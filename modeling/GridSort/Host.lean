import GridSort.Memory.Buffer
import GridSort.Stream

namespace GridSort

/-! The caller's side of a stream. The caller launches, peeks and waits; the worker
goes on between these steps at a pace of its own. -/

/-- What happens around a caller: which launches are refused or disturbed, in which
order groups run, and how far the worker gets before each step of the caller. -/
structure Environment where
  refusal : Nat → Kernel → Option Failure := fun _ _ => none
  disturb : Nat → Kernel → Kernel := fun _ kernel => kernel
  order : Nat → Nat → List Nat := fun _ groups => List.range groups
  pace : Nat → Nat → Nat := fun _ pending => pending

namespace Environment

/-- Each launch is done before the caller's next step. -/
def prompt : Environment := {}

/-- The worker does nothing until it is waited for. -/
def lazy : Environment := { pace := fun _ _ => 0 }

end Environment

structure Attempt where
  kernel : String
  grid : Grid
  deriving DecidableEq, Repr

/-- Lines for the caller's terminal. -/
inductive Report
  | blockSize (lanes : Nat)
  | blockCount (groups : Nat)
  | stage (label : String) (size : Nat)
  deriving DecidableEq, Repr

namespace Report

/-- The text of a line; a stage is reported with the milliseconds it took. -/
def text (elapsed : String) : Report → String
  | .blockSize lanes => s!"block_size {lanes}"
  | .blockCount groups => s!"number of blocks {groups}"
  | .stage label size => s!"{label}({size}) {elapsed} ms"

end Report

structure Host where
  stream : Stream
  device : Device
  bytesNeeded : Nat := 0
  attempts : Array Attempt := #[]
  printed : Array Report := #[]
  clock : Nat := 0

namespace Host

/-- The worker takes what the environment lets it take before the next step. -/
def proceed (environment : Environment) : Host → Host
  | ⟨stream, device, bytesNeeded, attempts, printed, clock⟩ =>
      let count := environment.pace clock stream.pending.length
      let (stream, device) := Stream.advance count stream device
      ⟨stream, device, bytesNeeded, attempts, printed, clock + 1⟩

def drain : Host → Host
  | ⟨stream, device, bytesNeeded, attempts, printed, clock⟩ =>
      let (stream, device) := stream.drain device
      ⟨stream, device, bytesNeeded, attempts, printed, clock⟩

def note (level : Level) (text : String) (host : Host) : Host :=
  { host with device := host.device.note level text }

def print (report : Report) (host : Host) : Host :=
  { host with printed := host.printed.push report }

end Host

/-- Steps of a caller, which end at the first error. -/
abbrev HostM := ExceptT Failure (StateM Host)

namespace HostM

variable (environment : Environment) {type : ElementType}

def enqueue (kernel : Kernel) (grid : Grid) (order : Nat → List Nat) : HostM Unit := do
  if grid.isValid then
    let name := kernel.name
    let groups := grid.groups
    let lanes := grid.lanes
    modify (Host.note .debug s!"enqueue `{name}` grid={groups} block={lanes}")
    if (← get).stream.alive then
      modify fun host =>
        { host with stream := host.stream.enqueue ⟨kernel, grid, order⟩ }
    else
      throw (Stream.gone name)
  else
    throw (.invalidConfiguration kernel.name grid)

/-- An attempt is recorded whatever becomes of it. -/
def launch (kernel : Kernel) (grid : Grid) : HostM Unit := do
  modify (Host.proceed environment)
  let index := (← get).attempts.size
  modify fun host => { host with attempts := host.attempts.push ⟨kernel.name, grid⟩ }
  match environment.refusal index kernel with
  | some error => throw error
  | none => enqueue (environment.disturb index kernel) grid (environment.order index)

def status : HostM Unit := do
  (← get).stream.status

def peek : HostM Unit := do
  modify (Host.proceed environment)
  status

/-- Waits until the worker has taken every launch. -/
def synchronize : HostM Unit := do
  modify (Host.proceed environment)
  modify Host.drain
  if (← get).stream.alive then
    status
  else
    throw (Stream.gone "<synchronize>")

/-- Copies a buffer to the host, once the stream has come to rest. -/
def download (buffer : Buffer type) : HostM (List (Element type)) := do
  synchronize environment
  return buffer.contents (← get).device.memory

/-- Copies elements from the host over a whole buffer, once the stream has come to
rest. -/
def upload (buffer : Buffer type) (elements : List (Element type)) : HostM Unit := do
  if elements.length = buffer.length then
    synchronize environment
    modify fun host =>
      { host with device :=
          { host.device with memory := buffer.fill elements host.device.memory } }
  else
    throw (.invalidValue (.lengthMismatch elements.length buffer.length))

end HostM

end GridSort
