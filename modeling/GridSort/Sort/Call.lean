import GridSort.Host
import GridSort.Layout
import GridSort.Sort.Plan

namespace GridSort

/-! A sort takes two calls. Without scratch memory the call only tells how many bytes
it needs; with scratch memory it makes its launches. -/

namespace Stage

/-- Launches a stage and looks for an error at once. A call that is watched also waits
for the stage and reports it. -/
def run (environment : Environment) (watched : Bool) (grid : Grid) (size : Nat)
    (stage : Stage) : HostM Unit := do
  HostM.launch environment stage.kernel grid
  HostM.peek environment
  if watched then
    HostM.synchronize environment
    modify (Host.print (.stage stage.label size))

end Stage

namespace SortPlan

def run (environment : Environment) (watched : Bool) (size : Nat) (plan : SortPlan) :
    HostM Unit := do
  if watched then
    modify (Host.print (.blockSize plan.grid.lanes))
    modify (Host.print (.blockCount plan.grid.groups))
  (plan.tileSort :: plan.passes).forM (Stage.run environment watched plan.grid size)
  let passes := plan.passCount
  modify (Host.note .debug s!"sort of {size} elements queued with {passes} merge passes")
  plan.copyBack.toList.forM (Stage.run environment watched plan.grid size)

end SortPlan

namespace SortRequest

variable {keyType valueType : ElementType}

def layout (request : SortRequest keyType valueType) : Except Failure Layout :=
  Layout.ofSize keyType valueType request.size

def requireOutput (request : SortRequest keyType valueType) (part : Part) (length : Nat) :
    Except Failure Unit :=
  if request.size ≤ length then .ok ()
  else .error (.invalidValue (.shortOutput part length request.size))

/-- Checks what the call was given, and finds room for the pairs in its scratch
memory. -/
def accept (request : SortRequest keyType valueType) (layout : Layout)
    (storage : Buffer .byte) : Except Failure (Pairs keyType valueType) := do
  if request.blockSize = 0 then
    .error (.invalidValue .zeroBlockSize)
  else
    request.requireOutput .keys request.target.keys.length
    if valueType.isStored then
      request.requireOutput .values request.target.values.length
    let keys ← storage.view keyType 0 request.size
    let values ← storage.view valueType layout.keyBytes request.size
    pure ⟨keys, values⟩

/-- Tells the caller how many bytes of scratch memory the sort needs. -/
def query (request : SortRequest keyType valueType) : HostM Unit := do
  let layout ← request.layout
  modify fun host => { host with bytesNeeded := layout.bytesNeeded }

def execute (environment : Environment) (watched : Bool)
    (request : SortRequest keyType valueType) (storage : Buffer .byte) :
    HostM Unit := do
  let layout ← request.layout
  if request.size = 0 then
    pure ()
  else
    let scratch ← request.accept layout storage
    (request.plan scratch).run environment watched request.size

def call (environment : Environment) (watched : Bool)
    (request : SortRequest keyType valueType) (storage : Option (Buffer .byte)) :
    HostM Unit :=
  match storage with
  | none => request.query
  | some storage => request.execute environment watched storage

end SortRequest

end GridSort
