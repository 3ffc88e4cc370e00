import GridSort.Proofs.Program.Footprint
import GridSort.Proofs.Stream.Runs

namespace GridSort

/-! How a program conducts itself whatever it finds in memory: where it stores, how it can
fault, and what is known when it ends. Nothing is said of what it loads, so that no two
regions need to be apart. -/

namespace Memory

/-- What meets no writable region is as it was. -/
def UnchangedOutside (writable : Region → Prop) (memory after : Memory) : Prop :=
  ∀ region, (∀ target, writable target → region.Disjoint target) →
    after.load region = memory.load region

variable {writable : Region → Prop} {memory middle after : Memory}

theorem UnchangedOutside.refl (writable : Region → Prop) (memory : Memory) :
    memory.UnchangedOutside writable memory := fun _ _ => rfl

theorem UnchangedOutside.trans (first : UnchangedOutside writable memory middle)
    (second : UnchangedOutside writable middle after) :
    UnchangedOutside writable memory after :=
  fun region apart => (second region apart).trans (first region apart)

theorem UnchangedOutside.store (memory : Memory) {target : Address} {bytes : List UInt8}
    (allowed : writable ⟨target, bytes.length⟩) :
    memory.UnchangedOutside writable (memory.store target bytes) :=
  fun _ apart => load_store_of_disjoint (apart _ allowed)

end Memory

namespace Program

/-- Whatever memory holds, the program stores to writable regions only. If it faults, it is
with one of the faults, and if it ends, the promise holds of its value. -/
def Keeps (writable : Region → Prop) (faults : Fault → Prop) (promise : α → Prop) :
    Program α → Prop
  | .done value => promise value
  | .fail fault => faults fault
  | .load _ next => ∀ bytes, (next bytes).Keeps writable faults promise
  | .store target bytes next =>
      writable ⟨target, bytes.length⟩ ∧ next.Keeps writable faults promise

namespace Keeps

variable {program : Program α} {writable : Region → Prop} {faults : Fault → Prop}
  {promise : α → Prop}

theorem done {value : α} (promised : promise value) :
    (Program.done value).Keeps writable faults promise := promised

theorem fail {fault : Fault} (known : faults fault) :
    (Program.fail fault : Program α).Keeps writable faults promise := known

theorem bind {next : α → Program β} {ending : β → Prop}
    (first : program.Keeps writable faults promise)
    (second : ∀ value, promise value → (next value).Keeps writable faults ending) :
    (program >>= next).Keeps writable faults ending := by
  change (program.bind next).Keeps writable faults ending
  induction program with
  | done value => exact second value first
  | fail fault => exact first
  | load source rest ih => exact fun bytes => ih bytes (first bytes)
  | store target bytes rest ih => exact ⟨first.1, ih first.2⟩

theorem mono {weaker : α → Prop} (h : program.Keeps writable faults promise)
    (weakens : ∀ value, promise value → weaker value) :
    program.Keeps writable faults weaker := by
  induction program with
  | done value => exact weakens value h
  | fail fault => exact h
  | load source rest ih => exact fun bytes => ih bytes (h bytes)
  | store target bytes rest ih => exact ⟨h.1, ih h.2⟩

theorem weaken_faults {more : Fault → Prop} (h : program.Keeps writable faults promise)
    (known : ∀ fault, faults fault → more fault) : program.Keeps writable more promise := by
  induction program with
  | done value => exact h
  | fail fault => exact known fault h
  | load source rest ih => exact fun bytes => ih bytes (h bytes)
  | store target bytes rest ih => exact ⟨h.1, ih h.2⟩

theorem lift_bind {result : Except Fault α} {value : α} {next : α → Program β}
    {ending : β → Prop} (h : result = .ok value)
    (second : (next value).Keeps writable faults ending) :
    ((liftM result : Program α) >>= next).Keeps writable faults ending := by
  subst h
  exact second

theorem mapM {step : ι → Program α} {ends : ι → Prop} {indices : List ι}
    (each : ∀ index ∈ indices, (step index).Keeps writable faults fun _ => ends index) :
    (indices.mapM step).Keeps writable faults fun values =>
      values.length = indices.length ∧ ∀ index ∈ indices, ends index := by
  induction indices with
  | nil =>
      rw [List.mapM_nil]
      exact ⟨rfl, List.forall_mem_nil ends⟩
  | cons index rest ih =>
      obtain ⟨here, restEach⟩ := List.forall_mem_cons.mp each
      rw [List.mapM_cons]
      refine here.bind fun value first => (ih restEach).bind fun values others => ?_
      exact ⟨congrArg Nat.succ others.1, List.forall_mem_cons.mpr ⟨first, others.2⟩⟩

/-- What is known of a run. -/
theorem run (h : program.Keeps writable faults promise) (memory : Memory) :
    memory.UnchangedOutside writable (program.run memory).2 ∧
      match (program.run memory).1 with
      | .ok value => promise value
      | .error fault => faults fault := by
  induction program generalizing memory with
  | done value => exact ⟨.refl writable memory, h⟩
  | fail fault => exact ⟨.refl writable memory, h⟩
  | load source next ih => exact ih _ (h _) memory
  | store target bytes next ih =>
      obtain ⟨unchanged, ended⟩ := ih h.2 (memory.store target bytes)
      exact ⟨(Memory.UnchangedOutside.store memory h.1).trans unchanged, ended⟩

end Keeps

end Program

namespace Launch

variable {kernel : Kernel} {grid : Grid} {writable : Region → Prop} {faults : Fault → Prop}
  {promise : Nat → Prop}

/-- Groups run to their end, with all their promises, or one of them faults. -/
theorem runGroups_of_keeps {order : List Nat}
    (keeps : ∀ id ∈ order,
      (kernel.run ⟨id, grid⟩).Keeps writable faults fun _ => promise id)
    (memory : Memory) :
    memory.UnchangedOutside writable (runGroups kernel grid order memory).2 ∧
      match (runGroups kernel grid order memory).1 with
      | none => ∀ id ∈ order, promise id
      | some fault => faults fault := by
  induction order generalizing memory with
  | nil => exact ⟨.refl writable memory, List.forall_mem_nil promise⟩
  | cons id rest ih =>
      have here := (keeps id List.mem_cons_self).run memory
      rw [runGroups]
      cases ran : (kernel.run ⟨id, grid⟩).run memory with
      | mk result middle =>
          rw [ran] at here
          obtain ⟨unchanged, ended⟩ := here
          cases result with
          | error fault => exact ⟨unchanged, ended⟩
          | ok value =>
              obtain ⟨later, others⟩ := ih (List.forall_mem_cons.mp keeps).2 middle
              refine ⟨unchanged.trans later, ?_⟩
              dsimp only
              cases found : (runGroups kernel grid rest middle).1 with
              | some fault =>
                  rw [found] at others
                  exact others
              | none =>
                  rw [found] at others
                  exact List.forall_mem_cons.mpr ⟨ended, others⟩

/-- No group can fault, whatever it finds, and none stores elsewhere. -/
def Safe (writable : Region → Prop) (launch : Launch) : Prop :=
  ∀ id ∈ launch.order launch.grid.groups,
    (launch.kernel.run ⟨id, launch.grid⟩).Keeps writable (fun _ => False) fun _ => True

theorem exists_run_of_safe {launch : Launch} (safe : launch.Safe writable) (memory : Memory) :
    ∃ after, launch.run memory = (none, after) ∧ memory.UnchangedOutside writable after := by
  obtain ⟨unchanged, ended⟩ := runGroups_of_keeps safe memory
  change memory.UnchangedOutside writable (launch.run memory).2 at unchanged
  change match (launch.run memory).1 with | none => _ | some fault => False at ended
  cases found : launch.run memory with
  | mk fault after =>
      rw [found] at unchanged ended
      cases fault with
      | some fault => exact ended.elim
      | none => exact ⟨after, rfl, unchanged⟩

theorem exists_runAll_of_safe {launches : List Launch}
    (safe : ∀ launch ∈ launches, launch.Safe writable) (memory : Memory) :
    ∃ after, runAll launches memory = (none, after) ∧
      memory.UnchangedOutside writable after := by
  induction launches generalizing memory with
  | nil => exact ⟨memory, rfl, .refl writable memory⟩
  | cons launch rest ih =>
      obtain ⟨safeFirst, restSafe⟩ := List.forall_mem_cons.mp safe
      obtain ⟨middle, ran, unchanged⟩ := exists_run_of_safe safeFirst memory
      obtain ⟨after, later, unchangedLater⟩ := ih restSafe middle
      exact ⟨after, (runAll_cons_of_none ran rest).trans later, unchanged.trans unchangedLater⟩

end Launch

end GridSort
