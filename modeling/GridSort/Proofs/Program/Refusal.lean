import GridSort.Proofs.Kernel.Groups

namespace GridSort

/-! Two computations that do the same, but for one that may stop with a fault on its way. What
is known of the other one then holds of it as well, unless it has stopped. -/

namespace Fault

variable {fault : Fault} {result other : Except Fault α}

/-- The result is the other one, or the fault in place of it. -/
def MayReplace (fault : Fault) (result other : Except Fault α) : Prop :=
  result = .error fault ∨ result = other

namespace MayReplace

theorem refl (fault : Fault) (result : Except Fault α) : fault.MayReplace result result :=
  Or.inr rfl

theorem bind {next otherNext : α → Except Fault β} (first : fault.MayReplace result other)
    (later : ∀ value, fault.MayReplace (next value) (otherNext value)) :
    fault.MayReplace (result >>= next) (other >>= otherNext) := by
  rcases first with rfl | rfl
  · exact Or.inl rfl
  · cases result with
    | error cause => exact Or.inr rfl
    | ok value => exact later value

theorem foldlM {step otherStep : σ → ι → Except Fault σ}
    (each : ∀ state index, fault.MayReplace (step state index) (otherStep state index))
    (indices : List ι) (state : σ) :
    fault.MayReplace (indices.foldlM step state) (indices.foldlM otherStep state) := by
  induction indices generalizing state with
  | nil => exact refl fault _
  | cons index rest ih =>
      rw [List.foldlM_cons, List.foldlM_cons]
      exact (each state index).bind ih

end MayReplace

end Fault

namespace Program

variable {program : Program α} {next : α → Program β} {memory : Memory} {fault : Fault}

/-- On this memory the program ends with the fault. -/
def FaultsAt (program : Program α) (memory : Memory) (fault : Fault) : Prop :=
  (program.run memory).1 = .error fault

theorem FaultsAt.bind (stops : program.FaultsAt memory fault) (next : α → Program β) :
    (program >>= next).FaultsAt memory fault := by
  rw [FaultsAt, run_bind]
  cases ran : program.run memory with
  | mk result after =>
      rw [FaultsAt, ran] at stops
      cases stops
      rfl

theorem FaultsAt.bind_of_performs {readable : Region → Prop} {value : α}
    (later : (next value).FaultsAt memory fault)
    (first : program.Performs memory readable [] value) :
    (program >>= next).FaultsAt memory fault := by
  rw [FaultsAt, run_bind, first.run]
  exact later

theorem FaultsAt.lift_bind {result : Except Fault α} {value : α}
    (later : (next value).FaultsAt memory fault) (succeeded : result = .ok value) :
    ((liftM result : Program α) >>= next).FaultsAt memory fault := by
  subst succeeded
  exact later

theorem faultsAt_lift_bind {result : Except Fault α} (failed : result = .error fault)
    (next : α → Program β) (memory : Memory) :
    ((liftM result : Program α) >>= next).FaultsAt memory fault := by
  subst failed
  rfl

end Program

namespace Fault

/-- Whatever memory holds, the program does the same as the other one or ends with the
fault. -/
def MayStop (fault : Fault) (program other : Program α) : Prop :=
  ∀ memory, program.FaultsAt memory fault ∨ program.run memory = other.run memory

namespace MayStop

variable {fault : Fault} {program other : Program α}

theorem refl (fault : Fault) (program : Program α) : fault.MayStop program program :=
  fun _ => Or.inr rfl

theorem bind {next otherNext : α → Program β} (first : fault.MayStop program other)
    (later : ∀ value, fault.MayStop (next value) (otherNext value)) :
    fault.MayStop (program >>= next) (other >>= otherNext) := by
  intro memory
  rcases first memory with stops | same
  · exact Or.inl (stops.bind next)
  · rw [Program.FaultsAt, Program.run_bind, Program.run_bind, same]
    cases other.run memory with
    | mk result after =>
        cases result with
        | error cause => exact Or.inr rfl
        | ok value => exact later value after

theorem lift {result otherResult : Except Fault α} (h : fault.MayReplace result otherResult) :
    fault.MayStop (Program.ofExcept result) (Program.ofExcept otherResult) := by
  rcases h with rfl | rfl
  · exact fun _ => Or.inl rfl
  · exact refl fault _

theorem lift_bind {result : Except Fault α} {next otherNext : α → Program β}
    (later : ∀ value, fault.MayStop (next value) (otherNext value)) :
    fault.MayStop ((liftM result : Program α) >>= next)
      ((liftM result : Program α) >>= otherNext) :=
  (refl fault _).bind later

end MayStop

end Fault

namespace Launch

variable {kernel other : Kernel} {grid : Grid} {fault : Fault} {order : List Nat}

theorem runGroups_append_of_some {first : List Nat} {memory final : Memory} {cause : Fault}
    (stops : runGroups kernel grid first memory = (some cause, final)) (second : List Nat) :
    runGroups kernel grid (first ++ second) memory = (some cause, final) := by
  induction first generalizing memory with
  | nil => cases stops
  | cons id rest ih =>
      rw [runGroups] at stops
      rw [List.cons_append, runGroups]
      cases found : (kernel.run ⟨id, grid⟩).run memory with
      | mk result next =>
          rw [found] at stops
          cases result with
          | ok _ => exact ih stops
          | error _ => exact stops

theorem runGroups_of_mayStop
    (each : ∀ id ∈ order, fault.MayStop (kernel.run ⟨id, grid⟩) (other.run ⟨id, grid⟩))
    (memory : Memory) :
    (∃ final, runGroups kernel grid order memory = (some fault, final)) ∨
      runGroups kernel grid order memory = runGroups other grid order memory := by
  induction order generalizing memory with
  | nil => exact Or.inr rfl
  | cons id rest ih =>
      obtain ⟨here, others⟩ := List.forall_mem_cons.mp each
      rw [runGroups, runGroups]
      rcases here memory with stops | same
      · cases ran : (kernel.run ⟨id, grid⟩).run memory with
        | mk result final =>
            rw [Program.FaultsAt, ran] at stops
            cases stops
            exact Or.inl ⟨final, rfl⟩
      · rw [same]
        cases (other.run ⟨id, grid⟩).run memory with
        | mk result next =>
            cases result with
            | ok _ => exact ih others next
            | error _ => exact Or.inr rfl

/-- A group that faults after those in front of it have run to their end is the last to run,
if none of these has stopped before. -/
theorem exists_runGroups_of_faultsAt
    (each : ∀ id ∈ order, fault.MayStop (kernel.run ⟨id, grid⟩) (other.run ⟨id, grid⟩))
    {front rest : List Nat} {id : Nat} (split : order = front ++ id :: rest)
    {memory reached : Memory} (runs : runGroups other grid front memory = (none, reached))
    (stops : (kernel.run ⟨id, grid⟩).FaultsAt reached fault) :
    ∃ final, runGroups kernel grid order memory = (some fault, final) := by
  subst split
  rcases runGroups_of_mayStop (fun earlier member => each earlier
    (List.mem_append_left _ member)) memory with ⟨final, stopped⟩ | same
  · exact ⟨final, runGroups_append_of_some stopped _⟩
  · rw [runGroups_append_of_none (same.trans runs), runGroups]
    cases ran : (kernel.run ⟨id, grid⟩).run reached with
    | mk result final =>
        rw [Program.FaultsAt, ran] at stops
        cases stops
        exact ⟨final, rfl⟩

end Launch

end GridSort
