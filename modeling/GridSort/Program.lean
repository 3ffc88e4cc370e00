import GridSort.Memory.Basic

namespace GridSort

/-! What one group does: loads and stores of bytes, in order, until it is done or
faults. A program is its own trace for each answer memory may give; `run` is its
effect. Stores made before a fault stay. -/

inductive Program (α : Type) where
  | done (value : α)
  | fail (fault : Fault)
  | load (source : Region) (next : List UInt8 → Program α)
  | store (target : Address) (bytes : List UInt8) (next : Program α)

namespace Program

def bind : Program α → (α → Program β) → Program β
  | .done value, next => next value
  | .fail fault, _ => .fail fault
  | .load source rest, next => .load source fun bytes => (rest bytes).bind next
  | .store target bytes rest, next => .store target bytes (rest.bind next)

instance : Monad Program where
  pure := .done
  bind := bind

def ofExcept : Except Fault α → Program α
  | .ok value => .done value
  | .error fault => .fail fault

instance : MonadLift (Except Fault) Program where
  monadLift := ofExcept

def run : Program α → Memory → Except Fault α × Memory
  | .done value, memory => (.ok value, memory)
  | .fail fault, memory => (.error fault, memory)
  | .load source next, memory => (next (memory.load source)).run memory
  | .store target bytes next, memory => next.run (memory.store target bytes)

@[simp] theorem done_bind (value : α) (next : α → Program β) :
    (done value).bind next = next value := rfl

@[simp] theorem fail_bind (fault : Fault) (next : α → Program β) :
    (fail fault).bind next = fail fault := rfl

theorem bind_done (program : Program α) : program.bind done = program := by
  induction program with
  | done value => rfl
  | fail fault => rfl
  | load source next ih => simp only [bind, ih]
  | store target bytes next ih => simp only [bind, ih]

theorem bind_assoc (program : Program α) (first : α → Program β)
    (second : β → Program γ) :
    (program.bind first).bind second =
      program.bind fun value => (first value).bind second := by
  induction program with
  | done value => rfl
  | fail fault => rfl
  | load source next ih => simp only [bind, ih]
  | store target bytes next ih => simp only [bind, ih]

instance : LawfulMonad Program :=
  LawfulMonad.mk' Program bind_done (fun _ _ => rfl) bind_assoc

@[simp] theorem run_pure (value : α) (memory : Memory) :
    (pure value : Program α).run memory = (.ok value, memory) := rfl

theorem run_bind (program : Program α) (next : α → Program β) (memory : Memory) :
    (program >>= next).run memory =
      match program.run memory with
      | (.ok value, after) => (next value).run after
      | (.error fault, after) => (.error fault, after) := by
  change (program.bind next).run memory = _
  induction program generalizing memory with
  | done value => rfl
  | fail fault => rfl
  | load source rest ih => exact ih _ memory
  | store target bytes rest ih => exact ih (memory.store target bytes)

@[simp] theorem run_ofExcept (result : Except Fault α) (memory : Memory) :
    (ofExcept result).run memory = (result, memory) := by
  cases result <;> rfl

end Program

end GridSort
