import GridSort.Proofs.Pairs.Contents

namespace GridSort

/-! Programs that only look at memory. They may fault where they look, or where they ask a
predicate, but what they have loaded until then, and that they have stored nothing, is known. -/

namespace Program

/-- On this memory the program loads readable regions only, and stores nothing. If it faults, it
is with one of the faults, and if it ends, the promise holds of its value. -/
def Inspects (memory : Memory) (readable : Region → Prop) (faults : Fault → Prop)
    (promise : α → Prop) : Program α → Prop
  | .done value => promise value
  | .fail fault => faults fault
  | .load source next =>
      readable source ∧ Inspects memory readable faults promise (next (memory.load source))
  | .store _ _ _ => False

namespace Inspects

variable {program : Program α} {memory : Memory} {readable : Region → Prop}
  {faults : Fault → Prop} {promise : α → Prop}

theorem bind {next : α → Program β} {ending : β → Prop}
    (first : program.Inspects memory readable faults promise)
    (second : ∀ value, promise value → (next value).Inspects memory readable faults ending) :
    (program >>= next).Inspects memory readable faults ending := by
  change (program.bind next).Inspects memory readable faults ending
  induction program with
  | done value => exact second value first
  | fail fault => exact first
  | load source rest ih => exact ⟨first.1, ih _ first.2⟩
  | store target bytes rest ih => exact first.elim

theorem mono {weaker : α → Prop} (h : program.Inspects memory readable faults promise)
    (weakens : ∀ value, promise value → weaker value) :
    program.Inspects memory readable faults weaker := by
  induction program with
  | done value => exact weakens value h
  | fail fault => exact h
  | load source rest ih => exact ⟨h.1, ih _ h.2⟩
  | store target bytes rest ih => exact h.elim

theorem read {type : ElementType} {slice : Slice type} {index : Nat}
    (inside : index < slice.length) (allowed : readable (slice.region index)) :
    (slice.read index).Inspects memory readable faults (· = slice.get memory index) := by
  rw [Slice.read, if_pos inside]
  exact ⟨allowed, rfl⟩

theorem loads (h : program.Inspects memory readable faults promise) :
    ∀ region ∈ program.loads memory, readable region := by
  induction program with
  | done value => exact List.forall_mem_nil readable
  | fail fault => exact List.forall_mem_nil readable
  | load source rest ih => exact List.forall_mem_cons.mpr ⟨h.1, ih _ h.2⟩
  | store target bytes rest ih => exact h.elim

/-- A run leaves memory as it is, with a value that was promised or with a known fault. -/
theorem run (h : program.Inspects memory readable faults promise) :
    (∃ value, program.run memory = (.ok value, memory) ∧ promise value) ∨
      ∃ fault, program.run memory = (.error fault, memory) ∧ faults fault := by
  induction program with
  | done value => exact Or.inl ⟨value, rfl, h⟩
  | fail fault => exact Or.inr ⟨fault, rfl, h⟩
  | load source rest ih => exact ih _ h.2
  | store target bytes rest ih => exact h.elim

end Inspects

end Program

end GridSort
