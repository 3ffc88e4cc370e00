import GridSort.Proofs.Memory.Writes

namespace GridSort

namespace Program

/-! What a run of a program touches: the regions it loads and the stores it makes, in
order. The stores alone decide what is left in memory, and what is found at the loads
alone decides everything the program does. -/

def loads : Program α → Memory → List Region
  | .done _, _ => []
  | .fail _, _ => []
  | .load source next, memory => source :: (next (memory.load source)).loads memory
  | .store target bytes next, memory => next.loads (memory.store target bytes)

def stores : Program α → Memory → List Write
  | .done _, _ => []
  | .fail _, _ => []
  | .load source next, memory => (next (memory.load source)).stores memory
  | .store target bytes next, memory =>
      ⟨target, bytes⟩ :: next.stores (memory.store target bytes)

theorem memory_run (program : Program α) (memory : Memory) :
    (program.run memory).2 = memory.storeAll (program.stores memory) := by
  induction program generalizing memory with
  | done value => rfl
  | fail fault => rfl
  | load source next ih => exact ih _ memory
  | store target bytes next ih => exact ih (memory.store target bytes)

/-- A program does the same on two memories that agree where it loads. -/
theorem replay (program : Program α) {memory other : Memory}
    (shape : memory.SameShape other)
    (agree : ∀ region ∈ program.loads memory, memory.load region = other.load region) :
    program.loads other = program.loads memory ∧
      program.stores other = program.stores memory ∧
      (program.run other).1 = (program.run memory).1 := by
  induction program generalizing memory other with
  | done value => exact ⟨rfl, rfl, rfl⟩
  | fail fault => exact ⟨rfl, rfl, rfl⟩
  | load source next ih =>
      have found : memory.load source = other.load source := agree source List.mem_cons_self
      have rest := ih (memory.load source) shape fun region member =>
        agree region (List.mem_cons_of_mem _ member)
      obtain ⟨sameLoads, sameStores, sameResult⟩ := rest
      refine ⟨?_, ?_, ?_⟩
      · simp only [loads, ← found, sameLoads]
      · simp only [stores, ← found, sameStores]
      · simp only [run, ← found, sameResult]
  | store target bytes next ih =>
      have rest := ih (shape.store target bytes) fun region member =>
        Memory.load_store_congr shape (agree region member) target bytes
      obtain ⟨sameLoads, sameStores, sameResult⟩ := rest
      exact ⟨sameLoads, congrArg (List.cons _) sameStores, sameResult⟩

/-- The program ends with the value. It loads readable regions only, and makes exactly
these stores. -/
structure Performs (program : Program α) (memory : Memory) (readable : Region → Prop)
    (writes : List Write) (value : α) : Prop where
  result : (program.run memory).1 = .ok value
  stores : program.stores memory = writes
  loads : ∀ region ∈ program.loads memory, readable region

namespace Performs

variable {program : Program α} {memory : Memory} {readable : Region → Prop}
  {writes : List Write} {value : α}

theorem run (h : program.Performs memory readable writes value) :
    program.run memory = (.ok value, memory.storeAll writes) := by
  rw [← h.result, ← h.stores, ← memory_run]

theorem done (value : α) (memory : Memory) (readable : Region → Prop) :
    (Program.done value).Performs memory readable [] value :=
  ⟨rfl, rfl, List.forall_mem_nil readable⟩

theorem lift {result : Except Fault α} (h : result = .ok value) (memory : Memory)
    (readable : Region → Prop) :
    (ofExcept result).Performs memory readable [] value := by
  subst h
  exact done value memory readable

theorem bind {next : α → Program β} {later : List Write} {outcome : β}
    (first : program.Performs memory readable writes value)
    (second : (next value).Performs (memory.storeAll writes) readable later outcome) :
    (program >>= next).Performs memory readable (writes ++ later) outcome := by
  change (program.bind next).Performs memory readable (writes ++ later) outcome
  obtain ⟨result, stored, loaded⟩ := first
  subst stored
  induction program generalizing memory with
  | done found =>
      cases result
      exact second
  | fail fault => cases result
  | load source rest ih =>
      have tail := ih _ result
        (fun region member => loaded region (List.mem_cons_of_mem _ member)) second
      refine ⟨tail.result, tail.stores, ?_⟩
      intro region member
      rcases List.mem_cons.mp member with rfl | inner
      · exact loaded region List.mem_cons_self
      · exact tail.loads region inner
  | store target bytes rest ih =>
      have tail := ih result loaded second
      exact ⟨tail.result, congrArg (List.cons _) tail.stores, tail.loads⟩

theorem lift_bind {result : Except Fault α} {next : α → Program β} {outcome : β}
    (h : result = .ok value)
    (second : (next value).Performs memory readable writes outcome) :
    ((liftM result : Program α) >>= next).Performs memory readable writes outcome := by
  subst h
  exact second

theorem mapM {step : ι → Program α} {value : ι → α} {indices : List ι}
    (each : ∀ index ∈ indices, (step index).Performs memory readable [] (value index)) :
    (indices.mapM step).Performs memory readable [] (indices.map value) := by
  induction indices with
  | nil =>
      rw [List.mapM_nil]
      exact .done _ memory readable
  | cons index rest ih =>
      rw [List.mapM_cons]
      exact (each index List.mem_cons_self).bind
        ((ih fun later member => each later (List.mem_cons_of_mem _ member)).bind
          (.done _ memory readable))

end Performs

end Program

end GridSort
