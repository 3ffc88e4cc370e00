import GridSort.Proofs.Kernel.Confinement
import GridSort.Proofs.Stream.Standing

namespace GridSort

/-! A stream on which confined launches wait behind others. First the worker takes the ones
that were there before; what it does from then on is confined. -/

/-- Each of the groups stores to writable regions only. -/
def Launch.Confined (writable : Region → Prop) (launch : Launch) : Prop :=
  ∀ group, (launch.kernel.run group).Confined writable

theorem Launch.Confined.run {writable : Region → Prop} {launch : Launch}
    (confined : launch.Confined writable) (memory : Memory) :
    memory.UnchangedOutside writable (launch.run memory).2 :=
  (runGroups_of_keeps (fun id _ => confined ⟨id, launch.grid⟩) memory).1

namespace Stream

theorem advance_succ_eq {count : Nat} {base reached : Stream} {device now : Device}
    (h : advance count base device = (reached, now)) :
    advance (count + 1) base device = reached.step now := by
  rw [advance_add, h]
  rfl

/-- The base stream with confined launches behind its own. Either the worker is not beyond what
waited in the base, and memory is as the base would leave it by now, or the worker has come to
the launches behind, and memory may differ in writable regions. -/
inductive Extends (base : Stream) (device : Device) (writable : Region → Prop) :
    Stream → Memory → Prop
  | behind (count : Nat) {pending : List Launch} {failure : Option Failure} {was : Bool}
      {memory : Memory} {log : Array LogLine} (added : List Launch) (alive : Bool)
      (reached : advance count base device = (⟨pending, failure, was⟩, ⟨memory, log⟩))
      (confined : ∀ launch ∈ added, launch.Confined writable) :
      Extends base device writable ⟨pending ++ added, failure, alive⟩ memory
  | beyond (count : Nat) {rested : Stream} {now : Device} {added : List Launch}
      {memory : Memory} (failure : Option Failure) (alive : Bool)
      (reached : advance count base device = (rested, now)) (rest : rested.pending = [])
      (confined : ∀ launch ∈ added, launch.Confined writable)
      (unchanged : now.memory.UnchangedOutside writable memory) :
      Extends base device writable ⟨added, failure, alive⟩ memory

namespace Extends

variable {base stream rested : Stream} {device now current : Device}
  {writable : Region → Prop} {memory : Memory} {count : Nat} {added : List Launch}

theorem refl (base : Stream) (device : Device) (writable : Region → Prop) :
    Extends base device writable base device.memory := by
  have start : Extends base device writable ⟨base.pending ++ [], base.failure, base.alive⟩
      device.memory := .behind 0 [] base.alive rfl (List.forall_mem_nil _)
  rwa [List.append_nil] at start

theorem exists_reached (h : Extends base device writable stream memory) :
    ∃ count, (stream.pending = [] → (advance count base device).1.pending = []) ∧
      (advance count base device).2.memory.UnchangedOutside writable memory := by
  cases h with
  | behind count added alive reached confined =>
      refine ⟨count, ?_⟩
      rw [reached]
      exact ⟨fun rest => (List.append_eq_nil_iff.mp rest).1, .refl _ _⟩
  | beyond count failure alive reached rest confined unchanged =>
      refine ⟨count, ?_⟩
      rw [reached]
      exact ⟨fun _ => rest, unchanged⟩

theorem step_beyond (failure : Option Failure) (alive : Bool)
    (reached : advance count base device = (rested, now)) (rest : rested.pending = [])
    (confined : ∀ launch ∈ added, launch.Confined writable)
    (unchanged : now.memory.UnchangedOutside writable current.memory) :
    Extends base device writable (Stream.step ⟨added, failure, alive⟩ current).1
      (Stream.step ⟨added, failure, alive⟩ current).2.memory := by
  have moved := moves ⟨added, failure, alive⟩ current
  generalize Stream.step ⟨added, failure, alive⟩ current = next at moved ⊢
  cases moved with
  | rests => exact .beyond count failure alive reached rest confined unchanged
  | leaves mute => exact .beyond count failure false reached rest (List.forall_mem_nil _) unchanged
  | skips answers =>
      exact .beyond count _ alive reached rest (List.forall_mem_cons.mp confined).2 unchanged
  | @completes launch later _ memory answers ran =>
      obtain ⟨first, others⟩ := List.forall_mem_cons.mp confined
      have further := unchanged.trans (first.run current.memory)
      rw [ran] at further
      exact .beyond count none alive reached rest others further
  | @faults launch later _ memory cause answers ran =>
      obtain ⟨first, others⟩ := List.forall_mem_cons.mp confined
      have further := unchanged.trans (first.run current.memory)
      rw [ran] at further
      exact .beyond count _ alive reached rest others further

/-- The worker takes one more of the launches that were there before, or all of these are
taken. -/
theorem step (h : Extends base device writable stream current.memory) :
    Extends base device writable (stream.step current).1 (stream.step current).2.memory := by
  obtain ⟨memory, log⟩ := current
  cases h with
  | beyond count failure alive reached rest confined unchanged =>
      exact step_beyond failure alive reached rest confined unchanged
  | @behind count pending failure was _ earlierLog added alive reached confined =>
      have next := advance_succ_eq reached
      cases pending with
      | nil => exact step_beyond failure alive reached rfl confined (.refl _ _)
      | cons launch rest =>
          have moved := moves ⟨launch :: rest ++ added, failure, alive⟩ ⟨memory, log⟩
          generalize Stream.step ⟨launch :: rest ++ added, failure, alive⟩ ⟨memory, log⟩ =
            after at moved ⊢
          -- The logs differ, but a launch runs on memory alone.
          have now : launch.run (⟨memory, earlierLog⟩ : Device).memory = launch.run memory := rfl
          cases moved with
          | leaves mute =>
              rw [step_of_mute mute] at next
              exact .behind (count + 1) [] false next (List.forall_mem_nil _)
          | skips answers =>
              rw [step_of_failed answers] at next
              exact .behind (count + 1) added alive next confined
          | completes answers ran =>
              rw [step_of_completes answers (now.trans ran)] at next
              exact .behind (count + 1) added alive next confined
          | faults answers ran =>
              rw [step_of_faults answers (now.trans ran)] at next
              exact .behind (count + 1) added alive next confined

theorem enqueue (h : Extends base device writable stream memory) {launch : Launch}
    (confined : launch.Confined writable) :
    Extends base device writable (stream.enqueue launch) memory := by
  have grown : ∀ {added : List Launch}, (∀ launch ∈ added, launch.Confined writable) →
      ∀ other ∈ added ++ [launch], other.Confined writable := by
    intro added earlier other member
    rcases List.mem_append.mp member with old | new
    · exact earlier other old
    · rwa [List.mem_singleton.mp new]
  cases h with
  | behind count added alive reached earlier =>
      rw [Stream.enqueue, List.append_assoc]
      exact .behind count _ alive reached (grown earlier)
  | beyond count failure alive reached rest earlier unchanged =>
      exact .beyond count failure alive reached rest (grown earlier) unchanged

theorem invariant (base : Stream) (device : Device) (writable : Region → Prop) :
    Invariant (Extends base device writable) (Launch.Confined writable) where
  step := step
  enqueue := fun held _ confined => held.enqueue confined

end Extends

end Stream

end GridSort
