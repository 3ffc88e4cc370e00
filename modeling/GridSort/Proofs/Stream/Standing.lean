import GridSort.Proofs.Stream.Runs

namespace GridSort

/-! What holds of a stream at all times: the invariants that each step of the worker keeps, and
how the stream stands to the launches that it was given. -/

namespace Stream

structure Invariant (holds : Stream → Memory → Prop) (allowed : Launch → Prop) : Prop where
  step : ∀ {stream : Stream} {device : Device}, holds stream device.memory →
    holds (stream.step device).1 (stream.step device).2.memory
  enqueue : ∀ {stream : Stream} {memory : Memory} {launch : Launch}, holds stream memory →
    stream.alive = true → allowed launch → holds (stream.enqueue launch) memory

variable {holds : Stream → Memory → Prop} {allowed : Launch → Prop}

theorem Invariant.advance (invariant : Invariant holds allowed) {stream : Stream}
    {device : Device} (held : holds stream device.memory) (count : Nat) :
    holds (Stream.advance count stream device).1 (Stream.advance count stream device).2.memory := by
  induction count generalizing stream device with
  | zero => exact held
  | succ count ih => exact ih (invariant.step held)

/-- A stream records nothing but faults of kernels. -/
theorem invariant_kernelFault : Invariant (fun stream _ => ∀ error, stream.failure = some error →
    ∃ kernel fault, error = .kernelFault kernel fault) (fun _ => True) where
  enqueue := fun held _ _ => held
  step := by
    intro stream device held
    have moved := stream.moves device
    generalize stream.step device = next at moved ⊢
    cases moved with
    | rests => exact held
    | leaves mute => exact held
    | skips answers => exact held
    | completes answers ran => exact held
    | faults answers ran =>
        intro error found
        cases found
        exact ⟨_, _, rfl⟩

/-- A stream that has lost its worker. -/
def deserted (recorded : Option Failure) : Stream := ⟨[], recorded, false⟩

theorem advance_deserted (recorded : Option Failure) (count : Nat) (device : Device) :
    advance count (deserted recorded) device = (deserted recorded, device) :=
  advance_of_pending_eq_nil rfl count device

/-- What has become of the launches that a stream was given. The worker had a name for each
that it has taken, or it had none for the last one, and lost those behind it. -/
inductive Standing (given : List Launch) : Stream → Prop
  | serving {pending : List Launch} (taken : List Launch) (recorded : Option Failure)
      (split : given = taken ++ pending) (answer : Launch.Answer taken) :
      Standing given ⟨pending, recorded, true⟩
  | deserted (taken lost : List Launch) (last : Launch) (recorded : Option Failure)
      (split : given = taken ++ last :: lost) (answer : Launch.Answer taken)
      (mute : last.kernel.answersWorker = false) : Standing given (.deserted recorded)

variable {given : List Launch} {stream : Stream} {device : Device} {count : Nat}

namespace Standing

theorem step (h : Standing given stream) (device : Device) :
    Standing given (stream.step device).1 := by
  cases h with
  | deserted taken lost last recorded split answer mute =>
      exact .deserted taken lost last recorded split answer mute
  | @serving pending taken recorded split answer =>
      have further : ∀ {launch rest}, pending = launch :: rest →
          launch.kernel.answersWorker = true →
            given = (taken ++ [launch]) ++ rest ∧ Launch.Answer (taken ++ [launch]) := by
        rintro launch rest rfl answers
        refine ⟨by rw [split, List.append_assoc]; rfl, ?_⟩
        exact List.forall_mem_append.mpr ⟨answer, List.forall_mem_singleton.mpr answers⟩
      have moved := moves ⟨pending, recorded, true⟩ device
      generalize Stream.step ⟨pending, recorded, true⟩ device = next at moved ⊢
      cases moved with
      | rests => exact .serving taken recorded split answer
      | @leaves launch rest _ _ mute => exact .deserted taken rest launch recorded split answer mute
      | skips answers =>
          obtain ⟨longer, known⟩ := further rfl answers
          exact .serving _ _ longer known
      | completes answers ran =>
          obtain ⟨longer, known⟩ := further rfl answers
          exact .serving _ _ longer known
      | faults answers ran =>
          obtain ⟨longer, known⟩ := further rfl answers
          exact .serving _ _ longer known

theorem advance (h : Standing given stream) (count : Nat) (device : Device) :
    Standing given (Stream.advance count stream device).1 := by
  induction count generalizing stream device with
  | zero => exact h
  | succ count ih => exact ih (h.step device) _

theorem enqueue (h : Standing given stream) (alive : stream.alive = true) (launch : Launch) :
    Standing (given ++ [launch]) (stream.enqueue launch) := by
  cases h with
  | deserted taken lost last recorded split answer mute => cases alive
  | serving taken recorded split answer =>
      refine .serving taken recorded ?_ answer
      rw [split, List.append_assoc]

theorem eq_deserted (h : Standing given stream) (gone : stream.alive = false) :
    stream = .deserted stream.failure := by
  cases h with
  | serving taken recorded split answer => cases gone
  | deserted taken lost last recorded split answer mute => rfl

theorem alive_of_answer (h : Standing given stream) (answer : Launch.Answer given) :
    stream.alive = true := by
  cases h with
  | serving taken recorded split known => rfl
  | deserted taken lost last recorded split known mute =>
      have found := answer last (split ▸ List.mem_append_right taken List.mem_cons_self)
      cases mute.symm.trans found

end Standing

theorem deserted_of_step (before : stream.alive = true)
    (after : (stream.step device).1.alive = false) :
    ∃ last lost recorded, stream = ⟨last :: lost, recorded, true⟩ ∧
      last.kernel.answersWorker = false ∧ stream.step device = (deserted recorded, device) := by
  have moved := stream.moves device
  generalize stream.step device = next at moved after ⊢
  cases moved with
  | @leaves last lost recorded alive mute =>
      cases before
      exact ⟨last, lost, recorded, rfl, mute, rfl⟩
  | rests => cases before.symm.trans after
  | skips answers => cases before.symm.trans after
  | completes answers ran => cases before.symm.trans after
  | faults answers ran => cases before.symm.trans after

/-- A worker that is lost on the way was there up to the launch that gave it no name. -/
theorem exists_departure (before : stream.alive = true)
    (after : (advance count stream device).1.alive = false) :
    ∃ earlier last lost recorded,
      (advance earlier stream device).1 = ⟨last :: lost, recorded, true⟩ ∧
      last.kernel.answersWorker = false ∧
      advance count stream device = (deserted recorded, (advance earlier stream device).2) := by
  induction count generalizing stream device with
  | zero => cases before.symm.trans after
  | succ count ih =>
      cases alive : (stream.step device).1.alive with
      | true =>
          obtain ⟨earlier, last, lost, recorded, there, mute, gone⟩ := ih alive after
          exact ⟨earlier + 1, last, lost, recorded, there, mute, gone⟩
      | false =>
          obtain ⟨last, lost, recorded, there, mute, gone⟩ := deserted_of_step before alive
          refine ⟨0, last, lost, recorded, there, mute, ?_⟩
          change advance count (stream.step device).1 (stream.step device).2 = _
          rw [gone]
          exact advance_deserted recorded count device

end Stream

end GridSort
