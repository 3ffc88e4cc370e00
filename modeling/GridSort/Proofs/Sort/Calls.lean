import GridSort.Proofs.Sort.Run

namespace GridSort

/-! Calls that follow each other on one stream without a wait in between. The worker may lag
behind as it likes: it takes the launches in the order they were made, and none after one
that faults, so that the calls lead where they would if each launch were waited for. -/

namespace Environment

/-- The same environment with a worker that has its own pace. -/
def paced (environment : Environment) (pace : Nat → Nat → Nat) : Environment :=
  { environment with pace }

/-- No launch is refused, and the worker is left with a name for each kernel. -/
structure Accepting (environment : Environment) : Prop where
  refusal : ∀ index kernel, environment.refusal index kernel = none
  answers : environment.Answers

theorem Accepting.paced {environment : Environment} (accepting : environment.Accepting)
    (pace : Nat → Nat → Nat) : (environment.paced pace).Accepting :=
  ⟨accepting.refusal, accepting.answers⟩

theorem Calm.accepting {environment : Environment} (calm : environment.Calm) :
    environment.Accepting :=
  ⟨calm.refusal, calm.answers⟩

end Environment

/-- A call with scratch memory. -/
structure SortCall where
  keyType : ElementType
  valueType : ElementType
  request : SortRequest keyType valueType
  storage : Buffer .byte

namespace SortCall

def perform (environment : Environment) (call : SortCall) : HostM Unit :=
  call.request.execute environment false call.storage

/-- Makes the calls one after the other, each whatever the ones before it returned. -/
def performAll (environment : Environment) :
    List SortCall → Host → List (Except Failure Unit) × Host
  | [], host => ([], host)
  | call :: rest, host =>
      let (result, middle) := (call.perform environment).outcome host
      let (results, after) := performAll environment rest middle
      (result :: results, after)

/-- Nothing that the call is given is refused. -/
def Passes (call : SortCall) : Prop :=
  call.request.size = 0 ∨
    (∃ layout scratch, call.request.Accepted call.storage layout scratch) ∧
      call.request.blockSize ≤ Grid.maxLanes

/-- What a call launches that passes its checks. -/
def stages (call : SortCall) : List Stage :=
  if call.request.size = 0 then []
  else
    match call.request.layout.bind fun layout => call.request.accept layout call.storage with
    | .ok scratch => (call.request.plan scratch).stages
    | .error _ => []

/-- The launches of calls that run to their end, numbered from `first` on. -/
def launches (environment : Environment) : Nat → List SortCall → List Launch
  | _, [] => []
  | first, call :: rest =>
      Stage.launches environment call.request.grid first call.stages ++
        launches environment (first + call.stages.length) rest

/-- What a call returns when the stream is in error. -/
def reported (error : Failure) (call : SortCall) : Except Failure Unit :=
  if call.request.size = 0 then .ok () else .error error

theorem launches_paced (environment : Environment) (pace : Nat → Nat → Nat) (first : Nat)
    (calls : List SortCall) :
    launches (environment.paced pace) first calls = launches environment first calls := by
  induction calls generalizing first with
  | nil => rfl
  | cons call rest ih =>
      rw [launches, launches, ih]
      exact congrArg (· ++ _) (Stage.launches_congr fun _ _ _ => rfl)

variable {call : SortCall} {calls : List SortCall} {environment : Environment}
  {host : Host} {error : Failure} {memory : Memory}

theorem stages_of_empty (empty : call.request.size = 0) : call.stages = [] := if_pos empty

theorem stages_of_accepted {layout : Layout} {scratch : Pairs call.keyType call.valueType}
    (accepted : call.request.Accepted call.storage layout scratch) :
    call.stages = (call.request.plan scratch).stages := by
  rw [stages, if_neg accepted.nonempty, accepted.hasLayout, Except.bind, accepted.hasRoom]

theorem makes_perform (passes : call.Passes) (accepting : environment.Accepting) :
    HostM.Makes environment false call.request.grid (call.perform environment) call.stages := by
  rcases passes with empty | ⟨⟨layout, scratch, accepted⟩, few⟩
  · intro host start launches follows quiet
    rw [stages_of_empty empty, perform,
      SortRequest.outcome_execute_of_empty empty environment false host]
    exact HostM.Makes.pure host start launches follows quiet
  · have valid := SortRequest.isValid_grid (Nat.pos_of_ne_zero accepted.nonempty)
      accepted.positive few
    rw [stages_of_accepted accepted]
    exact accepted.makes_execute valid accepting.answers false

theorem exists_perform_of_failed (passes : call.Passes) (accepting : environment.Accepting)
    (failed : host.Failed error) :
    ∃ after, (call.perform environment).outcome host = (call.reported error, after) ∧
      after.Failed error ∧ after.device.memory = host.device.memory := by
  rcases passes with empty | ⟨⟨layout, scratch, accepted⟩, few⟩
  · refine ⟨host, ?_, failed, rfl⟩
    rw [perform, reported, if_pos empty]
    exact SortRequest.outcome_execute_of_empty empty environment false host
  · have valid := SortRequest.isValid_grid (Nat.pos_of_ne_zero accepted.nonempty)
      accepted.positive few
    obtain ⟨after, stopped, stuck, same, -⟩ := failed.stage
      (accepting.refusal _ call.request.tileSort.kernel) valid
      (fun index => accepting.answers index _ rfl) false call.request.size
    refine ⟨after, ?_, stuck, same⟩
    rw [perform, reported, if_neg accepted.nonempty, accepted.outcome_execute]
    exact SortPlan.outcome_run_of_error stopped

/-- Calls on a stream in error return the error and leave memory alone. -/
theorem exists_performAll_of_failed (passes : ∀ call ∈ calls, call.Passes)
    (accepting : environment.Accepting) (failed : host.Failed error) :
    ∃ after, performAll environment calls host = (calls.map (reported error), after) ∧
      after.Failed error ∧ after.device.memory = host.device.memory := by
  induction calls generalizing host with
  | nil => exact ⟨host, rfl, failed, rfl⟩
  | cons call rest ih =>
      obtain ⟨passesFirst, restPasses⟩ := List.forall_mem_cons.mp passes
      obtain ⟨middle, performed, stuck, same⟩ :=
        exists_perform_of_failed passesFirst accepting failed
      obtain ⟨after, later, stillStuck, still⟩ := ih restPasses stuck
      refine ⟨after, ?_, stillStuck, still.trans same⟩
      rw [performAll, performed]
      dsimp only
      rw [later]
      rfl

/-- Either no call notices a fault, and the stream follows the launches of all of them, or
one is the first to notice it, and what is left in memory is what the launches lead to. -/
theorem exists_performAll (passes : ∀ call ∈ calls, call.Passes)
    (accepting : environment.Accepting) {start : Memory} {earlier : List Launch}
    (follows : host.Follows start earlier)
    (quiet : environment.Waits false →
      ∃ middle, Launch.runAll earlier start = (none, middle)) :
    ∃ after,
      (performAll environment calls host = (calls.map fun _ => .ok (), after) ∧
        after.Follows start (earlier ++ launches environment host.attempts.size calls)) ∨
      ∃ silent call rest error, calls = silent ++ call :: rest ∧ call.request.size ≠ 0 ∧
        performAll environment calls host =
          ((silent.map fun _ => .ok ()) ++ (call :: rest).map (reported error), after) ∧
        after.Failed error ∧
        Launch.runAll (earlier ++ launches environment host.attempts.size calls) start =
          (some error, after.device.memory) := by
  induction calls generalizing host earlier with
  | nil =>
      refine ⟨host, Or.inl ⟨rfl, ?_⟩⟩
      rwa [launches, List.append_nil]
  | cons call rest ih =>
      obtain ⟨passesFirst, restPasses⟩ := List.forall_mem_cons.mp passes
      obtain ⟨result, middle, performed, ending⟩ :=
        makes_perform passesFirst accepting host start earlier follows quiet
      rw [performAll, performed, launches, ← List.append_assoc]
      cases ending with
      | finished _ follows attempted accepted quiet =>
          have size : middle.attempts.size = host.attempts.size + call.stages.length := by
            rw [← Array.length_toList, attempted, List.length_append, Stage.length_attempts,
              Array.length_toList]
          obtain ⟨after, later⟩ := ih restPasses follows quiet
          rw [size] at later
          refine ⟨after, later.imp ?_ ?_⟩
          · rintro ⟨succeeds, reached⟩
            dsimp only
            rw [succeeds]
            exact ⟨rfl, reached⟩
          · rintro ⟨silent, noticing, others, error, split, nonempty, returned, stuck, ran⟩
            refine ⟨call :: silent, noticing, others, error, congrArg _ split, nonempty, ?_, stuck,
              ran⟩
            dsimp only
            rw [returned]
            rfl
      | refused front others stage _ error split follows attempted refusal =>
          rw [accepting.refusal] at refusal
          cases refusal
      | failed front others stage _ error split follows attempted failure quiet =>
          have nonempty : call.request.size ≠ 0 := by
            intro empty
            rw [stages_of_empty empty] at split
            exact List.append_ne_nil_of_right_ne_nil front (List.cons_ne_nil stage others)
              split.symm
          obtain ⟨after, later, stuck, same⟩ :=
            exists_performAll_of_failed restPasses accepting ⟨⟨start, _, follows⟩, failure⟩
          have ran := Stream.Follows.runAll_of_failure follows failure
          refine ⟨after, Or.inr ⟨[], call, rest, error, rfl, nonempty, ?_, stuck, ?_⟩⟩
          · dsimp only
            rw [later, List.map_cons, reported, if_neg nonempty]
            rfl
          · rw [split, same]
            exact Launch.runAll_append_of_some (Ending.runAll_of_front ran) _

/-- Calls in a row lead to the same memory at every pace of the worker, and so to that of a
worker that does each launch before the caller's next step. If a launch faults, its fault is
what the calls return from the first one on that notices it, and what the caller is told who
waits in the end. Nothing else is returned, and no later launch leaves a trace. -/
theorem performAll_at_any_pace (passes : ∀ call ∈ calls, call.Passes)
    (accepting : environment.Accepting) (healthy : host.Settles memory) :
    (∀ final, Launch.runAll (launches environment host.attempts.size calls) memory =
        (none, final) →
      ∀ pace, ∃ after rested,
        performAll (environment.paced pace) calls host = (calls.map fun _ => .ok (), after) ∧
        (HostM.synchronize (environment.paced pace)).outcome after = (.ok (), rested) ∧
        rested.device.memory = final) ∧
    ∀ front launch rest before cause final,
      launches environment host.attempts.size calls = front ++ launch :: rest →
      Launch.runAll front memory = (none, before) →
      launch.run before = (some cause, final) →
      ∀ pace, ∃ silent noticing after rested, calls = silent ++ noticing ∧
        (∀ call ∈ noticing.head?, call.request.size ≠ 0) ∧
        performAll (environment.paced pace) calls host =
          ((silent.map fun _ => .ok ()) ++ noticing.map (reported (launch.fault cause)),
            after) ∧
        (after.stream.failure ≠ none → after.device.memory = final) ∧
        (HostM.synchronize (environment.paced pace)).outcome after =
          (.error (launch.fault cause), rested) ∧
        rested.device.memory = final := by
  have endings := fun pace => exists_performAll passes (accepting.paced pace) healthy.follows
    fun _ => ⟨memory, healthy.completes⟩
  simp only [launches_paced, Launch.runAll_append_of_none healthy.completes] at endings
  refine ⟨fun final runs pace => ?_, fun front launch rest before cause final made runs faults
    pace => ?_⟩
  · obtain ⟨after, ⟨returned, follows⟩ | ⟨_, _, _, error, -, -, -, -, faulted⟩⟩ := endings pace
    · rw [← Launch.runAll_append_of_none healthy.completes] at runs
      obtain ⟨rested, waited, -, same, -⟩ :=
        (Host.Follows.settles follows runs).synchronize (environment.paced pace)
      exact ⟨after, rested, returned, waited, same⟩
    · rw [runs] at faulted
      cases faulted
  · have faulted : Launch.runAll (launches environment host.attempts.size calls) memory =
        (some (launch.fault cause), final) := by
      rw [made, Launch.runAll_append_of_none runs, Launch.runAll_cons_of_some faults]
    obtain ⟨after, ⟨returned, follows⟩ |
      ⟨silent, call, others, error, split, nonempty, returned, stuck, found⟩⟩ := endings pace
    · rw [← Launch.runAll_append_of_none healthy.completes] at faulted
      obtain ⟨rested, waited, same⟩ :=
        Host.Follows.exists_synchronize (environment.paced pace) follows faulted
      refine ⟨calls, [], after, rested, (List.append_nil calls).symm,
        fun _ first => ?_, ?_, fun failed => ?_, waited, same⟩
      · cases first
      · rw [returned, List.map_nil, List.append_nil]
      · obtain ⟨error, failure⟩ := Option.ne_none_iff_exists'.mp failed
        have found := Stream.Follows.runAll_of_failure follows failure
        rw [faulted] at found
        exact (congrArg Prod.snd found).symm
    · rw [faulted] at found
      cases found
      refine ⟨silent, call :: others, after, _, split, fun other first => ?_, returned,
        fun _ => rfl, stuck.synchronize (environment.paced pace), ?_⟩
      · cases first
        exact nonempty
      · rw [(stuck.proceed _).memory_drain, stuck.memory_proceed]

/-- Calls that are admitted launch nothing that faults. -/
theorem exists_runAll_launches (calm : environment.Calm)
    (admits : ∀ call ∈ calls, call.request.Admits call.storage memory)
    (total : ∀ call ∈ calls, ∃ test, call.request.less = .ofTest test) (first : Nat) :
    ∃ final, Launch.runAll (launches environment first calls) memory = (none, final) := by
  induction calls generalizing first memory with
  | nil => exact ⟨memory, rfl⟩
  | cons call rest ih =>
      obtain ⟨admitted, restAdmits⟩ := List.forall_mem_cons.mp admits
      obtain ⟨⟨test, answers⟩, restTotal⟩ := List.forall_mem_cons.mp total
      rw [launches]
      by_cases empty : call.request.size = 0
      · rw [stages_of_empty empty]
        exact ih restAdmits restTotal first
      · obtain ⟨layout, scratch, accepted, held⟩ := admitted.exists_accepted empty
        have ran : Launch.runAll (call.request.launches environment first scratch) memory = _ :=
          held.runAll_launches (SortRequest.answers_ofTest answers) (fun _ _ => rfl) calm
        rw [stages_of_accepted accepted]
        obtain ⟨final, later⟩ := ih (fun other member =>
          (restAdmits other member).of_sameShape (SortRequest.sameShape_memoryBefore _ _))
          restTotal (first + (call.request.plan scratch).stages.length)
        exact ⟨final, (Launch.runAll_append_of_none ran _).trans later⟩

end SortCall

namespace SmallCall

/-- Sorts what the small call leaves in its outputs, in place and the other way round. -/
def again : SortRequest .byte indexType :=
  { request with source := request.target.toSource, less := .greater }

def backwards : Environment := { order := fun _ groups => (List.range groups).reverse }

theorem calm_backwards : backwards.Calm :=
  ⟨fun _ _ => rfl, fun _ _ => rfl, fun _ _ => List.reverse_perm _⟩

theorem admits_again : again.Admits storage memory :=
  { admits with
    covers := ⟨Nat.le_refl 3, fun _ => Nat.le_refl 3⟩
    keysBeside := Or.inl ⟨rfl, rfl⟩
    valuesBeside := Or.inl ⟨rfl, rfl⟩ }

def call (request : SortRequest .byte indexType) : SortCall :=
  ⟨.byte, indexType, request, storage⟩

theorem accepted_with (source : Source .byte indexType) (less : Predicate (Element .byte)) :
    ({ request with source, less } : SortRequest .byte indexType).Accepted storage ⟨256, 256⟩
      (request.scratchIn storage ⟨256, 256⟩) :=
  have nonempty : request.size ≠ 0 := by decide
  have positive : 0 < request.blockSize := by decide
  have enough : 256 + request.size * indexType.size ≤ storage.length := by decide
  ⟨nonempty, layout, SortRequest.accept_eq_ok layout positive placed.room enough⟩

theorem passes_with (source : Source .byte indexType) (less : Predicate (Element .byte)) :
    (call { request with source, less }).Passes :=
  have few : request.blockSize ≤ Grid.maxLanes := by decide
  Or.inr ⟨⟨_, _, accepted_with source less⟩, few⟩

end SmallCall

namespace SortCall

theorem performAll_at_any_pace_small :
    (∃ final, ∀ pace, ∃ after rested,
      performAll (SmallCall.backwards.paced pace)
          [SmallCall.call SmallCall.request, SmallCall.call SmallCall.again] SmallCall.host =
        ([.ok (), .ok ()], after) ∧
      (HostM.synchronize (SmallCall.backwards.paced pace)).outcome after = (.ok (), rested) ∧
      rested.device.memory = final) ∧
    ∀ pace, ∃ after rested, ∃ results : List (Except Failure Unit),
      performAll (SmallCall.backwards.paced pace)
          [SmallCall.call SmallCall.short, SmallCall.call SmallCall.request] SmallCall.host =
        (results, after) ∧
      (∀ result ∈ results, result = .ok () ∨
        result = .error (.kernelFault "block_sort" (.readOutOfBounds 2 2))) ∧
      (HostM.synchronize (SmallCall.backwards.paced pace)).outcome after =
        (.error (.kernelFault "block_sort" (.readOutOfBounds 2 2)), rested) ∧
      rested.device.memory = SmallCall.memory := by
  have accepting := SmallCall.calm_backwards.accepting
  refine ⟨?_, fun pace => ?_⟩
  · have passes : ∀ call ∈ [SmallCall.call SmallCall.request, SmallCall.call SmallCall.again],
        call.Passes :=
      List.forall_mem_cons.mpr ⟨SmallCall.passes_with _ _,
        List.forall_mem_singleton.mpr (SmallCall.passes_with _ _)⟩
    have total : ∀ call ∈ [SmallCall.call SmallCall.request, SmallCall.call SmallCall.again],
        ∃ test, call.request.less = .ofTest test :=
      List.forall_mem_cons.mpr ⟨⟨Element.less, rfl⟩,
        List.forall_mem_singleton.mpr ⟨fun first second => second.less first, rfl⟩⟩
    obtain ⟨final, runs⟩ := exists_runAll_launches SmallCall.calm_backwards
      (List.forall_mem_cons.mpr ⟨SmallCall.admits,
        List.forall_mem_singleton.mpr SmallCall.admits_again⟩) total 0
    exact ⟨final, (performAll_at_any_pace passes accepting SmallCall.settles).1 final runs⟩
  · have passes : ∀ call ∈ [SmallCall.call SmallCall.short, SmallCall.call SmallCall.request],
        call.Passes :=
      List.forall_mem_cons.mpr ⟨SmallCall.passes_with _ _,
        List.forall_mem_singleton.mpr (SmallCall.passes_with _ _)⟩
    obtain ⟨rest, made⟩ : ∃ rest, launches SmallCall.backwards 0
        [SmallCall.call SmallCall.short, SmallCall.call SmallCall.request] =
          [] ++ HostM.made SmallCall.backwards 0 SmallCall.short.tileSort.kernel ⟨2, 2⟩ ::
            rest := by
      rw [launches, stages_of_accepted (SmallCall.accepted_with _ _)]
      exact ⟨_, rfl⟩
    obtain ⟨silent, noticing, after, rested, -, -, returned, -, waited, same⟩ :=
      (performAll_at_any_pace passes accepting SmallCall.settles).2 [] _ rest _ _ _ made rfl rfl
        pace
    refine ⟨after, rested, _, returned, fun result member => ?_, waited, same⟩
    rcases List.mem_append.mp member with quiet | noticed
    · obtain ⟨call, -, rfl⟩ := List.mem_map.mp quiet
      exact Or.inl rfl
    · obtain ⟨call, -, rfl⟩ := List.mem_map.mp noticed
      rw [reported]
      split
      · exact Or.inl rfl
      · exact Or.inr rfl

end SortCall

end GridSort
