import GridSort.Proofs.Host.Disturbance
import GridSort.Proofs.Host.Invariants
import GridSort.Proofs.Host.Rest
import GridSort.Proofs.Layout
import GridSort.Proofs.Sort.Plan

namespace GridSort

/-! An accepted call makes the launches of its plan, whatever becomes of them. -/

/-- What a call that is watched prints before its launches. -/
def Host.announce (watched : Bool) (grid : Grid) (host : Host) : Host :=
  if watched then (host.print (.blockSize grid.lanes)).print (.blockCount grid.groups)
  else host

namespace SortPlan

variable {environment other : Environment} {watched : Bool} {plan : SortPlan} {bound : Nat}

/-- A call whose first stage fails goes no further. -/
theorem outcome_run_of_error {size : Nat} {host after : Host} {error : Failure}
    (stopped : (plan.tileSort.run environment watched plan.grid size).outcome
      (host.announce watched plan.grid) = (.error error, after)) :
    (plan.run environment watched size).outcome host = (.error error, after) := by
  have begun : ((plan.tileSort :: plan.passes).forM
      (Stage.run environment watched plan.grid size)).outcome
        (host.announce watched plan.grid) = (.error error, after) :=
    HostM.outcome_bind_of_error stopped _
  cases watched with
  | false => exact HostM.outcome_bind_of_error begun _
  | true => exact HostM.outcome_bind_of_error begun _

/-- What holds of the stages of a plan, and of what is printed and logged, holds of the plan. -/
theorem holds_run {holds : HostM Unit → Prop} (composes : HostM.Composes holds)
    (printed : watched = true → ∀ report, holds (modify (Host.print report)))
    (noted : ∀ text, holds (modify (Host.note .debug text))) {size : Nat}
    (staged : ∀ stage ∈ plan.stages, holds (stage.run environment watched plan.grid size)) :
    holds (plan.run environment watched size) := by
  have begun : holds
      ((plan.tileSort :: plan.passes).forM (Stage.run environment watched plan.grid size)) :=
    composes.forM fun stage member => staged stage (List.mem_append_left _ member)
  have ended : holds (plan.copyBack.toList.forM (Stage.run environment watched plan.grid size)) :=
    composes.forM fun stage member => staged stage (List.mem_append_right _ member)
  have made := fun text => composes.bind begun (composes.bind (noted text) ended)
  cases watched with
  | false => exact made _
  | true => exact composes.bind (printed rfl _) (composes.bind (printed rfl _) (made _))

theorem retains_run (environment : Environment) (watched : Bool) (size : Nat) :
    HostM.Retains Host.bytesNeeded (plan.run environment watched size) :=
  holds_run HostM.Retains.composes (fun _ _ => .change fun _ => rfl)
    (fun _ => .change fun _ => rfl) fun stage _ => .stage environment watched plan.grid size stage

theorem maintains_run {holds : Stream → Memory → Prop} {allowed : Launch → Prop}
    (invariant : Stream.Invariant holds allowed)
    (permitted : ∀ stage ∈ plan.stages, ∀ index,
      allowed (HostM.made environment index stage.kernel plan.grid))
    (watched : Bool) (size : Nat) :
    HostM.Maintains holds (plan.run environment watched size) :=
  holds_run HostM.Maintains.composes (fun _ _ => .change (fun _ => rfl) fun _ => rfl)
    (fun _ => .change (fun _ => rfl) fun _ => rfl)
    fun stage member => .stage invariant (permitted stage member) watched size

theorem makes_run (valid : plan.grid.isValid = true)
    (answers : ∀ stage ∈ plan.stages, ∀ index,
      (environment.disturb index stage.kernel).answersWorker = true) (size : Nat) :
    HostM.Makes environment watched plan.grid (plan.run environment watched size)
      plan.stages := by
  have printed : ∀ report, HostM.Makes environment watched plan.grid
      (modify (Host.print report)) [] := fun report =>
    .change (fun _ _ _ h => h.print _) fun _ => rfl
  have noted : ∀ text, HostM.Makes environment watched plan.grid
      (modify (Host.note .debug text)) [] := fun text =>
    .change (fun _ _ _ h => h.note _ _) fun _ => rfl
  have begun : HostM.Makes environment watched plan.grid
      ((plan.tileSort :: plan.passes).forM (Stage.run environment watched plan.grid size))
      (plan.tileSort :: plan.passes) :=
    .forM fun stage member => .stage valid
      (answers stage (List.mem_append_left _ member)) size
  have ended : HostM.Makes environment watched plan.grid
      (plan.copyBack.toList.forM (Stage.run environment watched plan.grid size))
      plan.copyBack.toList :=
    .forM fun stage member => .stage valid
      (answers stage (List.mem_append_right _ member)) size
  cases watched with
  | false => exact begun.bind ((noted _).bind ended)
  | true => exact (printed _).bind ((printed _).bind (begun.bind ((noted _).bind ended)))

theorem agree_run (agrees : environment.AgreesBelow bound other) (size : Nat) :
    HostM.Agree bound plan.stages.length (plan.run environment watched size)
      (plan.run other watched size) := by
  have printed : ∀ report, HostM.Agree bound 0 (modify (Host.print report))
      (modify (Host.print report)) := fun report => .of_eq rfl fun _ => rfl
  have noted : ∀ text, HostM.Agree bound 0 (modify (Host.note .debug text))
      (modify (Host.note .debug text)) := fun text => .of_eq rfl fun _ => rfl
  have each := HostM.Agree.stage agrees watched plan.grid size
  have made := fun text => (HostM.Agree.forM each (plan.tileSort :: plan.passes)).bind
    ((noted text).bind (HostM.Agree.forM each plan.copyBack.toList))
  have total : (plan.tileSort :: plan.passes).length + (0 + plan.copyBack.toList.length) =
      plan.stages.length := by
    rw [stages, List.length_append, Nat.zero_add]
  simp only [total] at made
  cases watched with
  | false => exact made _
  | true =>
      have whole := fun text => (printed (.blockSize plan.grid.lanes)).bind
        ((printed (.blockCount plan.grid.groups)).bind (made text))
      simp only [Nat.zero_add] at whole
      exact whole _

end SortPlan

namespace SortRequest

variable {keyType valueType : ElementType} {request : SortRequest keyType valueType}
  {scratch : Pairs keyType valueType} {storage : Buffer .byte} {layout : Layout}
  {environment other : Environment} {watched : Bool} {host after : Host}

/-- The launches of a call, numbered from `first` on. -/
def launches (request : SortRequest keyType valueType) (environment : Environment)
    (first : Nat) (scratch : Pairs keyType valueType) : List Launch :=
  Stage.launches environment request.grid first (request.plan scratch).stages

@[simp] theorem length_launches (environment : Environment) (first : Nat) :
    (request.launches environment first scratch).length =
      (request.plan scratch).stages.length :=
  Stage.length_launches first _

theorem answersWorker_of_mem_stages {stage : Stage}
    (member : stage ∈ (request.plan scratch).stages) :
    stage.kernel.answersWorker = true := by
  rw [stages_plan] at member
  rcases List.mem_append.mp member with first | last
  · rcases List.mem_cons.mp first with rfl | pass
    · rfl
    · obtain ⟨index, inside, rfl⟩ := List.mem_mapIdx.mp pass
      rfl
  · split at last
    · nomatch last
    · rw [List.mem_singleton.mp last]
      rfl

theorem isValid_grid (nonempty : 1 ≤ request.size) (positive : 1 ≤ request.blockSize)
    (few : request.blockSize ≤ Grid.maxLanes) : request.grid.isValid = true := by
  rw [Grid.isValid_iff]
  refine ⟨?_, positive, few⟩
  change 1 ≤ (request.size + request.blockSize - 1) / request.blockSize
  rw [Nat.le_div_iff_mul_le positive]
  omega

/-- Where an accepted call finds room in its scratch memory. -/
structure Accepted (request : SortRequest keyType valueType) (storage : Buffer .byte)
    (layout : Layout) (scratch : Pairs keyType valueType) : Prop where
  nonempty : request.size ≠ 0
  hasLayout : request.layout = .ok layout
  hasRoom : request.accept layout storage = .ok scratch

theorem outcome_execute (request : SortRequest keyType valueType) (storage : Buffer .byte)
    (environment : Environment) (watched : Bool) (host : Host) :
    (request.execute environment watched storage).outcome host =
      match request.layout with
      | .error error => (.error error, host)
      | .ok layout =>
          if request.size = 0 then (.ok (), host)
          else
            match request.accept layout storage with
            | .error error => (.error error, host)
            | .ok scratch =>
                ((request.plan scratch).run environment watched request.size).outcome host := by
  rw [execute]
  cases request.layout with
  | error error => rfl
  | ok layout =>
      change HostM.outcome (if request.size = 0 then _ else _) host = _
      dsimp only
      by_cases empty : request.size = 0
      · rw [if_pos empty, if_pos empty]
        rfl
      · rw [if_neg empty, if_neg empty]
        cases request.accept layout storage with
        | error error => rfl
        | ok scratch => rfl

theorem outcome_execute_of_empty (empty : request.size = 0) (environment : Environment)
    (watched : Bool) (host : Host) :
    (request.execute environment watched storage).outcome host = (.ok (), host) := by
  have layout : request.layout = .ok ⟨0, 0⟩ := by rw [SortRequest.layout, empty, Layout.ofSize_zero]
  rw [outcome_execute, layout]
  exact if_pos empty

theorem outcome_execute_of_rejected {error : Failure} (found : request.layout = .ok layout)
    (nonempty : request.size ≠ 0) (rejected : request.accept layout storage = .error error)
    (environment : Environment) (watched : Bool) (host : Host) :
    (request.execute environment watched storage).outcome host = (.error error, host) := by
  rw [outcome_execute, found]
  dsimp only
  rw [if_neg nonempty, rejected]

/-- Only a call without scratch memory tells how much of it a sort needs. -/
theorem bytesNeeded_execute (request : SortRequest keyType valueType)
    (storage : Buffer .byte) (environment : Environment) (watched : Bool) :
    HostM.Retains Host.bytesNeeded (request.execute environment watched storage) := by
  refine (HostM.Retains.lift request.layout).bind fun layout => ?_
  split
  · exact .pure ()
  · exact (HostM.Retains.lift (request.accept layout storage)).bind fun scratch =>
      SortPlan.retains_run environment watched request.size

theorem maintains_execute {holds : Stream → Memory → Prop} {allowed : Launch → Prop}
    (invariant : Stream.Invariant holds allowed)
    (permitted : ∀ layout scratch, request.layout = .ok layout →
      request.accept layout storage = .ok scratch →
        ∀ stage ∈ (request.plan scratch).stages, ∀ index,
          allowed (HostM.made environment index stage.kernel request.grid))
    (watched : Bool) : HostM.Maintains holds (request.execute environment watched storage) := by
  intro host held
  rw [outcome_execute]
  cases found : request.layout with
  | error error => exact held
  | ok layout =>
      dsimp only
      by_cases empty : request.size = 0
      · rw [if_pos empty]
        exact held
      · rw [if_neg empty]
        cases accepted : request.accept layout storage with
        | error error => exact held
        | ok scratch =>
            exact SortPlan.maintains_run invariant (permitted layout scratch found accepted)
              watched request.size host held

theorem Accepted.positive (accepted : request.Accepted storage layout scratch) :
    1 ≤ request.blockSize := by
  rw [Nat.one_le_iff_ne_zero]
  intro zero
  have hasRoom := accepted.hasRoom
  rw [accept, if_pos zero] at hasRoom
  cases hasRoom

theorem Accepted.outcome_execute (accepted : request.Accepted storage layout scratch)
    (environment : Environment) (watched : Bool) (host : Host) :
    (request.execute environment watched storage).outcome host =
      ((request.plan scratch).run environment watched request.size).outcome host := by
  rw [SortRequest.outcome_execute, accepted.hasLayout]
  dsimp only
  rw [if_neg accepted.nonempty, accepted.hasRoom]

theorem exists_accepted (nonempty : request.size ≠ 0)
    (succeeds : (request.execute environment watched storage).outcome host = (.ok (), after)) :
    ∃ layout scratch, request.Accepted storage layout scratch := by
  rw [outcome_execute] at succeeds
  cases layoutFound : request.layout with
  | error error =>
      rw [layoutFound] at succeeds
      cases succeeds
  | ok layout =>
      rw [layoutFound] at succeeds
      dsimp only at succeeds
      rw [if_neg nonempty] at succeeds
      cases scratchFound : request.accept layout storage with
      | error error =>
          rw [scratchFound] at succeeds
          cases succeeds
      | ok scratch => exact ⟨layout, scratch, nonempty, layoutFound, scratchFound⟩

theorem Accepted.makes_execute (accepted : request.Accepted storage layout scratch)
    (valid : request.grid.isValid = true) (answers : environment.Answers) (watched : Bool) :
    HostM.Makes environment watched request.grid
      (request.execute environment watched storage) (request.plan scratch).stages := by
  intro host start launches follows quiet
  rw [accepted.outcome_execute]
  exact SortPlan.makes_run valid
    (fun stage member index => answers index _ (answersWorker_of_mem_stages member))
    request.size host start launches follows quiet

theorem Accepted.exists_ending (accepted : request.Accepted storage layout scratch)
    (valid : request.grid.isValid = true) (answers : environment.Answers) {memory : Memory}
    (healthy : host.Settles memory) (watched : Bool) :
    ∃ result after, (request.execute environment watched storage).outcome host =
        (result, after) ∧
      Ending environment watched request.grid host.device.memory host.stream.pending
        host.attempts (request.plan scratch).stages result after :=
  accepted.makes_execute valid answers watched host _ _ healthy.follows
    fun _ => ⟨memory, healthy.completes⟩

theorem Accepted.agree_execute (accepted : request.Accepted storage layout scratch)
    {bound : Nat} (agrees : environment.AgreesBelow bound other)
    (few : host.attempts.size + (request.plan scratch).stages.length ≤ bound) :
    (request.execute environment watched storage).outcome host =
      (request.execute other watched storage).outcome host := by
  rw [accepted.outcome_execute, accepted.outcome_execute]
  exact (SortPlan.agree_run agrees request.size host few).1

end SortRequest

end GridSort
