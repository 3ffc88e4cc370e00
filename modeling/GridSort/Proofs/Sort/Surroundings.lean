import GridSort.Proofs.Sort.Execute

namespace GridSort

/-! A sort on a stream of any kind. It asks for launches, for the error so far and for a wait,
prints, and logs; what becomes of that is the business of the stream that it is given. -/

/-- The line that a sort logs when its merge passes are queued. -/
def queuedLine (size passes : Nat) : LogLine :=
  ⟨.debug, s!"sort of {size} elements queued with {passes} merge passes"⟩

structure Surroundings (σ : Type) where
  launch : Kernel → Grid → ExceptT Failure (StateM σ) Unit
  peek : ExceptT Failure (StateM σ) Unit
  synchronize : ExceptT Failure (StateM σ) Unit
  print : Report → ExceptT Failure (StateM σ) Unit
  note : Level → String → ExceptT Failure (StateM σ) Unit

namespace Surroundings

variable {σ : Type} {keyType valueType : ElementType}

/-- A host and its stream, in an environment. -/
def ofHost (environment : Environment) : Surroundings Host where
  launch := HostM.launch environment
  peek := HostM.peek environment
  synchronize := HostM.synchronize environment
  print report := modify (Host.print report)
  note level text := modify (Host.note level text)

def stage (on : Surroundings σ) (watched : Bool) (grid : Grid) (size : Nat) (stage : Stage) :
    ExceptT Failure (StateM σ) Unit := do
  on.launch stage.kernel grid
  on.peek
  if watched then
    on.synchronize
    on.print (.stage stage.label size)

def plan (on : Surroundings σ) (watched : Bool) (size : Nat) (plan : SortPlan) :
    ExceptT Failure (StateM σ) Unit := do
  if watched then
    on.print (.blockSize plan.grid.lanes)
    on.print (.blockCount plan.grid.groups)
  (plan.tileSort :: plan.passes).forM (on.stage watched plan.grid size)
  let passes := plan.passCount
  on.note .debug s!"sort of {size} elements queued with {passes} merge passes"
  plan.copyBack.toList.forM (on.stage watched plan.grid size)

def execute (on : Surroundings σ) (watched : Bool) (request : SortRequest keyType valueType)
    (storage : Buffer .byte) : ExceptT Failure (StateM σ) Unit := do
  let layout ← request.layout
  if request.size = 0 then
    pure ()
  else
    let scratch ← request.accept layout storage
    on.plan watched request.size (request.plan scratch)

/-- The sort of a host is the sort on its stream. -/
theorem execute_ofHost (environment : Environment) (watched : Bool)
    (request : SortRequest keyType valueType) (storage : Buffer .byte) :
    (ofHost environment).execute watched request storage =
      request.execute environment watched storage := rfl

/-- The steps succeed, and in the end these launches have been made and these lines logged. -/
def Adds (launched : σ → List (Kernel × Grid)) (logged : σ → List LogLine)
    (steps : ExceptT Failure (StateM σ) Unit) (launches : List (Kernel × Grid))
    (lines : List LogLine) : Prop :=
  ∀ state, ∃ after, steps.run.run state = (.ok (), after) ∧
    launched after = launched state ++ launches ∧ logged after = logged state ++ lines

/-- Every launch is taken and completes, and nothing ever goes wrong. -/
structure Accepts (on : Surroundings σ) (launched : σ → List (Kernel × Grid))
    (logged : σ → List LogLine) : Prop where
  launch : ∀ kernel grid, Adds launched logged (on.launch kernel grid) [(kernel, grid)] []
  peek : Adds launched logged on.peek [] []
  synchronize : Adds launched logged on.synchronize [] []
  print : ∀ report, Adds launched logged (on.print report) [] []
  note : ∀ level text, Adds launched logged (on.note level text) [] [⟨level, text⟩]

variable {launched : σ → List (Kernel × Grid)} {logged : σ → List LogLine}
  {steps : ExceptT Failure (StateM σ) Unit} {launches later : List (Kernel × Grid)}
  {lines linesLater : List LogLine}

theorem Adds.pure : Adds launched logged (Pure.pure ()) [] [] :=
  fun state => ⟨state, rfl, by simp⟩

theorem Adds.bind {next : ExceptT Failure (StateM σ) Unit}
    (first : Adds launched logged steps launches lines)
    (second : Adds launched logged next later linesLater) :
    Adds launched logged (steps >>= fun _ => next) (launches ++ later)
      (lines ++ linesLater) := by
  intro state
  obtain ⟨middle, ran, made, noted⟩ := first state
  obtain ⟨after, ranLater, madeLater, notedLater⟩ := second middle
  refine ⟨after, ?_, by simp [madeLater, made], by simp [notedLater, noted]⟩
  rw [ExceptT.run_bind, StateT.run_bind, ran]
  exact ranLater

theorem Adds.lift_bind {α : Type} {result : Except Failure α} {value : α}
    {next : α → ExceptT Failure (StateM σ) Unit} (h : result = .ok value)
    (second : Adds launched logged (next value) launches lines) :
    Adds launched logged ((liftM result : ExceptT Failure (StateM σ) α) >>= next) launches
      lines := by
  subst h
  exact second

section Calls

variable {on : Surroundings σ} (accepts : on.Accepts launched logged) (watched : Bool)
include accepts

theorem Accepts.stage (grid : Grid) (size : Nat) (stage : Stage) :
    Adds launched logged (on.stage watched grid size stage) [(stage.kernel, grid)] [] := by
  have made := accepts.launch stage.kernel grid
  cases watched with
  | false => exact made.bind (accepts.peek.bind .pure)
  | true => exact made.bind (accepts.peek.bind (accepts.synchronize.bind (accepts.print _)))

theorem Accepts.stages (grid : Grid) (size : Nat) (stages : List Stage) :
    Adds launched logged (stages.forM (on.stage watched grid size))
      (stages.map fun stage => (stage.kernel, grid)) [] := by
  induction stages with
  | nil => exact .pure
  | cons stage rest ih => exact (accepts.stage watched grid size stage).bind ih

theorem Accepts.plan (size : Nat) (plan : SortPlan) :
    Adds launched logged (on.plan watched size plan)
      (plan.stages.map fun stage => (stage.kernel, plan.grid))
      [queuedLine size plan.passCount] := by
  have front := accepts.stages watched plan.grid size (plan.tileSort :: plan.passes)
  have back := accepts.stages watched plan.grid size plan.copyBack.toList
  have noted := accepts.note .debug (queuedLine size plan.passCount).text
  have queued := front.bind (noted.bind back)
  rw [SortPlan.stages, List.map_append]
  cases watched with
  | false => exact queued
  | true => exact (accepts.print _).bind ((accepts.print _).bind queued)

theorem Accepts.execute {request : SortRequest keyType valueType} {storage : Buffer .byte}
    {layout : Layout} {scratch : Pairs keyType valueType}
    (accepted : request.Accepted storage layout scratch) :
    Adds launched logged (on.execute watched request storage)
      ((request.plan scratch).stages.map fun stage => (stage.kernel, request.grid))
      [queuedLine request.size request.passCount] := by
  have made := accepts.plan watched request.size (request.plan scratch)
  rw [SortRequest.passCount_plan] at made
  refine .lift_bind accepted.hasLayout ?_
  rw [if_neg accepted.nonempty]
  exact .lift_bind accepted.hasRoom made

end Calls

/-- A stream that does no more than to take note of what it is asked. -/
def recorder : Surroundings (List (Kernel × Grid) × List LogLine) where
  launch kernel grid := modify fun (launches, lines) => (launches ++ [(kernel, grid)], lines)
  peek := pure ()
  synchronize := pure ()
  print _ := pure ()
  note level text := modify fun (launches, lines) => (launches, lines ++ [⟨level, text⟩])

theorem accepts_recorder : recorder.Accepts Prod.fst Prod.snd where
  launch _ _ _ := ⟨_, rfl, rfl, by simp⟩
  peek := .pure
  synchronize := .pure
  print _ := .pure
  note _ _ _ := ⟨_, rfl, by simp, rfl⟩

end Surroundings

end GridSort
