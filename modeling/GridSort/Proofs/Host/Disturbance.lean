import GridSort.Proofs.Host.Stages

namespace GridSort

/-! Environments that leave a caller alone, and the two ways to disturb one launch: it is
refused, or one of its groups faults. -/

/-- The same kernel, but the given group does something else. -/
def Kernel.replacing (kernel : Kernel) (id : Nat) (program : Program Unit) : Kernel :=
  { kernel with run := fun group => if group.id = id then program else kernel.run group }

/-- Whatever a program finds, it ends with the fault. -/
def Program.Faults (program : Program α) (fault : Fault) : Prop :=
  ∀ memory, (program.run memory).1 = .error fault

namespace Environment

/-- No launch is refused or changed, and each group of a launch runs once. -/
structure Calm (environment : Environment) : Prop where
  refusal : ∀ index kernel, environment.refusal index kernel = none
  disturb : ∀ index kernel, environment.disturb index kernel = kernel
  order : ∀ index groups, (environment.order index groups).Perm (List.range groups)

theorem calm_prompt : prompt.Calm :=
  ⟨fun _ _ => rfl, fun _ _ => rfl, fun _ _ => List.Perm.refl _⟩

theorem calm_lazy : lazy.Calm :=
  ⟨fun _ _ => rfl, fun _ _ => rfl, fun _ _ => List.Perm.refl _⟩

/-- The worker is left with a name for each kernel that has one. -/
def Answers (environment : Environment) : Prop :=
  ∀ index kernel, kernel.answersWorker = true →
    (environment.disturb index kernel).answersWorker = true

theorem Calm.answers {environment : Environment} (calm : environment.Calm) :
    environment.Answers := by
  intro index kernel answers
  rwa [calm.disturb]

def refusing (environment : Environment) (index : Nat) (error : Failure) : Environment :=
  { environment with refusal := fun other _ => if other = index then some error else none }

theorem refusal_refusing (environment : Environment) (index other : Nat) (error : Failure)
    (kernel : Kernel) :
    (environment.refusing index error).refusal other kernel =
      if other = index then some error else none := rfl

theorem Answers.refusing {environment : Environment} (answers : environment.Answers)
    (index : Nat) (error : Failure) : (environment.refusing index error).Answers := answers

def breaking (environment : Environment) (index id : Nat) (program : Program Unit) :
    Environment :=
  { environment with
    disturb := fun other kernel =>
      if other = index then kernel.replacing id program else kernel }

theorem disturb_breaking (environment : Environment) (index id other : Nat)
    (program : Program Unit) (kernel : Kernel) :
    (environment.breaking index id program).disturb other kernel =
      if other = index then kernel.replacing id program else kernel := rfl

theorem Answers.breaking {environment : Environment} (index id : Nat)
    (program : Program Unit) : (environment.breaking index id program).Answers := by
  intro other kernel answers
  rw [disturb_breaking]
  split
  · exact answers
  · exact answers

end Environment

namespace Launch

variable {kernel : Kernel} {grid : Grid} {id : Nat} {program : Program Unit} {fault : Fault}

theorem runGroups_replacing_of_not_mem {order : List Nat} (absent : id ∉ order)
    (memory : Memory) :
    runGroups (kernel.replacing id program) grid order memory =
      runGroups kernel grid order memory := by
  induction order generalizing memory with
  | nil => rfl
  | cons first rest ih =>
      obtain ⟨other, later⟩ := List.ne_and_not_mem_of_not_mem_cons absent
      have same : (kernel.replacing id program).run ⟨first, grid⟩ = kernel.run ⟨first, grid⟩ :=
        if_neg (Ne.symm other)
      rw [runGroups, runGroups, same]
      cases (kernel.run ⟨first, grid⟩).run memory with
      | mk result after =>
          cases result with
          | ok _ => exact ih later after
          | error _ => rfl

theorem runGroups_replacing (faults : program.Faults fault) {order : List Nat}
    (present : id ∈ order) {memory final : Memory}
    (completes : runGroups kernel grid order memory = (none, final)) :
    ∃ partially, runGroups (kernel.replacing id program) grid order memory =
      (some fault, partially) := by
  induction order generalizing memory with
  | nil => nomatch present
  | cons first rest ih =>
      rw [runGroups] at completes ⊢
      by_cases same : first = id
      · have replaced : (kernel.replacing id program).run ⟨first, grid⟩ = program :=
          if_pos same
        have faulted := faults memory
        rw [replaced]
        cases found : program.run memory with
        | mk result after =>
            rw [found] at faulted
            cases faulted
            exact ⟨after, rfl⟩
      · have kept : (kernel.replacing id program).run ⟨first, grid⟩ =
            kernel.run ⟨first, grid⟩ := if_neg same
        rw [kept]
        cases found : (kernel.run ⟨first, grid⟩).run memory with
        | mk result after =>
            rw [found] at completes
            cases result with
            | ok _ =>
                exact ih ((List.mem_cons.mp present).resolve_left (Ne.symm same)) completes
            | error _ => cases completes

end Launch

/-! Two environments that differ in later launches only are the same for a caller who
makes none of these. -/

structure Environment.AgreesBelow (bound : Nat) (environment other : Environment) : Prop where
  pace : environment.pace = other.pace
  order : environment.order = other.order
  refusal : ∀ index, index < bound → environment.refusal index = other.refusal index
  disturb : ∀ index, index < bound → environment.disturb index = other.disturb index

namespace HostM

/-- The steps attempt no more than `count` launches, and give the same as the others. -/
def Agree (bound count : Nat) (steps others : HostM Unit) : Prop :=
  ∀ host, host.attempts.size + count ≤ bound →
    steps.outcome host = others.outcome host ∧
      (steps.outcome host).2.attempts.size ≤ host.attempts.size + count

variable {bound : Nat} {environment other : Environment}

theorem Agree.of_eq {steps others : HostM Unit} (same : steps = others)
    (quiet : ∀ host, (steps.outcome host).2.attempts = host.attempts) :
    Agree bound 0 steps others := by
  intro host _
  rw [same, ← same, quiet]
  exact ⟨rfl, Nat.le_refl _⟩

theorem Agree.bind {steps others next otherNext : HostM Unit} {first second : Nat}
    (hfirst : Agree bound first steps others) (hsecond : Agree bound second next otherNext) :
    Agree bound (first + second) (steps >>= fun _ => next)
      (others >>= fun _ => otherNext) := by
  intro host within
  obtain ⟨same, few⟩ := hfirst host (by omega)
  rw [outcome_bind, outcome_bind, ← same]
  cases found : steps.outcome host with
  | mk result middle =>
      rw [found] at few
      cases result with
      | ok value =>
          obtain ⟨sameLater, fewLater⟩ := hsecond middle (by
            dsimp only at few
            omega)
          refine ⟨sameLater, Nat.le_trans fewLater ?_⟩
          dsimp only at few
          omega
      | error error =>
          refine ⟨rfl, Nat.le_trans few ?_⟩
          omega

theorem Agree.forM {run otherRun : Stage → HostM Unit}
    (each : ∀ stage, Agree bound 1 (run stage) (otherRun stage)) (stages : List Stage) :
    Agree bound stages.length (stages.forM run) (stages.forM otherRun) := by
  induction stages with
  | nil => exact .of_eq rfl fun _ => rfl
  | cons stage rest ih =>
      rw [List.length_cons, Nat.add_comm]
      exact (each stage).bind ih

theorem Agree.launch (agrees : environment.AgreesBelow bound other) (kernel : Kernel)
    (grid : Grid) :
    Agree bound 1 (launch environment kernel grid) (launch other kernel grid) := by
  intro host within
  obtain ⟨refusal, disturb, order, pace⟩ := environment
  obtain ⟨otherRefusal, otherDisturb, otherOrder, otherPace⟩ := other
  obtain ⟨rfl, rfl, sameRefusal, sameDisturb⟩ := agrees
  rw [attempts_launch, Array.size_push]
  refine ⟨?_, Nat.le_refl _⟩
  have refused := congrFun (sameRefusal host.attempts.size within) kernel
  have disturbed := congrFun (sameDisturb host.attempts.size within) kernel
  dsimp only at refused disturbed
  rw [outcome_launch, outcome_launch]
  dsimp only
  rw [refused, disturbed]
  rfl

theorem Agree.stage (agrees : environment.AgreesBelow bound other) (watched : Bool)
    (grid : Grid) (size : Nat) (stage : Stage) :
    Agree bound 1 (stage.run environment watched grid size)
      (stage.run other watched grid size) := by
  have launched := Agree.launch agrees stage.kernel grid
  obtain ⟨refusal, disturb, order, pace⟩ := environment
  obtain ⟨otherRefusal, otherDisturb, otherOrder, otherPace⟩ := other
  obtain ⟨rfl, rfl, -, -⟩ := agrees
  have looked : Agree bound 0
      (look ⟨refusal, disturb, order, pace⟩ watched (.stage stage.label size))
      (look ⟨otherRefusal, otherDisturb, order, pace⟩ watched (.stage stage.label size)) :=
    .of_eq rfl (Retains.look (fun _ => rfl) (fun _ => rfl) (fun _ => rfl) watched)
  exact launched.bind looked

end HostM

namespace Environment

theorem agreesBelow_refusing (environment : Environment) (index : Nat) (error : Failure)
    (calm : environment.Calm) :
    (environment.refusing index error).AgreesBelow index environment := by
  refine ⟨rfl, rfl, fun other below => ?_, fun _ _ => rfl⟩
  funext kernel
  rw [calm.refusal]
  exact if_neg (Nat.ne_of_lt below)

theorem agreesBelow_breaking (environment : Environment) (index id : Nat)
    (program : Program Unit) (calm : environment.Calm) :
    (environment.breaking index id program).AgreesBelow index environment := by
  refine ⟨rfl, rfl, fun _ _ => rfl, fun other below => ?_⟩
  funext kernel
  rw [calm.disturb]
  exact if_neg (Nat.ne_of_lt below)

end Environment

end GridSort
