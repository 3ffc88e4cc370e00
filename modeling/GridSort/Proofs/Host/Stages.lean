import GridSort.Proofs.Host.Steps
import GridSort.Sort.Call

namespace GridSort

/-! How a run of stages can end, in any environment: all stages are launched, or the
first one that is refused or seen to fault is the last one attempted. -/

/-- Each launch has been waited for when the caller looks for an error. -/
def Environment.Waits (environment : Environment) (watched : Bool) : Prop :=
  watched = true ∨ ∀ clock pending, pending ≤ environment.pace clock pending

namespace Stage

/-- The launches that an environment makes of stages, numbered from `index` on. -/
def launches (environment : Environment) (grid : Grid) : Nat → List Stage → List Launch
  | _, [] => []
  | index, stage :: rest =>
      HostM.made environment index stage.kernel grid ::
        launches environment grid (index + 1) rest

def attempts (grid : Grid) (stages : List Stage) : List Attempt :=
  stages.map fun stage => ⟨stage.kernel.name, grid⟩

def Accepted (environment : Environment) : Nat → List Stage → Prop
  | _, [] => True
  | index, stage :: rest =>
      environment.refusal index stage.kernel = none ∧ Accepted environment (index + 1) rest

variable {environment : Environment} {grid : Grid}

@[simp] theorem length_launches (index : Nat) (stages : List Stage) :
    (launches environment grid index stages).length = stages.length := by
  induction stages generalizing index with
  | nil => rfl
  | cons stage rest ih => rw [launches, List.length_cons, List.length_cons, ih]

theorem launches_append (index : Nat) (first second : List Stage) :
    launches environment grid index (first ++ second) =
      launches environment grid index first ++
        launches environment grid (index + first.length) second := by
  induction first generalizing index with
  | nil => rfl
  | cons stage rest ih =>
      rw [List.cons_append, launches, launches, ih, List.cons_append, List.length_cons,
        Nat.add_right_comm, Nat.add_assoc]

theorem launches_take (index count : Nat) (stages : List Stage) :
    launches environment grid index (stages.take count) =
      (launches environment grid index stages).take count := by
  induction stages generalizing index count with
  | nil => rw [List.take_nil, launches, List.take_nil]
  | cons stage rest ih =>
      cases count with
      | zero => rfl
      | succ count => rw [List.take_succ_cons, launches, launches, List.take_succ_cons, ih]

theorem exists_of_getElem?_launches {index count : Nat} {stages : List Stage}
    {launch : Launch} (found : (launches environment grid index stages)[count]? = some launch) :
    ∃ inside : count < stages.length,
      launch = HostM.made environment (index + count) stages[count].kernel grid := by
  induction stages generalizing index count with
  | nil => cases found
  | cons stage rest ih =>
      cases count with
      | zero =>
          cases found
          exact ⟨Nat.zero_lt_succ _, rfl⟩
      | succ count =>
          obtain ⟨inside, made⟩ := ih found
          rw [Nat.add_right_comm] at made
          exact ⟨Nat.succ_lt_succ inside, made⟩

theorem launches_congr {other : Environment} {index : Nat} {stages : List Stage}
    (same : ∀ count, count < stages.length → ∀ kernel,
      HostM.made environment (index + count) kernel grid =
        HostM.made other (index + count) kernel grid) :
    launches environment grid index stages = launches other grid index stages := by
  induction stages generalizing index with
  | nil => rfl
  | cons stage rest ih =>
      have first := same 0 (Nat.zero_lt_succ _) stage.kernel
      rw [Nat.add_zero] at first
      rw [launches, launches, first, ih]
      intro count inside kernel
      have later := same (count + 1) (Nat.succ_lt_succ inside) kernel
      rwa [Nat.add_comm count, ← Nat.add_assoc] at later

theorem attempts_append (first second : List Stage) :
    attempts grid (first ++ second) = attempts grid first ++ attempts grid second :=
  List.map_append

@[simp] theorem length_attempts (stages : List Stage) :
    (attempts grid stages).length = stages.length := List.length_map _

theorem accepted_append (index : Nat) (first second : List Stage) :
    Accepted environment index (first ++ second) ↔
      Accepted environment index first ∧
        Accepted environment (index + first.length) second := by
  induction first generalizing index with
  | nil => simp [Accepted]
  | cons stage rest ih =>
      rw [List.cons_append, Accepted, Accepted, ih, and_assoc, List.length_cons,
        Nat.add_right_comm, Nat.add_assoc]

theorem Accepted.refusal_eq_none {index count : Nat} {stages : List Stage}
    (h : Accepted environment index stages) (inside : count < stages.length) :
    environment.refusal (index + count) stages[count].kernel = none := by
  induction stages generalizing index count with
  | nil => nomatch inside
  | cons stage rest ih =>
      obtain ⟨first, later⟩ := h
      cases count with
      | zero => exact first
      | succ count =>
          have found := ih later (Nat.lt_of_succ_lt_succ inside)
          rwa [Nat.add_right_comm] at found

end Stage

/-- The ways in which a run of stages ends, from a host with these attempts whose stream
follows these launches. -/
inductive Ending (environment : Environment) (watched : Bool) (grid : Grid) (start : Memory)
    (launches : List Launch) (attempts : Array Attempt) (stages : List Stage) :
    Except Failure Unit → Host → Prop
  | finished (host : Host)
      (follows : host.Follows start
        (launches ++ Stage.launches environment grid attempts.size stages))
      (attempted : host.attempts.toList = attempts.toList ++ Stage.attempts grid stages)
      (accepted : Stage.Accepted environment attempts.size stages)
      (quiet : environment.Waits watched → ∃ final, Launch.runAll
        (launches ++ Stage.launches environment grid attempts.size stages) start =
          (none, final)) :
      Ending environment watched grid start launches attempts stages (.ok ()) host
  | refused (front rest : List Stage) (stage : Stage) (host : Host) (error : Failure)
      (split : stages = front ++ stage :: rest)
      (follows : host.Follows start
        (launches ++ Stage.launches environment grid attempts.size front))
      (attempted : host.attempts.toList =
        attempts.toList ++ Stage.attempts grid (front ++ [stage]))
      (refusal : environment.refusal (attempts.size + front.length) stage.kernel =
        some error) :
      Ending environment watched grid start launches attempts stages (.error error) host
  | failed (front rest : List Stage) (stage : Stage) (host : Host) (error : Failure)
      (split : stages = front ++ stage :: rest)
      (follows : host.Follows start
        (launches ++ Stage.launches environment grid attempts.size (front ++ [stage])))
      (attempted : host.attempts.toList =
        attempts.toList ++ Stage.attempts grid (front ++ [stage]))
      (failure : host.stream.failure = some error)
      (quiet : environment.Waits watched → ∃ final, Launch.runAll
        (launches ++ Stage.launches environment grid attempts.size front) start =
          (none, final)) :
      Ending environment watched grid start launches attempts stages (.error error) host

/-- The steps launch the stages one after the other, and stop at the first error. -/
def HostM.Makes (environment : Environment) (watched : Bool) (grid : Grid)
    (steps : HostM Unit) (stages : List Stage) : Prop :=
  ∀ (host : Host) (start : Memory) (launches : List Launch), host.Follows start launches →
    (environment.Waits watched → ∃ middle, Launch.runAll launches start = (none, middle)) →
      ∃ result after, steps.outcome host = (result, after) ∧
        Ending environment watched grid start launches host.attempts stages result after

namespace HostM

def look (environment : Environment) (watched : Bool) (report : Report) : HostM Unit := do
  peek environment
  if watched then
    synchronize environment
    modify (Host.print report)

theorem Retains.look {view : Host → α} {environment : Environment}
    (proceed : ∀ host : Host, view (host.proceed environment) = view host)
    (drain : ∀ host : Host, view host.drain = view host) {report : Report}
    (print : ∀ host : Host, view (host.print report) = view host) (watched : Bool) :
    Retains view (look environment watched report) := by
  refine (Retains.peek proceed).bind fun _ => ?_
  cases watched with
  | false => exact .pure ()
  | true => exact (Retains.synchronize proceed drain).bind fun _ => .change print

theorem Retains.stage (environment : Environment) (watched : Bool) (grid : Grid) (size : Nat)
    (stage : Stage) :
    Retains Host.bytesNeeded (stage.run environment watched grid size) := by
  have launched : Retains Host.bytesNeeded (launch environment stage.kernel grid) :=
    bytesNeeded_launch environment stage.kernel grid
  have looked : Retains Host.bytesNeeded
      (HostM.look environment watched (.stage stage.label size)) :=
    .look (fun _ => rfl) (fun _ => rfl) (fun _ => rfl) watched
  exact launched.bind fun _ => looked

end HostM

namespace HostM.Makes

variable {environment : Environment} {watched : Bool} {grid : Grid}

theorem change {change : Host → Host}
    (follows : ∀ (host : Host) (start : Memory) (launches : List Launch),
      host.Follows start launches → (change host).Follows start launches)
    (attempts : ∀ host, (change host).attempts = host.attempts) :
    Makes environment watched grid (modify change) [] := by
  intro host start launches h quiet
  refine ⟨.ok (), change host, rfl, .finished _ ?_ ?_ trivial ?_⟩
  · rw [Stage.launches, List.append_nil]
    exact follows host start launches h
  · rw [attempts, Stage.attempts, List.map_nil, List.append_nil]
  · rw [Stage.launches, List.append_nil]
    exact quiet

theorem pure : Makes environment watched grid (Pure.pure ()) [] := by
  intro host start launches h quiet
  refine ⟨.ok (), host, rfl, .finished _ ?_ ?_ trivial ?_⟩
  · rwa [Stage.launches, List.append_nil]
  · rw [Stage.attempts, List.map_nil, List.append_nil]
  · rwa [Stage.launches, List.append_nil]

theorem bind {steps next : HostM Unit} {first second : List Stage}
    (hfirst : Makes environment watched grid steps first)
    (hsecond : Makes environment watched grid next second) :
    Makes environment watched grid (steps >>= fun _ => next) (first ++ second) := by
  intro host start launches h quiet
  obtain ⟨result, middle, stepped, ending⟩ := hfirst host start launches h quiet
  cases ending with
  | finished _ follows attempted accepted nowQuiet =>
      obtain ⟨result, after, continued, later⟩ := hsecond middle start _ follows nowQuiet
      have size : middle.attempts.size = host.attempts.size + first.length := by
        rw [← Array.length_toList, attempted, List.length_append, Stage.length_attempts,
          Array.length_toList]
      refine ⟨result, after, (outcome_bind_of_ok stepped _).trans continued, ?_⟩
      cases later with
      | finished _ follows allAttempted allAccepted allQuiet =>
          rw [size, List.append_assoc, ← Stage.launches_append] at follows allQuiet
          rw [size] at allAccepted
          refine .finished _ follows ?_ ((Stage.accepted_append _ _ _).mpr
            ⟨accepted, allAccepted⟩) allQuiet
          rw [allAttempted, attempted, List.append_assoc, ← Stage.attempts_append]
      | refused front rest stage _ error split follows allAttempted refusal =>
          rw [size, List.append_assoc, ← Stage.launches_append] at follows
          refine .refused (first ++ front) rest stage _ error ?_ follows ?_ ?_
          · rw [split, List.append_assoc]
          · rw [allAttempted, attempted, List.append_assoc, ← Stage.attempts_append,
              List.append_assoc]
          · rw [List.length_append, ← Nat.add_assoc, ← size]
            exact refusal
      | failed front rest stage _ error split follows allAttempted failure allQuiet =>
          rw [size, List.append_assoc, ← Stage.launches_append] at follows allQuiet
          refine .failed (first ++ front) rest stage _ error ?_ ?_ ?_ failure allQuiet
          · rw [split, List.append_assoc]
          · rwa [List.append_assoc]
          · rw [allAttempted, attempted, List.append_assoc, ← Stage.attempts_append,
              List.append_assoc]
  | refused front rest stage _ error split follows attempted refusal =>
      refine ⟨.error error, middle, outcome_bind_of_error stepped _,
        .refused front (rest ++ second) stage _ error ?_ follows attempted refusal⟩
      rw [split, List.append_assoc, List.cons_append]
  | failed front rest stage _ error split follows attempted failure nowQuiet =>
      refine ⟨.error error, middle, outcome_bind_of_error stepped _,
        .failed front (rest ++ second) stage _ error ?_ follows attempted failure nowQuiet⟩
      rw [split, List.append_assoc, List.cons_append]

theorem forM {run : Stage → HostM Unit} {stages : List Stage}
    (each : ∀ stage ∈ stages, Makes environment watched grid (run stage) [stage]) :
    Makes environment watched grid (stages.forM run) stages := by
  induction stages with
  | nil => exact pure
  | cons stage rest ih =>
      exact (each stage List.mem_cons_self).bind
        (ih fun later member => each later (List.mem_cons_of_mem _ member))

/-- After a launch, the caller finds the first fault of all, or goes on. Where it looks
and how far the worker is by then depends on the environment. -/
theorem exists_look {host : Host} {start : Memory} {launches : List Launch}
    (h : host.Follows start launches) (report : Report) :
    ∃ result after, (look environment watched report).outcome host = (result, after) ∧
      after.Follows start launches ∧ after.attempts = host.attempts ∧
      (result = .ok () ∧ (environment.Waits watched →
          ∃ final, Launch.runAll launches start = (none, final)) ∨
        ∃ error, result = .error error ∧ after.stream.failure = some error) := by
  have peeked := h.proceed environment
  unfold look
  cases failure : (host.proceed environment).stream.failure with
  | some error =>
      have stopped : (peek environment).outcome host =
          (.error error, host.proceed environment) := by
        rw [outcome_peek, Stream.status, failure]
      exact ⟨.error error, _, outcome_bind_of_error stopped _, peeked, rfl,
        Or.inr ⟨error, rfl, failure⟩⟩
  | none =>
      have passed : (peek environment).outcome host = (.ok (), host.proceed environment) := by
        rw [outcome_peek, Stream.status, failure]
      rw [outcome_bind_of_ok passed]
      cases watched with
      | false =>
          refine ⟨.ok (), _, rfl, peeked, rfl, Or.inl ⟨rfl, fun waits => ?_⟩⟩
          have prompt := waits.resolve_left Bool.false_ne_true
          have rest := peeked.runAll_of_rest (host.pending_proceed environment prompt)
          exact ⟨_, failure ▸ rest⟩
      | true =>
          have waited := (peeked.proceed environment).drain
          have synchronized := outcome_synchronize_of_alive waited.alive
          rw [if_pos rfl]
          cases failure : ((host.proceed environment).proceed
              environment).drain.stream.failure with
          | some error =>
              rw [Stream.status, failure] at synchronized
              exact ⟨.error error, _, outcome_bind_of_error synchronized _, waited, rfl,
                Or.inr ⟨error, rfl, failure⟩⟩
          | none =>
              rw [Stream.status, failure] at synchronized
              have rest := (peeked.proceed environment).runAll_drain
              rw [failure] at rest
              rw [outcome_bind_of_ok synchronized]
              exact ⟨.ok (), _, rfl, waited.print report, rfl,
                Or.inl ⟨rfl, fun _ => ⟨_, rest⟩⟩⟩

theorem stage {stage : Stage} (valid : grid.isValid = true)
    (answers : ∀ index, (environment.disturb index stage.kernel).answersWorker = true)
    (size : Nat) :
    Makes environment watched grid (stage.run environment watched grid size) [stage] := by
  intro host start launches h quiet
  have attempted : (host.attempts.push ⟨stage.kernel.name, grid⟩).toList =
      host.attempts.toList ++ Stage.attempts grid [stage] := Array.toList_push
  rw [Stage.run]
  cases refusal : environment.refusal host.attempts.size stage.kernel with
  | some error =>
      refine ⟨.error error, _, outcome_bind_of_error (outcome_launch_of_refusal refusal) _,
        .refused [] [] stage _ error rfl ?_ attempted refusal⟩
      rw [Stage.launches, List.append_nil]
      exact h.attempt environment stage.kernel grid
  | none =>
      obtain ⟨queued, launched, queuedFollows, queuedAttempts⟩ :=
        exists_launch h refusal valid (answers host.attempts.size)
      obtain ⟨result, after, looked, follows, sameAttempts, found⟩ :=
        exists_look queuedFollows (.stage stage.label size)
      rw [← queuedAttempts, ← sameAttempts] at attempted
      refine ⟨result, after, (outcome_bind_of_ok launched _).trans looked, ?_⟩
      rcases found with ⟨rfl, nowQuiet⟩ | ⟨error, rfl, failure⟩
      · exact .finished _ follows attempted ⟨refusal, trivial⟩ nowQuiet
      · refine .failed [] [] stage _ error rfl follows attempted failure ?_
        rwa [Stage.launches, List.append_nil]

end HostM.Makes

end GridSort
