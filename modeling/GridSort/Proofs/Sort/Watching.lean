import GridSort.Proofs.Host.Matching
import GridSort.Proofs.Sort.Passes

namespace GridSort

/-! A call that is watched. It comes to the same as one that is not, and prints one line for
each stage that it has seen to the end. -/

/-- What is printed of stages that have been seen to the end. -/
def Stage.lines (size : Nat) (stages : List Stage) : List Report :=
  stages.map fun stage => .stage stage.label size

theorem Stage.lines_append (size : Nat) (first second : List Stage) :
    lines size (first ++ second) = lines size first ++ lines size second := List.map_append

/-- What has been attempted and printed when a watched run of stages ends. The stage at which
it stops has been attempted, and has no line. -/
inductive Progress (grid : Grid) (size : Nat) (host : Host) (stages : List Stage) :
    Except Failure Unit → Host → Prop
  | finished (after : Host)
      (attempted : after.attempts.toList = host.attempts.toList ++ Stage.attempts grid stages)
      (printed : after.printed.toList = host.printed.toList ++ Stage.lines size stages) :
      Progress grid size host stages (.ok ()) after
  | stopped (done rest : List Stage) (stage : Stage) (after : Host) (error : Failure)
      (split : stages = done ++ stage :: rest)
      (attempted : after.attempts.toList =
        host.attempts.toList ++ Stage.attempts grid (done ++ [stage]))
      (printed : after.printed.toList = host.printed.toList ++ Stage.lines size done) :
      Progress grid size host stages (.error error) after

/-- The stages that were attempted and those that were seen to the end, by their number. -/
theorem Progress.exists_counts {grid : Grid} {size : Nat} {host after : Host}
    {stages : List Stage} {result : Except Failure Unit}
    (h : Progress grid size host stages result after) :
    ∃ made completed, made ≤ stages.length ∧
      after.attempts.toList =
        host.attempts.toList ++ (Stage.attempts grid stages).take made ∧
      after.printed.toList =
        host.printed.toList ++ (Stage.lines size stages).take completed ∧
      (result = .ok () ∧ made = stages.length ∧ completed = made ∨
        ∃ error, result = .error error ∧ made = completed + 1) := by
  cases h with
  | finished _ attempted printed =>
      refine ⟨stages.length, stages.length, Nat.le_refl _, ?_, ?_, Or.inl ⟨rfl, rfl, rfl⟩⟩
      · rw [attempted, ← Stage.length_attempts, List.take_length]
      · rw [printed, Stage.lines, ← List.map_take, List.take_length]
  | stopped done rest stage _ error split attempted printed =>
      subst split
      refine ⟨done.length + 1, done.length, by simp, ?_, ?_, Or.inr ⟨error, rfl, rfl⟩⟩
      · rw [attempted, Stage.attempts, Stage.attempts, ← List.map_take, List.take_append]
        simp
      · rw [printed, Stage.lines_append, Stage.lines, ← List.length_map, List.take_left]

namespace HostM

/-- Wherever they start from, the steps progress through the stages. -/
def Progresses (grid : Grid) (size : Nat) (steps : HostM Unit) (stages : List Stage) : Prop :=
  ∀ host, Progress grid size host stages (steps.outcome host).1 (steps.outcome host).2

theorem retains_printed_launch (environment : Environment) (kernel : Kernel) (grid : Grid) :
    Retains Host.printed (launch environment kernel grid) := by
  intro host
  rcases host_launch environment kernel grid host with same | ⟨launch, same | same⟩
  all_goals
    rw [same]
    rfl

/-- A caller who watches is shown a line, or an error. -/
theorem exists_watched_look (environment : Environment) (report : Report) (host : Host) :
    ∃ result after, (look environment true report).outcome host = (result, after) ∧
      after.attempts = host.attempts ∧
      (result = .ok () ∧ after.printed = host.printed.push report ∨
        ∃ error, result = .error error ∧ after.printed = host.printed) := by
  unfold look
  have peeked : (peek environment).outcome host = _ := outcome_peek host
  cases status : (host.proceed environment).stream.status with
  | error error =>
      rw [status] at peeked
      exact ⟨_, _, outcome_bind_of_error peeked _, rfl, Or.inr ⟨error, rfl, rfl⟩⟩
  | ok value =>
      rw [status] at peeked
      rw [outcome_bind_of_ok peeked, if_pos rfl]
      have waited := host_synchronize environment (host.proceed environment)
      cases synchronized : (synchronize environment).outcome (host.proceed environment) with
      | mk result rested =>
          rw [synchronized] at waited
          subst waited
          cases result with
          | error error =>
              exact ⟨_, _, outcome_bind_of_error synchronized _, rfl, Or.inr ⟨error, rfl, rfl⟩⟩
          | ok value =>
              exact ⟨_, _, outcome_bind_of_ok synchronized _, rfl, Or.inl ⟨rfl, rfl⟩⟩

namespace Progresses

variable {grid : Grid} {size : Nat} {steps next : HostM Unit} {first second : List Stage}

theorem change {change : Host → Host} (attempts : ∀ host, (change host).attempts = host.attempts)
    (printed : ∀ host, (change host).printed = host.printed) :
    Progresses grid size (modify change) [] := by
  intro host
  refine .finished _ ?_ ?_
  · exact (congrArg Array.toList (attempts host)).trans (List.append_nil _).symm
  · exact (congrArg Array.toList (printed host)).trans (List.append_nil _).symm

theorem bind (hfirst : Progresses grid size steps first)
    (hsecond : Progresses grid size next second) :
    Progresses grid size (steps >>= fun _ => next) (first ++ second) := by
  intro host
  have begun := hfirst host
  rw [outcome_bind]
  cases found : steps.outcome host with
  | mk result middle =>
      rw [found] at begun
      cases begun with
      | stopped done rest stage _ error split attempted printed =>
          refine .stopped done (rest ++ second) stage _ error ?_ attempted printed
          rw [split, List.append_assoc, List.cons_append]
      | finished _ attempted printed =>
          dsimp only at attempted printed ⊢
          have ended := hsecond middle
          generalize next.outcome middle = reached at ended ⊢
          obtain ⟨result, after⟩ := reached
          cases ended with
          | finished _ allAttempted allPrinted =>
              refine .finished _ ?_ ?_
              · rw [allAttempted, attempted, List.append_assoc, ← Stage.attempts_append]
              · rw [allPrinted, printed, List.append_assoc, ← Stage.lines_append]
          | stopped done rest stage _ error split allAttempted allPrinted =>
              refine .stopped (first ++ done) rest stage _ error ?_ ?_ ?_
              · rw [split, List.append_assoc]
              · rw [allAttempted, attempted, List.append_assoc, ← Stage.attempts_append,
                  List.append_assoc]
              · rw [allPrinted, printed, List.append_assoc, ← Stage.lines_append]

theorem forM {run : Stage → HostM Unit}
    (each : ∀ stage, Progresses grid size (run stage) [stage]) (stages : List Stage) :
    Progresses grid size (stages.forM run) stages := by
  induction stages with
  | nil => exact fun host => .finished host (List.append_nil _).symm (List.append_nil _).symm
  | cons stage rest ih => exact (each stage).bind ih

theorem stage (environment : Environment) (stage : Stage) :
    Progresses grid size (stage.run environment true grid size) [stage] := by
  intro host
  have attempts := attempts_launch environment stage.kernel grid host
  have printed := retains_printed_launch environment stage.kernel grid host
  rw [Stage.run]
  cases found : (launch environment stage.kernel grid).outcome host with
  | mk result launched =>
      rw [found] at attempts printed
      dsimp only at attempts printed
      have attempted : launched.attempts.toList =
          host.attempts.toList ++ Stage.attempts grid [stage] := by
        rw [attempts]
        exact Array.toList_push
      cases result with
      | error error =>
          rw [outcome_bind_of_error found]
          refine .stopped [] [] stage _ error rfl attempted ?_
          rw [printed]
          exact (List.append_nil _).symm
      | ok value =>
          rw [outcome_bind_of_ok found]
          obtain ⟨result, after, outcome, kept, shown⟩ :=
            exists_watched_look environment (.stage stage.label size) launched
          change Progress grid size host [stage]
            ((look environment true (.stage stage.label size)).outcome launched).1
            ((look environment true (.stage stage.label size)).outcome launched).2
          rw [outcome]
          rw [← kept] at attempted
          rcases shown with ⟨rfl, line⟩ | ⟨error, rfl, nothing⟩
          · refine .finished _ attempted ?_
            rw [line, printed]
            exact Array.toList_push
          · refine .stopped [] [] stage _ error rfl attempted ?_
            rw [nothing, printed]
            exact (List.append_nil _).symm

end Progresses

end HostM

namespace SortPlan

variable {environment : Environment} {plan : SortPlan}

theorem progress_run (environment : Environment) (plan : SortPlan) (size : Nat) (host : Host) :
    Progress plan.grid size (host.announce true plan.grid) plan.stages
      ((plan.run environment true size).outcome host).1
      ((plan.run environment true size).outcome host).2 := by
  have noted : ∀ text, HostM.Progresses plan.grid size (modify (Host.note .debug text)) [] :=
    fun text => .change (fun _ => rfl) fun _ => rfl
  have each : ∀ stage, HostM.Progresses plan.grid size
      (stage.run environment true plan.grid size) [stage] := .stage environment
  have made := fun text => (HostM.Progresses.forM each (plan.tileSort :: plan.passes)).bind
    ((noted text).bind (.forM each plan.copyBack.toList))
  exact made _ (host.announce true plan.grid)

theorem retains_printed_run (environment : Environment) (plan : SortPlan) (size : Nat) :
    HostM.Retains Host.printed (plan.run environment false size) := by
  refine holds_run HostM.Retains.composes (fun watched => absurd watched Bool.false_ne_true)
    (fun _ => .change fun _ => rfl) fun stage _ => ?_
  exact (HostM.retains_printed_launch environment stage.kernel plan.grid).bind fun _ =>
    (HostM.Retains.peek fun _ => rfl).bind fun _ => .pure ()

theorem matched_run (prompt : environment.Waits false)
    (answers : ∀ stage ∈ plan.stages, ∀ index,
      (environment.disturb index stage.kernel).answersWorker = true) (size : Nat) :
    HostM.Matched (plan.run environment true size) (plan.run environment false size) := by
  have begun : HostM.Matched
      ((plan.tileSort :: plan.passes).forM (Stage.run environment true plan.grid size))
      ((plan.tileSort :: plan.passes).forM (Stage.run environment false plan.grid size)) :=
    .forM fun stage member => HostM.matched_stage prompt
      (answers stage (List.mem_append_left _ member)) plan.grid size
  have ended : HostM.Matched
      (plan.copyBack.toList.forM (Stage.run environment true plan.grid size))
      (plan.copyBack.toList.forM (Stage.run environment false plan.grid size)) :=
    .forM fun stage member => HostM.matched_stage prompt
      (answers stage (List.mem_append_right _ member)) plan.grid size
  exact ((begun.bind ((HostM.Matched.note _ _).bind ended)).print_bind _).print_bind _

end SortPlan

/-- The labels of the stages of a sort with this many merge passes. -/
def stageLabels (passes : Nat) : List String :=
  "group_sort" ::
      (List.range passes).map (fun pass =>
        if pass % 2 = 0 then "merge_into_scratch" else "merge_into_output") ++
    if passes % 2 = 0 then [] else ["copy_back"]

namespace SortRequest

variable {keyType valueType : ElementType} {request : SortRequest keyType valueType}
  {scratch : Pairs keyType valueType} {storage : Buffer .byte} {environment : Environment}

/-- What a watched call prints once it has come to its first launch. -/
def transcript (request : SortRequest keyType valueType) (completed : Nat) : List Report :=
  .blockSize request.blockSize ::
    .blockCount (Size.ceilDiv request.size request.blockSize) ::
      ((stageLabels request.passCount).take completed).map (.stage · request.size)

/-- The same as text. Each line has a time of its own, which only the lines of stages show. -/
def texts (request : SortRequest keyType valueType) (elapsed : Nat → String)
    (completed : Nat) : List String :=
  let lanes := request.blockSize
  let groups := Size.ceilDiv request.size request.blockSize
  s!"block_size {lanes}" :: s!"number of blocks {groups}" ::
    ((stageLabels request.passCount).take completed).mapIdx fun index label =>
      let size := request.size
      let time := elapsed (index + 2)
      s!"{label}({size}) {time} ms"

theorem text_transcript (request : SortRequest keyType valueType) (elapsed : Nat → String)
    (completed : Nat) :
    (request.transcript completed).mapIdx (fun index line => line.text (elapsed index)) =
      request.texts elapsed completed := by
  rw [transcript, List.mapIdx_cons, List.mapIdx_cons]
  refine congrArg₂ List.cons rfl (congrArg₂ List.cons rfl ?_)
  apply List.ext_getElem
  · simp
  · intro index _ _
    rw [List.getElem_mapIdx, List.getElem_map, List.getElem_mapIdx, Nat.add_assoc]
    rfl

theorem labels_stages :
    (request.plan scratch).stages.map Stage.label = stageLabels request.passCount := by
  have merges : (request.passWidths.mapIdx (request.mergePass scratch)).map Stage.label =
      (List.range request.passCount).map fun pass =>
        if pass % 2 = 0 then "merge_into_scratch" else "merge_into_output" := by
    apply List.ext_getElem
    · simp [passCount]
    · simp [mergePass]
  rw [stages_plan, List.map_append, List.map_cons, stageLabels, ← merges]
  by_cases even : request.passCount % 2 = 0
  · rw [if_pos even]
    exact congrArg _ (if_pos even).symm
  · rw [if_neg even]
    exact congrArg _ (if_neg even).symm

/-- What a watched call has attempted and printed: two lines when it comes to its first
launch, and then one for each stage, but none for the stage at which it stops. -/
structure Shows (request : SortRequest keyType valueType) (host : Host)
    (result : Except Failure Unit) (after : Host) (made completed : Nat) : Prop where
  within : made ≤ (scheduled request.size request.blockSize).length
  attempted : after.attempts.toList =
    host.attempts.toList ++ (scheduled request.size request.blockSize).take made
  silent : made = 0 → after.printed = host.printed
  printed : 0 < made →
    after.printed.toList = host.printed.toList ++ request.transcript completed
  texts : ∀ elapsed : Nat → String,
    (request.transcript completed).mapIdx (fun index line => line.text (elapsed index)) =
      request.texts elapsed completed
  succeeded : result = .ok () →
    made = (scheduled request.size request.blockSize).length ∧ completed = made
  stopped : ∀ error, result = .error error → 0 < made → made = completed + 1

theorem shows_of_silent {host : Host} {result : Except Failure Unit}
    (finished : result = .ok () → request.size = 0) : request.Shows host result host 0 0 where
  within := Nat.zero_le _
  attempted := (List.append_nil _).symm
  silent _ := rfl
  printed made := absurd made (Nat.lt_irrefl 0)
  texts elapsed := text_transcript request elapsed 0
  succeeded ok := ⟨by rw [scheduled, if_pos (finished ok), List.length_nil], rfl⟩
  stopped _ _ made := absurd made (Nat.lt_irrefl 0)

theorem exists_shows_of_progress {host after : Host} {result : Except Failure Unit}
    (nonempty : request.size ≠ 0)
    (progress : Progress request.grid request.size (host.announce true request.grid)
      (request.plan scratch).stages result after) :
    ∃ made completed, request.Shows host result after made completed := by
  obtain ⟨made, completed, within, attempted, printed, ended⟩ := progress.exists_counts
  have lines : Stage.lines request.size (request.plan scratch).stages =
      (stageLabels request.passCount).map (.stage · request.size) := by
    rw [Stage.lines, ← labels_stages, List.map_map]
    rfl
  have scheduledLength : (scheduled request.size request.blockSize).length =
      (request.plan scratch).stages.length := by
    rw [← attempts_stages nonempty, Stage.length_attempts]
  have positive : 0 < made := by
    rcases ended with ⟨-, whole, -⟩ | ⟨error, -, next⟩
    · rw [whole, length_stages_plan]
      omega
    · omega
  refine ⟨made, completed, ?_, ?_, ?_, fun _ => ?_, fun elapsed => ?_, ?_, ?_⟩
  · rw [scheduledLength]
    exact within
  · rw [attempted, attempts_stages nonempty]
    rfl
  · exact fun none => absurd none (Nat.ne_of_gt positive)
  · rw [printed, lines, ← List.map_take]
    simp [Host.announce, Host.print, transcript, grid]
  · exact text_transcript request elapsed completed
  · rintro rfl
    rcases ended with ⟨-, whole, same⟩ | ⟨error, other, -⟩
    · exact ⟨whole.trans scheduledLength.symm, same⟩
    · cases other
  · rintro error rfl -
    rcases ended with ⟨other, -, -⟩ | ⟨error, -, next⟩
    · cases other
    · exact next

theorem exists_watched_of_accepted {layout : Layout}
    (accepted : request.Accepted storage layout scratch) (prompt : environment.Waits false)
    (answers : environment.Answers) (host : Host) :
    ∃ result quiet after made completed,
      ((request.plan scratch).run environment false request.size).outcome host =
          (result, quiet) ∧
        ((request.plan scratch).run environment true request.size).outcome host =
          (result, after) ∧
        after.Matches quiet ∧ quiet.printed = host.printed ∧
        request.Shows host result after made completed := by
  have answered : ∀ stage ∈ (request.plan scratch).stages, ∀ index,
      (environment.disturb index stage.kernel).answersWorker = true :=
    fun stage member index => answers index _ (answersWorker_of_mem_stages member)
  have matched := SortPlan.matched_run prompt answered request.size host host (.refl host)
  have silent := SortPlan.retains_printed_run environment (request.plan scratch)
    request.size host
  have progress := SortPlan.progress_run environment (request.plan scratch) request.size host
  cases ran : ((request.plan scratch).run environment false request.size).outcome host with
  | mk result quiet =>
      cases watched : ((request.plan scratch).run environment true request.size).outcome host with
      | mk watchedResult after =>
          rw [ran, watched] at matched
          rw [ran] at silent
          rw [watched] at progress
          obtain ⟨rfl, same⟩ := matched
          obtain ⟨made, completed, shows⟩ :=
            exists_shows_of_progress accepted.nonempty progress
          exact ⟨_, _, _, made, completed, rfl, rfl, same, silent, shows⟩

/-- Whether a call is watched makes no difference to its result, its launches and what they
leave in memory, if each launch is done before the caller's next step. A call that is not
watched prints nothing. One that is watched prints its block size and the number of blocks when
it comes to its first launch, and then a line for each stage that has succeeded. -/
theorem watching_only_prints (prompt : environment.Waits false)
    (answers : environment.Answers) (request : SortRequest keyType valueType)
    (storage : Buffer .byte) (host : Host) :
    ∃ result quiet after made completed,
      (request.execute environment false storage).outcome host = (result, quiet) ∧
        (request.execute environment true storage).outcome host = (result, after) ∧
        after.Matches quiet ∧ quiet.printed = host.printed ∧
        request.Shows host result after made completed := by
  rw [outcome_execute, outcome_execute]
  cases found : request.layout with
  | error error =>
      exact ⟨_, _, _, 0, 0, rfl, rfl, .refl host, rfl, shows_of_silent fun ok => nomatch ok⟩
  | ok layout =>
      dsimp only
      by_cases empty : request.size = 0
      · rw [if_pos empty, if_pos empty]
        exact ⟨_, _, _, 0, 0, rfl, rfl, .refl host, rfl, shows_of_silent fun _ => empty⟩
      · rw [if_neg empty, if_neg empty]
        cases accepted : request.accept layout storage with
        | error error =>
            exact ⟨_, _, _, 0, 0, rfl, rfl, .refl host, rfl,
              shows_of_silent fun ok => nomatch ok⟩
        | ok scratch =>
            exact exists_watched_of_accepted ⟨empty, found, accepted⟩ prompt answers host

theorem watching_only_prints_small :
    ∃ after, (SmallCall.request.execute .prompt true SmallCall.storage).outcome SmallCall.host =
        (.ok (), after) ∧
      after.printed.toList = [.blockSize 2, .blockCount 2, .stage "group_sort" 3,
        .stage "merge_into_scratch" 3, .stage "copy_back" 3] := by
  obtain ⟨final, -, runs⟩ := SmallCall.admits.exists_final (answers_ofTest rfl)
  obtain ⟨finished, succeeds, -⟩ :=
    runs .prompt true SmallCall.host Environment.calm_prompt SmallCall.settles
  obtain ⟨result, quiet, after, made, completed, -, outcome, -, -, shows⟩ :=
    watching_only_prints (Or.inr fun _ _ => Nat.le_refl _) Environment.calm_prompt.answers
      SmallCall.request SmallCall.storage SmallCall.host
  rw [succeeds] at outcome
  obtain ⟨rfl, rfl⟩ := Prod.mk.inj outcome
  have stages : (Size.doublings 2 3).length = 1 := SmallCall.passCount
  have length : (scheduled SmallCall.request.size SmallCall.request.blockSize).length = 3 := by
    change (scheduled 3 2).length = 3
    rw [scheduled, if_neg (by decide), stages]
    rfl
  obtain ⟨rfl, rfl⟩ := shows.succeeded rfl
  have printed := shows.printed (by omega)
  rw [length, transcript, SmallCall.passCount] at printed
  exact ⟨finished, succeeds, printed⟩

end SortRequest

end GridSort
