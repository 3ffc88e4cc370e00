import Mathlib.Order.Bounds.Basic
import GridSort.Proofs.Host.Log
import GridSort.Proofs.Sort.Run
import GridSort.Proofs.Sort.Surroundings

namespace GridSort

/-! Which launches a sort makes. They depend on the size and the block size alone, for every
size that is a word and for blocks of any size. -/

/-- What one launch of a sort does. -/
inductive Leg
  | sortTiles
  | mergeRuns (width : Nat) (origin target : Side)
  | copyBack
  deriving DecidableEq, Repr

def Leg.endsIn : Leg → Side
  | .sortTiles => .output
  | .mergeRuns _ _ target => target
  | .copyBack => .output

def schedule (lanes passes : Nat) : List Leg :=
  .sortTiles ::
    (List.range passes).map (fun pass =>
      .mergeRuns (lanes * 2 ^ pass) (.afterPasses pass) (.afterPasses (pass + 1))) ++
    if passes % 2 = 0 then [] else [.copyBack]

theorem getLast?_schedule (lanes passes : Nat) :
    ∃ last, (schedule lanes passes).getLast? = some last ∧ last.endsIn = .output := by
  rcases Nat.mod_two_eq_zero_or_one passes with even | odd
  · cases passes with
    | zero => exact ⟨.sortTiles, rfl, rfl⟩
    | succ pass =>
        refine ⟨.mergeRuns (lanes * 2 ^ pass) (.afterPasses pass) (.afterPasses (pass + 1)), ?_,
          if_pos even⟩
        rw [schedule, if_pos even, List.append_nil, List.range_succ, List.map_append,
          ← List.cons_append]
        exact List.getLast?_concat
  · refine ⟨.copyBack, ?_, rfl⟩
    rw [schedule, if_neg (by omega)]
    exact List.getLast?_concat

namespace Size

variable {size lanes : Nat}

theorem isLeast_doublings (positive : 0 < lanes) (word : size ≤ largest) :
    IsLeast {passes | size ≤ lanes * 2 ^ passes} (doublings lanes size).length := by
  refine ⟨le_mul_two_pow_length positive word, fun passes covered => ?_⟩
  by_contra fewer
  have short := mul_two_pow_lt positive word (Nat.lt_of_not_le fewer)
  exact Nat.not_le_of_lt short covered

end Size

namespace Grid

variable {size lanes : Nat}

theorem isLeast_groups_covering (positive : 0 < lanes) :
    IsLeast {groups | size ≤ groups * lanes} (covering size lanes).groups := by
  refine ⟨Size.le_roundUp size positive, fun groups covered => ?_⟩
  by_contra fewer
  have short := mul_lanes_lt positive (Nat.lt_of_not_le fewer)
  exact Nat.not_le_of_lt short covered

theorem existsUnique_window_covering (positive : 0 < lanes) {position : Nat}
    (inside : position < size) :
    ∃! id, id < (covering size lanes).groups ∧
      position ∈ (⟨id, covering size lanes⟩ : Group).window size := by
  have lane : position < (position / lanes + 1) * lanes := Nat.lt_mul_of_div_lt
    (Nat.lt_succ_self _) positive
  have covered : size ≤ (covering size lanes).groups * lanes := Size.le_roundUp size positive
  refine ⟨position / lanes, ⟨?_, Group.mem_window.mpr ⟨?_, lane, inside⟩⟩, fun id member => ?_⟩
  · exact (Nat.div_lt_iff_lt_mul positive).mpr (Nat.lt_of_lt_of_le inside covered)
  · exact Nat.div_mul_le_self position lanes
  · exact (Group.id_eq_of_mem_window member.2).symm

end Grid

theorem SortPlan.logs_run (environment : Environment) (watched : Bool) (size : Nat)
    (plan : SortPlan) :
    HostM.Logs (queuedLine size plan.passCount) (plan.run environment watched size) := by
  have ended : HostM.KeepsLog
      (plan.copyBack.toList.forM (Stage.run environment watched plan.grid size)) :=
    HostM.KeepsLog.composes.forM fun stage _ => .stage watched plan.grid size stage
  have noted := HostM.Logs.note .debug (queuedLine size plan.passCount).text
  have queued : HostM.Logs (queuedLine size plan.passCount)
      ((plan.tileSort :: plan.passes).forM (Stage.run environment watched plan.grid size) >>=
        fun _ => _) := (noted.bind_keepsLog ended).bind_of_later
  cases watched with
  | false => exact queued
  | true => exact queued.bind_of_later.bind_of_later

namespace SortRequest

variable {keyType valueType : ElementType} {request : SortRequest keyType valueType}
  {scratch : Pairs keyType valueType} {storage : Buffer .byte} {layout : Layout}

def legKernel (request : SortRequest keyType valueType) (scratch : Pairs keyType valueType) :
    Leg → Kernel
  | .sortTiles =>
      (⟨request.source, request.target, request.size, request.less⟩ :
        TileSort keyType valueType).kernel
  | .mergeRuns width origin target =>
      (⟨request.place scratch origin, request.place scratch target, request.size, width,
        request.less⟩ : RunMerge keyType valueType).kernel
  | .copyBack => (⟨scratch, request.target, request.size⟩ : Copy keyType valueType).kernel

/-- The launches of a schedule, each with its grid. -/
def legs (request : SortRequest keyType valueType) (scratch : Pairs keyType valueType)
    (passes : Nat) (grid : Grid) : List (Kernel × Grid) :=
  (schedule request.blockSize passes).map fun leg => (request.legKernel scratch leg, grid)

theorem passes_plan_eq_map (positive : 0 < request.blockSize) (word : request.size ≤ Size.largest) :
    (request.plan scratch).passes = (List.range request.passCount).map fun pass =>
      request.mergePass scratch pass (request.blockSize * 2 ^ pass) := by
  apply List.ext_getElem?
  intro pass
  rw [passes_plan, List.getElem?_mapIdx, List.getElem?_map]
  by_cases inside : pass < request.passCount
  · rw [getElem?_passWidths positive word inside, List.getElem?_range inside]
    rfl
  · have beyond : (List.range request.passCount)[pass]? = none := by simpa using inside
    rw [List.getElem?_eq_none (Nat.le_of_not_lt inside), beyond]
    rfl

theorem map_stages_plan (positive : 0 < request.blockSize) (word : request.size ≤ Size.largest) :
    (request.plan scratch).stages.map (fun stage => (stage.kernel, request.grid)) =
      request.legs scratch request.passCount request.grid := by
  have tileSort : (request.plan scratch).tileSort = request.tileSort := rfl
  rw [SortPlan.stages, passes_plan_eq_map positive word, copyBack_plan, tileSort, legs, schedule]
  simp only [List.map_append, List.map_cons, List.map_map, Function.comp_def, mergePass,
    active_eq_place]
  split
  · rfl
  · rfl

/-- A call makes the launches of a schedule with this many passes, on every stream that takes
them and completes them, and so on a host. -/
structure KeepsSchedule (request : SortRequest keyType valueType) (storage : Buffer .byte)
    (scratch : Pairs keyType valueType) (passes : Nat) (grid : Grid) : Prop where
  execute : ∀ {σ : Type} {on : Surroundings σ} {launched : σ → List (Kernel × Grid)}
    {logged : σ → List LogLine}, on.Accepts launched logged → ∀ watched,
      Surroundings.Adds launched logged (on.execute watched request storage)
        (request.legs scratch passes grid) [queuedLine request.size passes]
  launches : ∀ {environment : Environment}, environment.Calm → ∀ first,
    (request.launches environment first scratch).map (fun launch => (launch.kernel, launch.grid)) =
      request.legs scratch passes grid
  outcome : ∀ {environment : Environment} {host : Host} {memory final : Memory},
    environment.Calm → grid.isValid = true → host.Settles memory →
      Launch.runAll (request.launches environment host.attempts.size scratch) memory =
        (none, final) → ∀ watched,
          ∃ after, (request.execute environment watched storage).outcome host = (.ok (), after) ∧
            after.Settles final ∧
            after.attempts.toList = host.attempts.toList ++
              (request.legs scratch passes grid).map
                (fun (kernel, grid) => ⟨kernel.name, grid⟩) ∧
            queuedLine request.size passes ∈ after.device.log.toList

theorem Accepted.keepsSchedule (accepted : request.Accepted storage layout scratch)
    (word : request.size ≤ Size.largest) :
    request.KeepsSchedule storage scratch request.passCount request.grid := by
  have stages : (request.plan scratch).stages.map (fun stage => (stage.kernel, request.grid)) =
      request.legs scratch request.passCount request.grid := map_stages_plan accepted.positive word
  refine ⟨fun accepts watched => ?_, fun calm first => ?_,
    fun {environment host memory final} calm valid healthy runs watched => ?_⟩
  · rw [← stages]
    exact accepts.execute watched accepted
  · rw [← stages]
    exact Stage.map_launches calm request.grid first _
  · obtain ⟨after, outcome, settles, attempted⟩ :=
      accepted.exists_execute valid calm healthy runs watched
    have names : Stage.attempts request.grid (request.plan scratch).stages =
        scheduled request.size request.blockSize := attempts_stages accepted.nonempty
    have logged := SortPlan.logs_run environment watched request.size (request.plan scratch) host
      after ((accepted.outcome_execute environment watched host).symm.trans outcome)
    rw [passCount_plan] at logged
    rw [← names] at attempted
    rw [← stages, List.map_map]
    exact ⟨after, outcome, settles, attempted, logged⟩

end SortRequest

/-- For each size and block size there is one number of passes and one number of groups, and
every accepted call makes the launches of that schedule and no others. The keys, the values and
the predicate have no part in it. -/
theorem exists_schedule {size lanes : Nat} (word : size ≤ Size.largest) (positive : 1 ≤ lanes) :
    ∃ passes groups,
      IsLeast {count | size ≤ lanes * 2 ^ count} passes ∧
      IsLeast {count | size ≤ count * lanes} groups ∧
      (∀ position, position < size → ∃! id, id < groups ∧
        position ∈ (⟨id, ⟨groups, lanes⟩⟩ : Group).window size) ∧
      (∃ last, (schedule lanes passes).getLast? = some last ∧ last.endsIn = .output) ∧
      ∀ {keyType valueType : ElementType} {request : SortRequest keyType valueType}
        {scratch : Pairs keyType valueType} {storage : Buffer .byte} {layout : Layout},
        request.size = size → request.blockSize = lanes →
          request.Accepted storage layout scratch →
            request.KeepsSchedule storage scratch passes ⟨groups, lanes⟩ := by
  refine ⟨_, _, Size.isLeast_doublings positive word, Grid.isLeast_groups_covering positive,
    fun position inside => Grid.existsUnique_window_covering positive inside,
    getLast?_schedule _ _, ?_⟩
  rintro keyType valueType request scratch storage layout rfl rfl accepted
  exact accepted.keepsSchedule word

/-! The largest sort there is: as many elements that take no room as a word can count. -/

namespace LargestCall

def request : SortRequest .nothing .nothing :=
  { source := ⟨.slice (.unbacked Size.largest), .slice (.unbacked Size.largest)⟩
    target := ⟨.unbacked Size.largest, .unbacked Size.largest⟩
    size := Size.largest
    less := .never
    blockSize := 1000 }

def storage : Buffer .byte := ⟨0, 0⟩

theorem accepted : request.Accepted storage ⟨0, 0⟩ (request.scratchIn storage ⟨0, 0⟩) := by
  have layout : request.layout = .ok ⟨0, 0⟩ := Layout.ofSize_eq_ok_iff.mpr ⟨rfl, Nat.zero_le _⟩
  exact ⟨by decide, layout, SortRequest.accept_eq_ok layout (by decide)
    ⟨Nat.le_refl _, fun _ => Nat.le_refl _⟩ (Nat.le_refl 0)⟩

theorem isLeast_passes : IsLeast {count | Size.largest ≤ 1000 * 2 ^ count} 55 := by
  refine ⟨by decide, fun count covered => ?_⟩
  by_contra fewer
  have power : 2 ^ count ≤ 2 ^ 54 := Nat.pow_le_pow_right Nat.two_pos (by omega)
  have short : 1000 * 2 ^ 54 < Size.largest := by decide
  have reached : Size.largest ≤ 1000 * 2 ^ count := covered
  omega

theorem isLeast_groups :
    IsLeast {count | Size.largest ≤ count * 1000} 18446744073709552 := by
  refine ⟨by decide, fun count covered => ?_⟩
  have reached : 18446744073709551615 ≤ count * 1000 := covered
  omega

end LargestCall

/-- All of its 57 launches are made, and the line about the passes is logged. -/
theorem exists_schedule_largest :
    ∃ scratch after, (Surroundings.recorder.execute true LargestCall.request
        LargestCall.storage).run.run ([], []) = (.ok (), after) ∧
      after.1 = LargestCall.request.legs scratch 55 ⟨18446744073709552, 1000⟩ ∧
      after.1.length = 57 ∧ after.2 = [queuedLine Size.largest 55] := by
  obtain ⟨passes, groups, leastPasses, leastGroups, -, -, keeps⟩ :=
    exists_schedule (Nat.le_refl Size.largest) (show 1 ≤ 1000 by decide)
  obtain rfl := leastPasses.unique LargestCall.isLeast_passes
  obtain rfl := leastGroups.unique LargestCall.isLeast_groups
  obtain ⟨after, ran, made, logged⟩ := (keeps rfl rfl LargestCall.accepted).execute
    Surroundings.accepts_recorder true ([], [])
  refine ⟨_, after, ran, made, ?_, logged⟩
  rw [made]
  rfl

end GridSort
