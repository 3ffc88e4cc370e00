import GridSort.Sort.Plan

namespace GridSort

/-! The merge passes of a plan, by their number. A pass changes sides and doubles the width, so
that the side is known from the parity of the number of passes, and so is whether there is a copy
at the end. -/

namespace Side

/-- Where the pairs are after a number of merge passes. -/
def afterPasses (passes : Nat) : Side :=
  if passes % 2 = 0 then .output else .scratch

theorem other_afterPasses (passes : Nat) :
    (afterPasses passes).other = afterPasses (passes + 1) := by
  unfold afterPasses
  rcases Nat.mod_two_eq_zero_or_one passes with even | odd
  · rw [if_pos even, if_neg (by omega)]
    rfl
  · rw [if_neg (by omega), if_pos (by omega)]
    rfl

theorem afterPasses_eq_scratch_iff (passes : Nat) :
    afterPasses passes = .scratch ↔ ¬passes % 2 = 0 := by
  unfold afterPasses
  split
  · next even => simp [even]
  · next odd => simp [odd]

end Side

namespace SortRequest

variable {keyType valueType : ElementType} {request : SortRequest keyType valueType}
  {scratch : Pairs keyType valueType}

/-- The width of the sorted runs before each merge pass. -/
def passWidths (request : SortRequest keyType valueType) : List Nat :=
  Size.doublings request.blockSize request.size

def passCount (request : SortRequest keyType valueType) : Nat := request.passWidths.length

/-- Where the pairs are after a number of merge passes. -/
def active (request : SortRequest keyType valueType) (scratch : Pairs keyType valueType)
    (passes : Nat) : Pairs keyType valueType :=
  if passes % 2 = 0 then request.target else scratch

theorem active_even {passes : Nat} (even : passes % 2 = 0) :
    request.active scratch passes = request.target := if_pos even

theorem active_odd {passes : Nat} (odd : passes % 2 = 1) :
    request.active scratch passes = scratch := if_neg (by omega)

theorem active_eq_place (passes : Nat) :
    request.active scratch passes = request.place scratch (.afterPasses passes) := by
  rcases Nat.mod_two_eq_zero_or_one passes with even | odd
  · rw [active_even even, Side.afterPasses, if_pos even]
    rfl
  · rw [active_odd odd, Side.afterPasses, if_neg (by omega)]
    rfl

/-- The merge pass with a number. -/
def mergePass (request : SortRequest keyType valueType)
    (scratch : Pairs keyType valueType) (index width : Nat) : Stage :=
  { label := if index % 2 = 0 then "merge_into_scratch" else "merge_into_output"
    kernel := (⟨request.active scratch index, request.active scratch (index + 1),
      request.size, width, request.less⟩ : RunMerge keyType valueType).kernel }

theorem mergeInto_afterPasses (index width : Nat) :
    request.mergeInto scratch (.afterPasses index) (.afterPasses (index + 1)) width =
      request.mergePass scratch index width := by
  have label : Side.afterPasses (index + 1) = .scratch ↔ index % 2 = 0 := by
    rw [Side.afterPasses_eq_scratch_iff]
    omega
  rw [mergeInto, mergePass, active_eq_place, active_eq_place]
  simp only [label]

/-- The loop from a pass on, whose side has the parity of its number. -/
theorem mergePasses_afterPasses (made width count : Nat) :
    request.mergePasses scratch (.afterPasses made) width count =
      { stages := (Size.doublings width request.size).mapIdx fun index width =>
          request.mergePass scratch (made + index) width
        count := count + (Size.doublings width request.size).length
        current := .afterPasses (made + (Size.doublings width request.size).length) } := by
  fun_induction Size.doublings width request.size generalizing made count with
  | case1 width inside ih =>
      rw [mergePasses, if_pos inside]
      simp only [Side.other_afterPasses, ih, mergeInto_afterPasses, List.mapIdx_cons,
        List.length_cons, Nat.add_assoc, Nat.add_comm 1, Nat.add_zero]
  | case2 width outside => rw [mergePasses, if_neg outside]; rfl

/-- The plan without its loop. -/
theorem plan_eq : request.plan scratch =
    { grid := request.grid
      tileSort := request.tileSort
      passes := request.passWidths.mapIdx (request.mergePass scratch)
      passCount := request.passCount
      copyBack := if request.passCount % 2 = 0 then none
        else some (request.copyBack scratch) } := by
  have merged : request.mergePasses scratch .output request.blockSize 0 =
      ⟨request.passWidths.mapIdx (request.mergePass scratch), request.passCount,
        .afterPasses request.passCount⟩ := by
    have looped : request.mergePasses scratch (.afterPasses 0) request.blockSize 0 = _ :=
      mergePasses_afterPasses 0 request.blockSize 0
    simp only [Nat.zero_add] at looped
    exact looped
  rw [plan, merged]
  simp only [Side.afterPasses_eq_scratch_iff, ite_not]

theorem passes_plan :
    (request.plan scratch).passes = request.passWidths.mapIdx (request.mergePass scratch) := by
  rw [plan_eq]

theorem copyBack_plan : (request.plan scratch).copyBack =
    if request.passCount % 2 = 0 then none else some (request.copyBack scratch) := by
  rw [plan_eq]

@[simp] theorem passCount_plan : (request.plan scratch).passCount = request.passCount := by
  rw [plan_eq]

@[simp] theorem length_passes_plan :
    (request.plan scratch).passes.length = request.passCount := by
  rw [passes_plan]
  exact List.length_mapIdx

theorem stages_plan : (request.plan scratch).stages =
    request.tileSort :: request.passWidths.mapIdx (request.mergePass scratch) ++
      if request.passCount % 2 = 0 then [] else [request.copyBack scratch] := by
  rw [plan_eq, SortPlan.stages]
  split <;> rfl

theorem length_stages_plan : (request.plan scratch).stages.length =
    1 + request.passCount + request.passCount % 2 := by
  rw [stages_plan, List.length_append, List.length_cons, List.length_mapIdx]
  change request.passCount + 1 + _ = _
  split
  · next even => rw [even, List.length_nil, Nat.add_comm 1]
  · next odd => rw [List.length_singleton]; omega

end SortRequest

end GridSort
