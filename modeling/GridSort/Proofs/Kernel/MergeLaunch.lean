import GridSort.Proofs.Kernel.Launches
import GridSort.Proofs.Kernel.RunMerge
import GridSort.Proofs.Merge.Sequential

namespace GridSort

/-! One launch of a merge pass. Its groups may be smaller or larger than a run, may begin in the
middle of a pair of runs, and may be too few or too many. -/

namespace RunMerge

variable {keyType valueType : ElementType} {merge : RunMerge keyType valueType} {grid : Grid}
  {memory : Memory}

/-- A launch on any grid leaves what a merge of each pair of runs has at the positions that have
a lane. -/
theorem launch_merges_runs (sound : merge.Sound) (held : merge.target.SoundIn memory)
    (positive : 1 ≤ merge.runWidth) (valid : grid.isValid = true)
    (words : grid.groups * grid.lanes ≤ Size.largest) (small : 2 * merge.size ≤ Size.largest)
    (orders : merge.less.WeaklyOrders (HeldBelow (merge.source.keys.get memory) merge.size))
    (sorted : ∀ run, ((block merge.size merge.runWidth run).map
      (merge.source.keys.get memory)).Pairwise fun first second =>
        merge.less second first = .ok false) :
    ∃ final, merge.kernel.LeadsTo grid memory final ∧
      (List.range (min (grid.groups * grid.lanes) merge.size)).map (merge.target.get final) =
        (mergeRuns merge.runWidth (merge.less.on Prod.fst).keeps
          ((List.range merge.size).map (merge.source.get memory))).take
            (grid.groups * grid.lanes) ∧
      merge.target.ChangedBelow (min (grid.groups * grid.lanes) merge.size) memory final := by
  have byKey : (merge.less.on Prod.fst).WeaklyOrders
      (HeldBelow (merge.source.get memory) merge.size) := weaklyOrders_fst orders
  have runs : Arranged ((merge.less.on Prod.fst).answerAt (merge.source.get memory)) merge.size
      merge.runWidth id := by
    refine arranged_id byKey positive fun run => ?_
    rw [List.pairwise_map]
    exact List.pairwise_map.mp (sorted run)
  have reads : merge.Reads (merge.source.get memory)
      ((merge.less.on Prod.fst).answerAt (merge.source.get memory)) memory :=
    ⟨fun _ _ => rfl, fun _ _ => answerAt_eq byKey⟩
  obtain ⟨final, leads, filled, changed⟩ :=
    (fills sound positive words (fits_of_double small) reads).exists_leadsTo sound.targetRoom held
      valid rfl
  refine ⟨final, leads, ?_, changed⟩
  rw [MergePass.mergeRuns_range runs (transitiveBelow_answerAt byKey) grid.lanes positive,
    ← List.map_take, List.take_range]
  apply List.map_congr_left
  intro position member
  exact filled position (List.mem_range.mp member)

end RunMerge

/-! Five pairs in runs of two, merged by two groups of two lanes. The second group begins in the
middle of a pair of runs, and the run without a sibling has no lane. -/

namespace SmallMerge

def memory : Memory :=
  ⟨#[#[2, 5, 1, 5, 0], #[0, 1, 2, 3, 4], #[9, 9, 9, 9, 9], #[9, 9, 9, 9, 9]]⟩

def merge : RunMerge .byte .byte :=
  ⟨⟨⟨0, 0, 5⟩, ⟨1, 0, 5⟩⟩, ⟨⟨2, 0, 5⟩, ⟨3, 0, 5⟩⟩, 5, 2, .less⟩

theorem sound : merge.Sound where
  sourceRoom := ⟨Nat.le_refl 5, fun _ => Nat.le_refl 5⟩
  targetRoom := ⟨Nat.le_refl 5, fun _ => Nat.le_refl 5⟩
  apart := by constructor <;> exact Or.inr (Or.inr (Or.inl (by decide)))

theorem held : merge.target.SoundIn memory where
  keys := by decide
  values := by decide
  apart := Or.inr (Or.inr (Or.inl (by decide)))

theorem sorted (run : Nat) : ((block merge.size merge.runWidth run).map
    (merge.source.keys.get memory)).Pairwise fun first second =>
      merge.less second first = .ok false := by
  match run with
  | 0 | 1 | 2 => decide
  | run + 3 =>
      have beyond : 5 - (run + 3) * 2 = 0 := by omega
      have empty : block merge.size merge.runWidth (run + 3) = [] := by
        change List.range' ((run + 3) * 2) (min 2 (5 - (run + 3) * 2)) = []
        rw [beyond, Nat.min_zero, List.range'_zero]
      rw [empty]
      exact List.Pairwise.nil

theorem merged : (mergeRuns merge.runWidth (merge.less.on Prod.fst).keeps
    ((List.range merge.size).map (merge.source.get memory))).take 4 =
      [(1, 2), (2, 0), (5, 1), (5, 3)] := by
  cbv

end SmallMerge

theorem RunMerge.launch_merges_runs_small :
    ∃ final, SmallMerge.merge.kernel.LeadsTo ⟨2, 2⟩ SmallMerge.memory final ∧
      (List.range 4).map (SmallMerge.merge.target.get final) =
        [(1, 2), (2, 0), (5, 1), (5, 3)] ∧
      SmallMerge.merge.target.ChangedBelow 4 SmallMerge.memory final := by
  obtain ⟨final, leads, filled, changed⟩ := RunMerge.launch_merges_runs SmallMerge.sound
    SmallMerge.held (by decide) (show Grid.isValid ⟨2, 2⟩ = true from rfl) (by decide) (by decide)
    ((Predicate.less_weaklyOrders _).mono fun key _ => ⟨_, rfl⟩) SmallMerge.sorted
  exact ⟨final, leads, filled.trans SmallMerge.merged, changed⟩

end GridSort
