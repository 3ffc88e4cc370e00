import GridSort.Proofs.Kernel.RunMerge
import GridSort.Proofs.Kernel.TileSort
import GridSort.Proofs.Merge.Refusal

namespace GridSort

/-! Launches whose predicate refuses some keys. A group does what it would do under a predicate
that always answers, or it faults; and it does fault where it sorts a refused key along with
another one, or merges runs that begin with one. -/

variable {keyType valueType : ElementType} {refused : Element keyType → Prop}
  {test : Element keyType → Element keyType → Bool} {fault : Fault} {grid : Grid}
  {memory : Memory} {content : Nat → Element keyType × Element valueType} {order : List Nat}

theorem Kernel.Fills.exists_runGroups_of_faultsAt {kernel other : Kernel}
    {target : Pairs keyType valueType} {size : Nat} {readable : Nat → Region → Prop}
    (fills : other.Fills grid memory target size readable content)
    (each : ∀ group, fault.MayStop (kernel.run group) (other.run group))
    (complete : order.Perm (List.range grid.groups)) {id : Nat} (present : id < grid.groups)
    (stops : ∀ finished : List Nat, id ∉ finished →
      (kernel.run ⟨id, grid⟩).FaultsAt (memory.storeAll (finished.flatMap fun earlier =>
        target.fill ((⟨earlier, grid⟩ : Group).window size) content)) fault) :
    ∃ final, Launch.runGroups kernel grid order memory = (some fault, final) := by
  have distinct : order.Nodup := complete.nodup_iff.mpr List.nodup_range
  obtain ⟨front, rest, split⟩ :=
    List.append_of_mem (complete.mem_iff.mpr (List.mem_range.mpr present))
  have below : ∀ earlier ∈ front, earlier < grid.groups := fun earlier member =>
    List.mem_range.mp (complete.mem_iff.mp (split ▸ List.mem_append_left _ member))
  rw [split] at distinct
  have absent : id ∉ front := fun member =>
    (List.nodup_append.mp distinct).2.2 id member id List.mem_cons_self rfl
  have reached := Launch.runGroups_of_readsApart fills.readsApart (List.nodup_append.mp distinct).1
    fun earlier member => fills.performs earlier (below earlier member)
  exact Launch.exists_runGroups_of_faultsAt (fun _ _ => each _) split reached (stops front absent)

namespace TileSort

variable {sort : TileSort keyType valueType}

/-- The same launch under a predicate that always answers. -/
def answering (sort : TileSort keyType valueType)
    (test : Element keyType → Element keyType → Bool) : TileSort keyType valueType :=
  { sort with less := .ofTest test }

theorem Sound.answering (sound : sort.Sound) (test : Element keyType → Element keyType → Bool) :
    (sort.answering test).Sound :=
  ⟨sound.covers, sound.room, sound.separate⟩

theorem store_answering (test : Element keyType → Element keyType → Bool) (offset lane : Nat)
    (pairs : List (Element keyType × Element valueType)) :
    (sort.answering test).store offset lane pairs = sort.store offset lane pairs := by
  induction pairs generalizing lane with
  | nil => rfl
  | cons pair rest ih =>
      rw [store, store, ih]
      rfl

theorem mayStop_program (refuses : sort.less.Refuses test refused fault) (group : Group) :
    fault.MayStop (sort.program group) ((sort.answering test).program group) := by
  refine .lift_bind fun offset => .lift_bind fun rest =>
    (Fault.MayStop.refl fault (sort.load offset (min group.lanes rest))).bind fun loaded =>
      (Fault.MayStop.lift (mayReplace_sort (refuses.on Prod.fst).mayReplace loaded.toArray)).bind
        fun sorted => ?_
  rw [store_answering]
  exact .refl fault _

section Window

variable (positive : 0 < grid.lanes) (few : grid.lanes ≤ Grid.maxLanes)
  (small : sort.size ≤ Size.largest) (sound : sort.Sound)
include positive few small sound

theorem faultsAt_program (refuses : sort.less.Refuses test refused fault) {id position : Nat}
    (found : ∀ index ∈ (⟨id, grid⟩ : Group).window sort.size,
      sort.source.get memory index = content index)
    (several : 2 ≤ ((⟨id, grid⟩ : Group).window sort.size).length)
    (member : position ∈ (⟨id, grid⟩ : Group).window sort.size)
    (hit : refused (content position).1) : (sort.program ⟨id, grid⟩).FaultsAt memory fault := by
  have lanesLe : grid.lanes ≤ 1024 := few
  have largest : Size.largest = 2 ^ 64 - 1 := rfl
  have window : (⟨id, grid⟩ : Group).window sort.size =
      List.range' (id * grid.lanes) (min grid.lanes (sort.size - id * grid.lanes)) := rfl
  rw [window] at found several member
  rw [List.length_range'] at several
  obtain ⟨low, high⟩ := List.mem_range'_1.mp member
  have start : Size.mul id grid.lanes = .ok (id * grid.lanes) := Size.mul_eq_ok (by omega)
  have rest : Size.sub sort.size (id * grid.lanes) = .ok (sort.size - id * grid.lanes) :=
    Size.sub_eq_ok (by omega)
  generalize id * grid.lanes = offset at *
  generalize count_def : min grid.lanes (sort.size - offset) = count at *
  have loaded : (sort.load offset count).Performs memory (fun _ => True) []
      ((List.range count).map fun lane => content (offset + lane)) :=
    performs_load sound (fun index low high => found index (List.mem_range'_1.mpr ⟨low, high⟩))
      small (by omega) fun _ _ _ _ _ => trivial
  have failed : Tile.sort (sort.less.on Prod.fst)
      ((List.range count).map fun lane => content (offset + lane)).toArray = .error fault := by
    have size : ((List.range count).map fun lane => content (offset + lane)).toArray.size =
        count := by simp
    have place : position - offset < ((List.range count).map fun lane =>
        content (offset + lane)).toArray.size := by omega
    refine Tile.sort_of_refused (refuses.on Prod.fst) (by omega) (by omega) place ?_
    rwa [List.getElem_toArray, List.getElem_map, List.getElem_range, Nat.add_sub_cancel' low]
  refine .lift_bind (.lift_bind ?_ rest) start
  change (sort.load offset (min grid.lanes (sort.size - offset)) >>= _).FaultsAt memory fault
  rw [count_def]
  exact .bind_of_performs (Program.faultsAt_lift_bind failed _ _) loaded

/-- A refused key that is not alone in its window is the end of the launch. -/
theorem exists_runGroups_of_refused (refuses : sort.less.Refuses test refused fault)
    (begun : ∀ id, id < grid.groups → id * grid.lanes ≤ sort.size)
    (complete : order.Perm (List.range grid.groups)) {id position : Nat}
    (present : id < grid.groups)
    (several : 2 ≤ ((⟨id, grid⟩ : Group).window sort.size).length)
    (member : position ∈ (⟨id, grid⟩ : Group).window sort.size)
    (hit : refused (sort.source.get memory position).1) :
    ∃ final, Launch.runGroups sort.kernel grid order memory = (some fault, final) := by
  have reads : (sort.answering test).Reads (sort.source.get memory)
      (fun first second => test (sort.source.get memory first).1 (sort.source.get memory second).1)
      memory := ⟨fun _ _ => rfl, fun _ _ _ _ => rfl⟩
  have filled : (sort.answering test).kernel.Fills grid memory sort.target sort.size _ _ :=
    fills positive few small (sound.answering test) reads begun
  refine filled.exists_runGroups_of_faultsAt (fun group => mayStop_program refuses group) complete
    present fun finished absent => ?_
  refine faultsAt_program positive few small sound refuses (fun index inside => ?_) several member
    hit
  apply Source.get_storeAll
  intro region read write written
  obtain ⟨earlier, ran, written⟩ := List.mem_flatMap.mp written
  obtain ⟨other, otherInside, otherMember⟩ := Pairs.exists_of_mem_fill written
  refine sound.windowsApart grid id earlier ?_ region ⟨index, inside, read⟩ other otherInside _
    otherMember
  rintro rfl
  exact absent ran

/-- Refused keys that are alone in their windows are not compared yet. -/
theorem fills_of_refused (refuses : sort.less.Refuses test refused fault)
    (begun : ∀ id, id < grid.groups → id * grid.lanes ≤ sort.size)
    (single : ∀ id, id < grid.groups → ∀ position ∈ (⟨id, grid⟩ : Group).window sort.size,
      refused (sort.source.get memory position).1 →
        ((⟨id, grid⟩ : Group).window sort.size).length ≤ 1) :
    sort.kernel.Fills grid memory sort.target sort.size (sort.readsWindow grid)
      (output (sort.source.get memory) (fun first second =>
        test (sort.source.get memory first).1 (sort.source.get memory second).1)
          sort.size grid.lanes) := by
  refine fills_of_answersOn positive few small sound (fun _ _ => rfl) begun fun id present => ?_
  by_cases alone : ((⟨id, grid⟩ : Group).window sort.size).length ≤ 1
  · exact Or.inl alone
  · exact Or.inr fun first hfirst second hsecond => refuses.answers _ _
      (fun hit => alone (single id present first hfirst hit))
      fun hit => alone (single id present second hsecond hit)

end Window

end TileSort

namespace RunMerge

open RunPair

variable {merge : RunMerge keyType valueType}

/-- The same launch under a predicate that always answers. -/
def answering (merge : RunMerge keyType valueType)
    (test : Element keyType → Element keyType → Bool) : RunMerge keyType valueType :=
  { merge with less := .ofTest test }

theorem Sound.answering (sound : merge.Sound) (test : Element keyType → Element keyType → Bool) :
    (merge.answering test).Sound :=
  ⟨sound.sourceRoom, sound.targetRoom, sound.apart⟩

theorem mayStop_bisect {probe otherProbe : Nat → Program Bool}
    (each : ∀ candidate, fault.MayStop (probe candidate) (otherProbe candidate))
    (low high : Nat) : fault.MayStop (bisect probe low high) (bisect otherProbe low high) := by
  fun_induction bisect otherProbe low high with
  | case1 low high nonempty left right =>
      rw [bisect, if_pos nonempty]
      refine (each _).bind fun answer => ?_
      cases answer with
      | true => exact left
      | false => exact right
  | case2 low high empty =>
      rw [bisect, if_neg empty]
      exact .refl fault _

section Steps

variable (refuses : merge.less.Refuses test refused fault)
include refuses

theorem mayStop_mergeSplit (left right : Span) (diagonal : Nat) :
    fault.MayStop (mergeSplit merge.less merge.source.keys left right diagonal)
      (mergeSplit (.ofTest test) merge.source.keys left right diagonal) :=
  mayStop_bisect (fun _ => .lift_bind fun _ => (Fault.MayStop.refl fault _).bind fun leftKey =>
    .lift_bind fun _ => .lift_bind fun _ => .lift_bind fun _ =>
      (Fault.MayStop.refl fault _).bind fun rightKey =>
        .lift (refuses.mayReplace rightKey leftKey)) _ _

theorem mayStop_leftIsNext (mid stop left right : Nat) :
    fault.MayStop (merge.leftIsNext mid stop left right)
      ((merge.answering test).leftIsNext mid stop left right) := by
  unfold leftIsNext
  split
  · exact .refl fault _
  · split
    · exact (Fault.MayStop.refl fault _).bind fun rightKey =>
        (Fault.MayStop.refl fault _).bind fun leftKey =>
          (Fault.MayStop.lift (refuses.mayReplace rightKey leftKey)).bind fun _ => .refl fault _
    · exact .refl fault _

theorem mayStop_mergeHeads (mid stop count out left right : Nat) :
    fault.MayStop (merge.mergeHeads mid stop count out left right)
      ((merge.answering test).mergeHeads mid stop count out left right) := by
  induction count generalizing out left right with
  | zero => exact .refl fault _
  | succ count ih =>
      refine (mayStop_leftIsNext refuses mid stop left right).bind fun isLeft => ?_
      cases isLeft with
      | true => exact .lift_bind fun next => (Fault.MayStop.refl fault _).bind fun _ => ih _ _ _
      | false => exact .lift_bind fun next => (Fault.MayStop.refl fault _).bind fun _ => ih _ _ _

theorem mayStop_fillWindow (base first last : Nat) :
    fault.MayStop (merge.fillWindow base first last)
      ((merge.answering test).fillWindow base first last) :=
  .lift_bind fun diagonal => (mayStop_mergeSplit refuses _ _ diagonal).bind fun _ =>
    .lift_bind fun left => .lift_bind fun _ => .lift_bind fun right =>
      mayStop_mergeHeads refuses _ _ _ first left right

theorem mayStop_fillBlock (stop fuel out : Nat) :
    fault.MayStop (merge.fillBlock stop fuel out)
      ((merge.answering test).fillBlock stop fuel out) := by
  induction fuel generalizing out with
  | zero => exact .refl fault _
  | succ fuel ih =>
      rw [fillBlock, fillBlock]
      split
      · exact .lift_bind fun pair => (mayStop_fillWindow refuses _ out _).bind fun _ => ih _
      · exact .refl fault _

theorem mayStop_program (group : Group) :
    fault.MayStop (merge.program group) ((merge.answering test).program group) :=
  .lift_bind fun start => mayStop_fillBlock refuses _ _ start

end Steps

/-- At the start of a pair of runs there is nothing to search. -/
theorem mergeSplit_zero (less : Predicate (Element keyType)) (keys : Slice keyType)
    (left right : Span) : mergeSplit less keys left right 0 = .done 0 := by
  rw [mergeSplit, bisect_of_le _ (by omega), Nat.zero_sub]

/-- A group whose first window stops with a fault stops with it. -/
theorem faultsAt_program_of_fillWindow (positive : 0 < merge.runWidth)
    (small : merge.size ≤ Size.largest) (lanes : 0 < grid.lanes) {id place : Nat}
    (begins : id * grid.lanes = place) (inside : place < merge.size)
    (stops : ∀ last, place < last →
      (merge.fillWindow (base merge.runWidth place) place last).FaultsAt memory fault) :
    (merge.program ⟨id, grid⟩).FaultsAt memory fault := by
  have beyond := lt_base_add positive place
  refine .lift_bind ?_ (Size.mul_eq_ok (show id * grid.lanes ≤ Size.largest by omega))
  change (merge.fillBlock (min (Size.clampedAdd (id * grid.lanes) grid.lanes) merge.size)
    (min (Size.clampedAdd (id * grid.lanes) grid.lanes) merge.size - id * grid.lanes)
      (id * grid.lanes)).FaultsAt memory fault
  rw [Size.min_clampedAdd _ small, begins]
  generalize end_def : min (place + grid.lanes) merge.size = stop
  obtain ⟨count, counted⟩ := Nat.exists_eq_succ_of_ne_zero (show stop - place ≠ 0 by omega)
  rw [counted, fillBlock, if_pos (by omega)]
  refine .lift_bind ?_ (Size.div_eq_ok (Nat.ne_of_gt (Size.double_pos positive)))
  rw [div_double_mul _ (by omega)]
  exact (stops _ (by rw [Size.min_clampedAdd_double _ (by omega)]; omega)).bind _

section Heads

variable {place id : Nat} (sound : merge.Sound) (positive : 0 < merge.runWidth)
  (small : merge.size ≤ Size.largest) (inside : place < merge.size)
  (sibling : mid merge.size merge.runWidth place < stop merge.size merge.runWidth place)
include sound positive small inside sibling

/-- A merge from the start of a pair of runs begins with a comparison of their first keys. -/
theorem faultsAt_fillWindow (reads : (merge.answering test).Reads content after memory)
    (failed : merge.less (content (mid merge.size merge.runWidth place)).1
      (content (base merge.runWidth place)).1 = .error fault) {last : Nat}
    (nonempty : base merge.runWidth place < last) :
    (merge.fillWindow (base merge.runWidth place) (base merge.runWidth place) last).FaultsAt
      memory fault := by
  have stopLe := stop_le merge.size merge.runWidth place
  have fromBase := base_le merge.runWidth place
  have baseMid := base_lt_mid positive inside
  have middle : min (Size.clampedAdd (base merge.runWidth place) merge.runWidth) merge.size =
      mid merge.size merge.runWidth place := Size.min_clampedAdd _ small
  have ending : min (Size.clampedAdd (base merge.runWidth place)
        (Size.double merge.runWidth)) merge.size = stop merge.size merge.runWidth place :=
    Size.min_clampedAdd_double _ small
  have rightKey : (merge.source.keys.read (mid merge.size merge.runWidth place)).Performs memory
      _ [] _ := performs_readKey (sound.answering test) reads
    (show mid merge.size merge.runWidth place < merge.size by omega)
  have leftKey : (merge.source.keys.read (base merge.runWidth place)).Performs memory
      _ [] _ := performs_readKey (sound.answering test) reads
    (show base merge.runWidth place < merge.size by omega)
  refine .lift_bind ?_ (Size.sub_eq_ok (Nat.le_refl _))
  rw [Nat.sub_self, mergeSplit_zero]
  simp only [middle, ending]
  refine .lift_bind (.lift_bind (.lift_bind ?_ (Size.add_eq_ok (by omega)))
    (Size.sub_eq_ok (Nat.le_refl 0))) (Size.add_eq_ok (by omega))
  obtain ⟨count, counted⟩ := Nat.exists_eq_succ_of_ne_zero
    (show last - base merge.runWidth place ≠ 0 by omega)
  rw [counted, mergeHeads]
  apply Program.FaultsAt.bind
  rw [leftIsNext, if_neg (by omega), if_pos (by omega), Nat.sub_self, Nat.add_zero, Nat.add_zero]
  exact .bind_of_performs (.bind_of_performs (Program.faultsAt_lift_bind failed _ _) leftKey)
    rightKey

/-- The group that begins with a pair of runs makes this comparison. -/
theorem faultsAt_program (lanes : 0 < grid.lanes)
    (begins : id * grid.lanes = base merge.runWidth place)
    (reads : (merge.answering test).Reads content after memory)
    (failed : merge.less (content (mid merge.size merge.runWidth place)).1
      (content (base merge.runWidth place)).1 = .error fault) :
    (merge.program ⟨id, grid⟩).FaultsAt memory fault := by
  have fromBase := base_le merge.runWidth place
  refine faultsAt_program_of_fillWindow positive small lanes begins (by omega)
    fun last nonempty => ?_
  rw [base_base positive]
  exact faultsAt_fillWindow sound positive small inside sibling reads failed nonempty

end Heads

/-- A refused key that is a run of its own is the end of the first launch that has a run beside
it. -/
theorem exists_runGroups_of_refused (refuses : merge.less.Refuses test refused fault)
    (sound : merge.Sound) (fits : merge.Fits) (positive : 0 < merge.runWidth)
    (lanes : 0 < grid.lanes) (words : grid.groups * grid.lanes ≤ Size.largest)
    (everywhere : merge.size ≤ grid.groups * grid.lanes)
    (whole : grid.lanes ∣ 2 * merge.runWidth) (complete : order.Perm (List.range grid.groups))
    {place : Nat} (inside : place < merge.size) (alone : Alone merge.size merge.runWidth place)
    (sibling : mid merge.size merge.runWidth place < stop merge.size merge.runWidth place)
    (hit : refused (merge.source.get memory place).1) :
    ∃ final, Launch.runGroups merge.kernel grid order memory = (some fault, final) := by
  have reads : (merge.answering test).Reads (merge.source.get memory)
      (fun right left => test (merge.source.get memory right).1 (merge.source.get memory left).1)
      memory := ⟨fun _ _ => rfl, fun _ _ _ _ => rfl⟩
  have filled : (merge.answering test).kernel.Fills grid memory merge.target merge.size _ _ :=
    fills (sound.answering test) positive words ⟨fits.size_le, fits.reach_le⟩ reads
  have begins : base merge.runWidth place / grid.lanes * grid.lanes = base merge.runWidth place :=
    Nat.div_mul_cancel (whole.trans (Nat.dvd_mul_left _ _))
  have fromBase := base_le merge.runWidth place
  have present : base merge.runWidth place / grid.lanes < grid.groups := by
    apply Nat.lt_of_mul_lt_mul_right (a := grid.lanes)
    rw [begins]
    omega
  have failed : merge.less (merge.source.get memory (mid merge.size merge.runWidth place)).1
      (merge.source.get memory (base merge.runWidth place)).1 = .error fault := by
    apply refuses.faults
    rcases alone.eq_base_or_mid positive inside sibling with first | first
    · exact Or.inr (first ▸ hit)
    · exact Or.inl (first ▸ hit)
  refine filled.exists_runGroups_of_faultsAt (fun group => mayStop_program refuses group) complete
    present fun finished _ => ?_
  have windows : ∀ position ∈ finished.flatMap
      (fun earlier => (⟨earlier, grid⟩ : Group).window merge.size), position < merge.size := by
    intro position member
    obtain ⟨earlier, -, within⟩ := List.mem_flatMap.mp member
    exact Group.lt_of_mem_window within
  rw [Pairs.flatMap_fill]
  exact faultsAt_program sound positive fits.size_le inside sibling lanes begins
    (reads.storeAll_fill (sound.answering test) windows _) failed

end RunMerge

end GridSort
