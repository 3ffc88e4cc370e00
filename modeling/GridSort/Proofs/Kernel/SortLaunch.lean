import GridSort.Proofs.Kernel.Launches
import GridSort.Proofs.Merge.StableSort
import GridSort.Proofs.Sort.Arrangement

namespace GridSort

/-! One launch of the first kernel of a sort. Its groups sort their own windows, of whatever
length these are; a group that would begin beyond the end of the input faults. -/

namespace Program

variable {α β : Type} {result : Except Fault α} {next : α → Program β} {fault : Fault}

theorem faults_lift_bind (failed : result = .error fault) :
    ((liftM result : Program α) >>= next).Faults fault := by
  subst failed
  exact fun _ => rfl

theorem Faults.lift_bind {value : α} (succeeded : result = .ok value)
    (later : (next value).Faults fault) :
    ((liftM result : Program α) >>= next).Faults fault := by
  subst succeeded
  exact later

end Program

namespace Launch

variable {kernel : Kernel} {grid : Grid} {memory : Memory}
  {readable : Nat → Region → Prop} {writes : Nat → List Write}

/-- The groups before the first one that faults do what they would do alone. -/
theorem exists_runGroups_of_faults (apart : ReadsApart readable writes) {order : List Nat}
    (distinct : order.Nodup) {begun : Nat → Prop} [DecidablePred begun]
    (performs : ∀ id, begun id →
      (kernel.run ⟨id, grid⟩).Performs memory (readable id) (writes id) ())
    {causes : Fault → Prop}
    (faults : ∀ id ∈ order, ¬begun id →
      ∃ cause, (kernel.run ⟨id, grid⟩).Faults cause ∧ causes cause)
    (broken : ∃ id ∈ order, ¬begun id) :
    ∃ cause final, runGroups kernel grid order memory = (some cause, final) ∧ causes cause := by
  cases found : order.find? fun id => !decide (begun id) with
  | none =>
      obtain ⟨id, member, beyond⟩ := broken
      simpa [beyond] using List.find?_eq_none.mp found id member
  | some id =>
      -- All groups in front of this one have begun in time, whatever comes behind it.
      obtain ⟨beyond, front, rest, rfl, before⟩ := List.find?_eq_some_iff_append.mp found
      obtain ⟨cause, stops, caused⟩ := faults id
        (List.mem_append_right _ List.mem_cons_self) (by simpa using beyond)
      have reached := runGroups_of_readsApart apart (List.nodup_append.mp distinct).1
        fun other member => performs other (by simpa using before other member)
      have stopped := stops (memory.storeAll (front.flatMap writes))
      rw [runGroups_append_of_none reached, runGroups]
      cases ran : (kernel.run ⟨id, grid⟩).run (memory.storeAll (front.flatMap writes)) with
      | mk result final =>
          rw [ran] at stopped
          cases stopped
          exact ⟨cause, final, rfl, caused⟩

end Launch

namespace TileSort

variable {keyType valueType : ElementType} {sort : TileSort keyType valueType} {grid : Grid}
  {memory : Memory}

/-- A group beyond the end of the input faults before it does anything. -/
theorem exists_faults {id : Nat} (beyond : sort.size < id * grid.lanes) :
    ∃ cause, (sort.program ⟨id, grid⟩).Faults cause ∧
      (id * grid.lanes ≤ Size.largest → cause = .overflow .subtract) := by
  by_cases word : id * grid.lanes ≤ Size.largest
  · have short : Size.sub sort.size (id * grid.lanes) = .error (.overflow .subtract) :=
      if_neg (Nat.not_le.mpr beyond)
    exact ⟨.overflow .subtract,
      .lift_bind (Size.mul_eq_ok word) (Program.faults_lift_bind short), fun _ => rfl⟩
  · have overflows : Size.mul id grid.lanes = .error (.overflow .multiply) := if_neg word
    exact ⟨.overflow .multiply, Program.faults_lift_bind overflows,
      fun within => absurd within word⟩

/-- Under an order the predicate answers for all keys of the source. -/
theorem reads_source
    (orders : sort.less.WeaklyOrders (HeldBelow (sort.source.keys.get memory) sort.size)) :
    sort.Reads (sort.source.get memory)
      ((sort.less.on Prod.fst).answerAt (sort.source.get memory)) memory :=
  ⟨fun _ _ => rfl, fun _ _ => answerAt_eq (weaklyOrders_fst orders)⟩

section Launch

variable (sound : sort.Sound) (valid : grid.isValid = true) (small : sort.size ≤ Size.largest)
  (orders : sort.less.WeaklyOrders (HeldBelow (sort.source.keys.get memory) sort.size))
include sound valid small orders

/-- Every window is sorted stably, if every group begins in the input or at its end. -/
theorem exists_leadsTo_sorted (held : sort.target.SoundIn memory)
    (begun : (grid.groups - 1) * grid.lanes ≤ sort.size) :
    ∃ final, sort.kernel.LeadsTo grid memory final ∧
      (∀ id, id < grid.groups → StableSort (sort.less.on Prod.fst)
        (((⟨id, grid⟩ : Group).window sort.size).map (sort.source.get memory))
        (((⟨id, grid⟩ : Group).window sort.size).map (sort.target.get final))) ∧
      sort.target.ChangedBelow (min (grid.groups * grid.lanes) sort.size) memory final := by
  obtain ⟨-, positive, few⟩ := (Grid.isValid_iff grid).mp valid
  have byKey : (sort.less.on Prod.fst).WeaklyOrders
      (HeldBelow (sort.source.get memory) sort.size) := weaklyOrders_fst orders
  have inside : ∀ id, id < grid.groups → id * grid.lanes ≤ sort.size := fun id present =>
    Nat.le_trans (Nat.mul_le_mul_right _ (Nat.le_sub_one_of_lt present)) begun
  obtain ⟨final, leads, filled, changed⟩ :=
    (fills positive few small sound (reads_source orders) inside).exists_leadsTo sound.room held
      valid rfl
  refine ⟨final, leads, fun id present => ?_, changed⟩
  have sorted := (arranged_origin positive few
    (transitiveBelow_answerAt byKey)).stableSort_block positive byKey id
  have placed : ((⟨id, grid⟩ : Group).window sort.size).map (sort.target.get final) =
      (block sort.size grid.lanes id).map fun position => sort.source.get memory
        (origin ((sort.less.on Prod.fst).answerAt (sort.source.get memory)) sort.size grid.lanes
          position) := by
    apply List.map_congr_left
    intro position member
    have ends : (id + 1) * grid.lanes ≤ grid.groups * grid.lanes := Nat.mul_le_mul_right _ present
    have below := Group.mem_window.mp member
    exact filled position (Nat.lt_min.mpr ⟨Nat.lt_of_lt_of_le below.2.1 ends, below.2.2⟩)
  rw [placed]
  exact sorted

/-- A group that begins beyond the end is a fault, and the stream keeps it. -/
theorem exists_gives_fault (beyond : sort.size < (grid.groups - 1) * grid.lanes)
    {environment : Environment} {host : Host} (calm : environment.Calm)
    (settles : host.Settles memory) :
    ∃ cause rested, host.Gives environment sort.kernel grid
        (.error (.kernelFault "block_sort" cause)) rested ∧
      rested.stream = .atRest (some (.kernelFault "block_sort" cause)) ∧
      ((grid.groups - 1) * grid.lanes ≤ Size.largest → cause = .overflow .subtract) := by
  obtain ⟨nonempty, positive, few⟩ := (Grid.isValid_iff grid).mp valid
  have order := calm.order host.attempts.size grid.groups
  have faults : ∀ id ∈ environment.order host.attempts.size grid.groups,
      ¬id * grid.lanes ≤ sort.size → ∃ cause, (sort.kernel.run ⟨id, grid⟩).Faults cause ∧
        ((grid.groups - 1) * grid.lanes ≤ Size.largest → cause = .overflow .subtract) := by
    intro id member late
    have present := List.mem_range.mp (order.mem_iff.mp member)
    have within := Nat.mul_le_mul_right grid.lanes (Nat.le_sub_one_of_lt present)
    obtain ⟨cause, stops, caused⟩ := exists_faults (Nat.lt_of_not_le late)
    exact ⟨cause, stops, fun word => caused (Nat.le_trans within word)⟩
  obtain ⟨cause, final, ran, caused⟩ := Launch.exists_runGroups_of_faults
    (Kernel.readsApart_fill (sound.windowsApart grid) _) (order.nodup_iff.mpr List.nodup_range)
    (fun id begun => performs_program positive few small sound (reads_source orders).found begun
      ((reads_source orders).answersOn ⟨id, grid⟩) fun index member _ read =>
        ⟨index, member, read⟩) faults
    ⟨grid.groups - 1, order.mem_iff.mpr (List.mem_range.mpr (by omega)), Nat.not_le.mpr beyond⟩
  obtain ⟨rested, gives, rests, -⟩ := settles.exists_gives calm valid rfl ran
  exact ⟨cause, rested, gives, rests, caused⟩

/-- A launch on any grid sorts each window on its own and changes nothing else, as long as no
group begins beyond the end of the input. If one does, the launch is a fault that stays on the
stream. -/
theorem launch_sorts_windows (held : sort.target.SoundIn memory) :
    ((grid.groups - 1) * grid.lanes ≤ sort.size →
      ∃ final, sort.kernel.LeadsTo grid memory final ∧
        (∀ id, id < grid.groups → StableSort (sort.less.on Prod.fst)
          (((⟨id, grid⟩ : Group).window sort.size).map (sort.source.get memory))
          (((⟨id, grid⟩ : Group).window sort.size).map (sort.target.get final))) ∧
        sort.target.ChangedBelow (min (grid.groups * grid.lanes) sort.size) memory final) ∧
    (sort.size < (grid.groups - 1) * grid.lanes →
      ∀ (environment : Environment) (host : Host), environment.Calm → host.Settles memory →
        ∃ cause rested, host.Gives environment sort.kernel grid
            (.error (.kernelFault "block_sort" cause)) rested ∧
          rested.stream = .atRest (some (.kernelFault "block_sort" cause)) ∧
          ((grid.groups - 1) * grid.lanes ≤ Size.largest → cause = .overflow .subtract)) :=
  ⟨exists_leadsTo_sorted sound valid small orders held,
    fun beyond _ _ calm settles => exists_gives_fault sound valid small orders beyond calm settles⟩

end Launch

end TileSort

/-! Five pairs in groups of three lanes. Two groups sort windows of three and of two pairs; a
third one would begin beyond the end. -/

namespace SmallSort

def memory : Memory := ⟨#[#[5, 2, 5, 1, 0], #[9, 9, 9, 9, 9], Array.replicate 20 9]⟩

def sort : TileSort .byte (.unsigned .w32) :=
  ⟨⟨.slice ⟨0, 0, 5⟩, .counting 0⟩, ⟨⟨1, 0, 5⟩, ⟨2, 0, 5⟩⟩, 5, .less⟩

def host : Host := { stream := .idle, device := ⟨memory, #[]⟩ }

theorem separate : sort.source.Separate sort.target sort.size := by
  intro first second hfirst hsecond distinct region member other otherMember
  have only : region ∈ [(⟨0, 0, 5⟩ : Slice .byte).region first] := member
  rw [List.mem_singleton.mp only]
  rcases Pairs.mem_regions.mp otherMember with rfl | ⟨-, rfl⟩
  · exact Or.inr (Or.inr (Or.inl (show 0 ≠ 1 by decide)))
  · exact Or.inr (Or.inr (Or.inl (show 0 ≠ 2 by decide)))

theorem sound : sort.Sound where
  covers := ⟨Nat.le_refl 5, fun _ => trivial⟩
  room := ⟨Nat.le_refl 5, fun _ => Nat.le_refl 5⟩
  separate := separate

theorem held : sort.target.SoundIn memory where
  keys := by decide
  values := by decide
  apart := Or.inr (Or.inr (Or.inl (by decide)))

end SmallSort

theorem TileSort.launch_sorts_windows_small :
    (∃ final, SmallSort.sort.kernel.LeadsTo ⟨2, 3⟩ SmallSort.memory final ∧
      StableSort (Predicate.less.on Prod.fst) [(5, 0), (2, 1), (5, 2)]
        ([0, 1, 2].map (SmallSort.sort.target.get final)) ∧
      StableSort (Predicate.less.on Prod.fst) [(1, 3), (0, 4)]
        ([3, 4].map (SmallSort.sort.target.get final))) ∧
    ∃ rested, SmallSort.host.Gives .prompt SmallSort.sort.kernel ⟨3, 3⟩
        (.error (.kernelFault "block_sort" (.overflow .subtract))) rested ∧
      rested.stream = .atRest (some (.kernelFault "block_sort" (.overflow .subtract))) := by
  have orders : SmallSort.sort.less.WeaklyOrders
      (HeldBelow (SmallSort.sort.source.keys.get SmallSort.memory) SmallSort.sort.size) :=
    (Predicate.less_weaklyOrders _).mono fun key _ => ⟨_, rfl⟩
  obtain ⟨final, leads, sorted, -⟩ := (TileSort.launch_sorts_windows SmallSort.sound
    (show Grid.isValid ⟨2, 3⟩ = true from rfl) (by decide) orders SmallSort.held).1 (by decide)
  obtain ⟨cause, rested, gives, rests, caused⟩ := (TileSort.launch_sorts_windows SmallSort.sound
    (show Grid.isValid ⟨3, 3⟩ = true from rfl) (by decide) orders SmallSort.held).2 (by decide)
      .prompt SmallSort.host Environment.calm_prompt (Host.settles_of_idle rfl rfl rfl)
  obtain rfl := caused (by decide)
  exact ⟨⟨final, leads, sorted 0 (by decide), sorted 1 (by decide)⟩, rested, gives, rests⟩

end GridSort
