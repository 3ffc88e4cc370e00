import GridSort.Kernel.RunMerge
import GridSort.Proofs.Kernel.Fills
import GridSort.Proofs.Merge.Doublings
import GridSort.Proofs.Merge.Heads

namespace GridSort

namespace RunMerge

/-! What a merge pass does: whatever the predicate answers, each output is a pair of the
input, and which one depends on the answers alone. -/

open RunPair MergePass

variable {keyType valueType : ElementType} {merge : RunMerge keyType valueType}
  {content : Nat → Element keyType × Element valueType} {after : Nat → Nat → Bool}
  {memory : Memory} {readable : Region → Prop}

structure Sound (merge : RunMerge keyType valueType) : Prop where
  sourceRoom : merge.source.HasRoom merge.size
  targetRoom : merge.target.HasRoom merge.size
  apart : merge.source.Apart merge.target

/-- The source holds pairs whose keys the predicate can compare. -/
structure Reads (merge : RunMerge keyType valueType)
    (content : Nat → Element keyType × Element valueType) (after : Nat → Nat → Bool)
    (memory : Memory) : Prop where
  found : ∀ index, index < merge.size → merge.source.get memory index = content index
  answers : ∀ right left, right < merge.size → left < merge.size →
    merge.less (content right).1 (content left).1 = .ok (after right left)

/-- Places are words, and so are the sums of them that a search makes. -/
structure Fits (merge : RunMerge keyType valueType) : Prop where
  size_le : merge.size ≤ Size.largest
  reach_le : merge.size + min merge.runWidth merge.size ≤ Size.largest + 1

theorem fits_of_double (small : 2 * merge.size ≤ Size.largest) : merge.Fits :=
  ⟨by omega, by omega⟩

theorem fits_of_single (single : merge.runWidth = 1) (small : merge.size ≤ Size.largest) :
    merge.Fits :=
  ⟨small, by omega⟩

def readsSource (merge : RunMerge keyType valueType) (region : Region) : Prop :=
  ∃ index, index < merge.size ∧ region ∈ merge.source.regions index

theorem Reads.storeAll_writes (reads : merge.Reads content after memory)
    (sound : merge.Sound) {position : Nat} (inside : position < merge.size)
    (pair : Element keyType × Element valueType) :
    merge.Reads content after (memory.storeAll (merge.target.writes position pair)) := by
  refine ⟨fun index hindex => ?_, reads.answers⟩
  rw [sound.apart.get_storeAll_writes sound.sourceRoom sound.targetRoom hindex inside,
    reads.found index hindex]

theorem Reads.storeAll_fill (reads : merge.Reads content after memory)
    (sound : merge.Sound) {positions : List Nat}
    (inside : ∀ position ∈ positions, position < merge.size)
    (filled : Nat → Element keyType × Element valueType) :
    merge.Reads content after (memory.storeAll (merge.target.fill positions filled)) := by
  refine ⟨fun index hindex => ?_, reads.answers⟩
  rw [sound.apart.get_storeAll_fill sound.sourceRoom sound.targetRoom hindex inside,
    reads.found index hindex]

theorem performs_readKey (sound : merge.Sound) (reads : merge.Reads content after memory)
    {index : Nat} (inside : index < merge.size) :
    (merge.source.keys.read index).Performs memory merge.readsSource []
      (content index).1 := by
  have allowed : merge.readsSource (merge.source.keys.region index) :=
    ⟨index, inside, Pairs.mem_regions.mpr (Or.inl rfl)⟩
  rw [← reads.found index inside]
  exact Slice.performs_read (Nat.lt_of_lt_of_le inside sound.sourceRoom.1) allowed memory

theorem performs_move (sound : merge.Sound) (reads : merge.Reads content after memory)
    {origin position : Nat} (originInside : origin < merge.size)
    (inside : position < merge.size) :
    (merge.source.move merge.target origin position).Performs memory merge.readsSource
      (merge.target.writes position (content origin)) () := by
  have allowed : ∀ region ∈ merge.source.regions origin, merge.readsSource region :=
    fun region member => ⟨origin, originInside, member⟩
  rw [← reads.found origin originInside]
  exact Pairs.performs_move sound.sourceRoom sound.targetRoom originInside inside
    sound.apart.valuesKeys allowed memory

theorem performs_leftIsNext (sound : merge.Sound)
    (reads : merge.Reads content after memory) {mid stop : Nat} (heads : Heads)
    (midLe : mid ≤ merge.size) (stopLe : stop ≤ merge.size) :
    (merge.leftIsNext mid stop heads.left heads.right).Performs memory merge.readsSource []
      (heads.leftIsNext after mid stop) := by
  unfold leftIsNext Heads.leftIsNext
  by_cases usedUp : stop ≤ heads.right
  · simp only [usedUp, if_true, decide_true, Bool.true_or]
    exact .done true memory _
  · by_cases open_ : heads.left < mid
    · simp only [usedUp, open_, if_true, if_false, decide_true, decide_false, Bool.true_and,
        Bool.false_or]
      have right := performs_readKey sound reads (show heads.right < merge.size by omega)
      have left := performs_readKey sound reads (show heads.left < merge.size by omega)
      exact right.bind (left.bind (.lift_bind
        (reads.answers heads.right heads.left (by omega) (by omega)) (.done _ memory _)))
    · simp only [usedUp, open_, if_false, decide_false, Bool.false_and, Bool.false_or]
      exact .done false memory _

/-- The output that a merge from these heads makes at its position. -/
theorem performs_mergeHeads (sound : merge.Sound) (small : merge.size ≤ Size.largest)
    {base mid stop count out : Nat} {heads : Heads}
    (reads : merge.Reads content after memory)
    (runs : heads.InRuns base mid stop out) (room : out + count ≤ stop)
    (midLe : mid ≤ merge.size) (stopLe : stop ≤ merge.size) :
    (merge.mergeHeads mid stop count out heads.left heads.right).Performs memory
      merge.readsSource
      (merge.target.fill (List.range' out count) fun position =>
        content ((heads.advance after mid stop (position - out)).next after mid stop)) () := by
  induction count generalizing out heads memory with
  | zero =>
      rw [mergeHeads, List.range'_zero]
      exact .done () memory _
  | succ count ih =>
      have outInside : out < merge.size := by omega
      have nextInside := (runs.next_mem (by omega) after).2
      have laterRuns := runs.step (by omega) after
      have chosen := performs_leftIsNext sound reads heads midLe stopLe
      have moved := performs_move sound reads
        (show heads.next after mid stop < merge.size by omega) outInside
      have rest := ih (reads.storeAll_writes sound outInside
        (content (heads.next after mid stop))) laterRuns (by omega)
      have joined : merge.target.fill (List.range' out (count + 1)) (fun position =>
            content ((heads.advance after mid stop (position - out)).next after mid stop)) =
          merge.target.writes out (content (heads.next after mid stop)) ++
            merge.target.fill (List.range' (out + 1) count) (fun position =>
              content (((heads.step after mid stop).advance after mid stop
                (position - (out + 1))).next after mid stop)) := by
        rw [List.range'_succ, Pairs.fill, List.flatMap_cons, Nat.sub_self, Heads.advance]
        refine congrArg _ (Pairs.fill_congr fun position member => ?_)
        have later : position - out = position - (out + 1) + 1 := by
          have := (List.mem_range'_1.mp member).1
          omega
        rw [later, Heads.advance]
      obtain ⟨-, left_le, -, right_le, -⟩ := runs
      rw [joined, mergeHeads]
      refine chosen.bind ?_
      cases isLeft : heads.leftIsNext after mid stop with
      | true =>
          rw [Heads.next_of_left isLeft] at nextInside moved rest ⊢
          rw [Heads.step_of_left isLeft] at rest ⊢
          rw [if_pos rfl]
          exact .lift_bind (Size.add_eq_ok (by omega)) (moved.bind rest)
      | false =>
          rw [Heads.next_of_right isLeft] at nextInside moved rest ⊢
          rw [Heads.step_of_right isLeft] at rest ⊢
          rw [if_neg Bool.false_ne_true]
          exact .lift_bind (Size.add_eq_ok (by omega)) (moved.bind rest)

theorem performs_mergeSplit (sound : merge.Sound) (fits : merge.Fits)
    (reads : merge.Reads content after memory) {out diagonal : Nat}
    (inside : out < merge.size) (early : base merge.runWidth out + diagonal < merge.size) :
    (mergeSplit merge.less merge.source.keys
      ⟨base merge.runWidth out, mid merge.size merge.runWidth out⟩
      ⟨mid merge.size merge.runWidth out, stop merge.size merge.runWidth out⟩
      diagonal).Performs memory merge.readsSource []
      (split after merge.size merge.runWidth out diagonal) := by
  have baseMid := base_le_mid merge.runWidth inside
  have midStop := mid_le_stop merge.size merge.runWidth out
  have stopLe := stop_le merge.size merge.runWidth out
  have midLe : mid merge.size merge.runWidth out ≤ base merge.runWidth out + merge.runWidth :=
    Nat.min_le_left _ _
  obtain ⟨sizeLe, reachLe⟩ := fits
  apply performs_bisect
  intro candidate low high
  dsimp only [Span.length] at low high
  have left := performs_readKey sound reads
    (show base merge.runWidth out + candidate < merge.size by omega)
  have right := performs_readKey sound reads
    (show mid merge.size merge.runWidth out + diagonal - 1 - candidate < merge.size by omega)
  have leftPlace : Size.add (base merge.runWidth out) candidate =
      .ok (base merge.runWidth out + candidate) := Size.add_eq_ok (by omega)
  have reach : Size.add (mid merge.size merge.runWidth out) diagonal =
      .ok (mid merge.size merge.runWidth out + diagonal) := Size.add_eq_ok (by omega)
  exact .lift_bind leftPlace (left.bind (.lift_bind reach
    (.lift_bind (Size.sub_eq_ok (by omega)) (.lift_bind (Size.sub_eq_ok (by omega))
      (right.bind (.lift (reads.answers _ _ (by omega) (by omega)) memory _))))))

/-- The content of a position in the output of a pass whose groups have `lanes` lanes. -/
def output (content : Nat → Element keyType × Element valueType) (after : Nat → Nat → Bool)
    (size width lanes position : Nat) : Element keyType × Element valueType :=
  content (origin after size width lanes position)

theorem performs_fillWindow (sound : merge.Sound) (fits : merge.Fits)
    (reads : merge.Reads content after memory) {lanes start last : Nat}
    (inside : start < merge.size) (lastLe : last ≤ stop merge.size merge.runWidth start)
    (startLe : start ≤ last) (firsts : ∀ position, start ≤ position → position < last →
      first merge.runWidth lanes position = start) :
    (merge.fillWindow (base merge.runWidth start) start last).Performs memory
      merge.readsSource
      (merge.target.fill (List.range' start (last - start))
        (output content after merge.size merge.runWidth lanes)) () := by
  have fromBase := base_le merge.runWidth start
  have baseMid := base_le_mid merge.runWidth inside
  have midStop := mid_le_stop merge.size merge.runWidth start
  have stopLe := stop_le merge.size merge.runWidth start
  have sizeLe := fits.size_le
  have middle : min (Size.clampedAdd (base merge.runWidth start) merge.runWidth) merge.size =
      mid merge.size merge.runWidth start := Size.min_clampedAdd _ (by omega)
  have ending : min (Size.clampedAdd (base merge.runWidth start)
        (Size.double merge.runWidth)) merge.size = stop merge.size merge.runWidth start :=
    Size.min_clampedAdd_double _ (by omega)
  have inPair : base merge.runWidth start + (start - base merge.runWidth start) ≤
      stop merge.size merge.runWidth start := by omega
  have early : base merge.runWidth start + (start - base merge.runWidth start) < merge.size := by
    omega
  have searched := performs_mergeSplit sound fits reads inside early
  have cuts := cuts_split after inPair
  have lower := cuts.lower
  have upper := cuts.upper
  have runs := inRuns_start after inside inPair
  rw [Nat.add_sub_cancel' fromBase] at runs
  have room : start + (last - start) ≤ stop merge.size merge.runWidth start := by omega
  have merged := performs_mergeHeads sound sizeLe reads runs room (by omega) stopLe
  have same : merge.target.fill (List.range' start (last - start))
        (output content after merge.size merge.runWidth lanes) =
      merge.target.fill (List.range' start (last - start)) fun position =>
        content (((MergePass.start after merge.size merge.runWidth start
          (start - base merge.runWidth start)).advance after
            (mid merge.size merge.runWidth start) (stop merge.size merge.runWidth start)
            (position - start)).next after (mid merge.size merge.runWidth start)
              (stop merge.size merge.runWidth start)) := by
    apply Pairs.fill_congr
    intro position member
    obtain ⟨low, high⟩ := List.mem_range'_1.mp member
    have pair : position / (2 * merge.runWidth) = start / (2 * merge.runWidth) :=
      pair_eq_of_mem merge.size (Nat.le_trans fromBase low) (by omega)
    unfold output origin heads MergePass.start split
    rw [firsts position low (by omega), base_congr pair, mid_congr merge.size pair,
      stop_congr merge.size pair]
  rw [same]
  simp only [fillWindow, middle, ending]
  exact .lift_bind (Size.sub_eq_ok fromBase) (searched.bind
    (.lift_bind (Size.add_eq_ok (by omega)) (.lift_bind (Size.sub_eq_ok (by omega))
      (.lift_bind (Size.add_eq_ok (by omega)) merged))))

/-- Where twice the width is no word, all positions are in the first pair of runs. -/
theorem div_double_mul (width : Nat) {out : Nat} (inside : out < Size.largest) :
    out / Size.double width * Size.double width = base width out := by
  by_cases whole : 2 * width ≤ Size.largest
  · rw [Size.double_eq whole, base]
  · have clamped : Size.double width = Size.largest := Nat.min_eq_right (by omega)
    rw [clamped, base, Nat.div_eq_of_lt inside, Nat.div_eq_of_lt (by omega), Nat.zero_mul,
      Nat.zero_mul]

/-- Windows begin where their group or their pair of runs begins. -/
theorem performs_fillBlock (sound : merge.Sound) (fits : merge.Fits)
    (reads : merge.Reads content after memory) {lanes id stop fuel out : Nat}
    (positive : 0 < merge.runWidth) (stopLe : stop ≤ merge.size)
    (stopInGroup : stop ≤ (id + 1) * lanes) (enough : stop - out ≤ fuel)
    (begins : out < stop → out = max (base merge.runWidth out) (id * lanes)) :
    (merge.fillBlock stop fuel out).Performs memory merge.readsSource
      (merge.target.fill (List.range' out (stop - out))
        (output content after merge.size merge.runWidth lanes)) () := by
  induction fuel generalizing out memory with
  | zero =>
      have empty : stop - out = 0 := by omega
      rw [fillBlock, empty, List.range'_zero]
      exact .done () memory _
  | succ fuel ih =>
      rw [fillBlock]
      by_cases inside : out < stop
      · have sizeLe := fits.size_le
        have fromBase := base_le merge.runWidth out
        have beforeEnd := lt_base_add positive out
        have division : Size.div out (Size.double merge.runWidth) =
            .ok (out / Size.double merge.runWidth) :=
          Size.div_eq_ok (Nat.ne_of_gt (Size.double_pos positive))
        have last_eq : min (Size.clampedAdd (base merge.runWidth out)
              (Size.double merge.runWidth)) stop =
            min (base merge.runWidth out + 2 * merge.runWidth) stop :=
          Size.min_clampedAdd_double _ (by omega)
        generalize last_def : min (base merge.runWidth out + 2 * merge.runWidth) stop = last
          at last_eq
        have lastInPair : last ≤ RunPair.stop merge.size merge.runWidth out := by
          rw [RunPair.stop]
          omega
        have firsts : ∀ position, out ≤ position → position < last →
            first merge.runWidth lanes position = out := fun position low high =>
          first_eq_of_mem (begins inside) low (by omega) (by omega)
        have windowInside : ∀ position ∈ List.range' out (last - out),
            position < merge.size := by
          intro position member
          have := (List.mem_range'_1.mp member).2
          omega
        have laterBegins : last < stop → last = max (base merge.runWidth last) (id * lanes) := by
          intro more
          have atEnd : last = base merge.runWidth out + 2 * merge.runWidth := by omega
          have multiple : base merge.runWidth last = last := by
            rw [atEnd, base_base_add positive]
          have := begins inside
          omega
        have window := performs_fillWindow sound fits reads
          (Nat.lt_of_lt_of_le inside stopLe) lastInPair (by omega) firsts
        have rest := ih (reads.storeAll_fill sound windowInside
          (output content after merge.size merge.runWidth lanes)) (by omega) laterBegins
        have joined : List.range' out (stop - out) =
            List.range' out (last - out) ++ List.range' last (stop - last) :=
          range'_sub_append (by omega) (by omega)
        rw [if_pos inside, joined, Pairs.fill_append]
        refine .lift_bind division ?_
        have pairWidth : out / Size.double merge.runWidth * Size.double merge.runWidth =
            base merge.runWidth out := div_double_mul _ (by omega)
        simp only [pairWidth, last_eq]
        exact window.bind rest
      · have empty : stop - out = 0 := by omega
        rw [if_neg inside, empty, List.range'_zero]
        exact .done () memory _

/-- Any grid will do whose positions are words. -/
theorem fills (sound : merge.Sound) {grid : Grid} (positive : 0 < merge.runWidth)
    (words : grid.groups * grid.lanes ≤ Size.largest) (fits : merge.Fits)
    (reads : merge.Reads content after memory) :
    merge.kernel.Fills grid memory merge.target merge.size (fun _ => merge.readsSource)
      (output content after merge.size merge.runWidth grid.lanes) := by
  refine ⟨?_, ?_⟩
  · intro id inside
    have sizeLe := fits.size_le
    have whole : (id + 1) * grid.lanes ≤ grid.groups * grid.lanes :=
      Nat.mul_le_mul_right _ inside
    rw [Nat.succ_mul] at whole
    have start : Size.mul id grid.lanes = .ok (id * grid.lanes) := Size.mul_eq_ok (by omega)
    have stop_eq : min (Size.clampedAdd (id * grid.lanes) grid.lanes) merge.size =
        min ((id + 1) * grid.lanes) merge.size := by
      rw [Size.min_clampedAdd _ (by omega), Nat.succ_mul]
    have begins : id * grid.lanes =
        max (base merge.runWidth (id * grid.lanes)) (id * grid.lanes) :=
      (Nat.max_eq_right (base_le merge.runWidth (id * grid.lanes))).symm
    have block := performs_fillBlock sound fits reads positive
      (Nat.min_le_right _ _) (Nat.min_le_left _ _) (Nat.le_refl _) fun _ => begins
    have window : (⟨id, grid⟩ : Group).window merge.size =
        List.range' (id * grid.lanes)
          (min ((id + 1) * grid.lanes) merge.size - id * grid.lanes) := by
      unfold Group.window
      congr 1
      change min grid.lanes (merge.size - id * grid.lanes) = _
      rw [Nat.succ_mul]
      omega
    rw [window]
    refine .lift_bind start ?_
    change (merge.fillBlock (min (Size.clampedAdd (id * grid.lanes) grid.lanes) merge.size)
      (min (Size.clampedAdd (id * grid.lanes) grid.lanes) merge.size - id * grid.lanes)
        (id * grid.lanes)).Performs memory _ _ ()
    rw [stop_eq]
    exact block
  · rintro reader writer - region ⟨origin, horigin, member⟩ index hindex other otherMember
    exact sound.apart.regions sound.sourceRoom sound.targetRoom horigin
      (Group.lt_of_mem_window hindex) member otherMember

end RunMerge

end GridSort
