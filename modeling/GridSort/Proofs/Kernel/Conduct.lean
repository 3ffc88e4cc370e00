import GridSort.Kernel.Copy
import GridSort.Kernel.RunMerge
import GridSort.Kernel.TileSort
import GridSort.Proofs.Kernel.RunMerge
import GridSort.Proofs.Merge.Rounds
import GridSort.Proofs.Program.Conduct

namespace GridSort

/-! How the kernels of a sort conduct themselves. Their indices stay in bounds by arithmetic
alone, whatever the memory holds, whatever the predicate answers and whichever regions overlap.
What can fault is the predicate, the first kernel where its input is too short, and a merge pass
where the search for the start of a window adds up to more than a word. -/

variable {type keyType valueType : ElementType} {writable : Region → Prop}
  {faults : Fault → Prop} {size index : Nat}

theorem Program.Keeps.of_ends {result : Except Fault α} {promise : α → Prop}
    (h : Ends faults promise result) : (ofExcept result).Keeps writable faults promise := by
  cases result with
  | ok value => exact h
  | error fault => exact h

theorem Slice.keeps_read {slice : Slice type} (inside : index < slice.length) :
    (slice.read index).Keeps writable faults fun _ => True := by
  rw [read, if_pos inside]
  exact fun _ => trivial

theorem Slice.keeps_write {slice : Slice type} (inside : index < slice.length)
    (allowed : writable (slice.region index)) (element : Element type) :
    (slice.write index element).Keeps writable faults fun _ => True := by
  rw [write, if_pos inside]
  refine ⟨?_, trivial⟩
  rw [Element.length_encode]
  exact allowed

namespace Input

/-- The fault of a read below `size` where the input has ended. -/
def Misses (input : Input type) (size : Nat) (fault : Fault) : Prop :=
  match input with
  | .slice source => ∃ index, index < size ∧ source.length ≤ index ∧
      fault = .readOutOfBounds index source.length
  | .counting _ => False

theorem not_misses {input : Input type} (covers : input.Covers size) (fault : Fault) :
    ¬input.Misses size fault := by
  cases input with
  | counting start => exact id
  | slice source =>
      rintro ⟨index, inside, beyond, -⟩
      exact Nat.lt_irrefl _ (Nat.lt_of_lt_of_le inside (Nat.le_trans covers beyond))

theorem keeps_read {input : Input type} (inside : index < size)
    (known : ∀ fault, input.Misses size fault → faults fault) :
    (input.read index).Keeps writable faults fun _ => input.Covers (index + 1) := by
  cases input with
  | counting start => exact trivial
  | slice source =>
      rw [read, Slice.read]
      split
      · exact fun _ => Nat.succ_le_of_lt ‹_›
      · exact known _ ⟨index, inside, Nat.le_of_not_lt ‹_›, rfl⟩

end Input

namespace Source

/-- The fault of a read below `size` where the keys or the values have ended. -/
def Misses (source : Source keyType valueType) (size : Nat) (fault : Fault) : Prop :=
  source.keys.Misses size fault ∨ valueType.isStored = true ∧ source.values.Misses size fault

theorem Misses.of_keys {source : Source keyType valueType} {fault : Fault}
    (missed : source.keys.Misses size fault) : source.Misses size fault := Or.inl missed

theorem Misses.of_values {source : Source keyType valueType} {fault : Fault}
    (stored : valueType.isStored = true) (missed : source.values.Misses size fault) :
    source.Misses size fault := Or.inr ⟨stored, missed⟩

theorem keeps_read {source : Source keyType valueType} (inside : index < size) :
    (source.read index).Keeps writable (source.Misses size) fun _ =>
      source.Covers (index + 1) := by
  refine (Input.keeps_read inside fun _ => Misses.of_keys).bind fun key keyCovers => ?_
  cases stored : valueType.isStored with
  | true =>
      rw [if_pos rfl]
      exact (Input.keeps_read inside fun _ => Misses.of_values stored).bind
        fun value valueCovers => .done ⟨keyCovers, fun _ => valueCovers⟩
  | false =>
      rw [if_neg Bool.false_ne_true]
      exact .done ⟨keyCovers, fun isStored => nomatch stored.symm.trans isStored⟩

theorem not_misses {source : Source keyType valueType} (covers : source.Covers size)
    (fault : Fault) : ¬source.Misses size fault := by
  rintro (missed | ⟨stored, missed⟩)
  · exact Input.not_misses covers.1 fault missed
  · exact Input.not_misses (covers.2 stored) fault missed

theorem covers_of_forall {source : Source keyType valueType} (nonempty : size ≠ 0)
    (each : ∀ index, index < size → source.Covers (index + 1)) : source.Covers size := by
  obtain ⟨last, rfl⟩ := Nat.exists_eq_succ_of_ne_zero nonempty
  exact each last (Nat.lt_succ_self last)

end Source

namespace Pairs

variable {pairs source target : Pairs keyType valueType}

theorem keeps_write (room : pairs.HasRoom size) (inside : index < size)
    (allowed : ∀ region ∈ pairs.regions index, writable region)
    (pair : Element keyType × Element valueType) :
    (pairs.write index pair).Keeps writable faults fun _ => True := by
  have key : (pairs.keys.write index pair.1).Keeps writable faults fun _ => True :=
    Slice.keeps_write (Nat.lt_of_lt_of_le inside room.1)
      (allowed _ (mem_regions.mpr (Or.inl rfl))) pair.1
  refine key.bind fun _ _ => ?_
  cases stored : valueType.isStored with
  | true =>
      exact Slice.keeps_write (Nat.lt_of_lt_of_le inside (room.2 stored))
        (allowed _ (mem_regions.mpr (Or.inr ⟨stored, rfl⟩))) pair.2
  | false => exact .done trivial

theorem keeps_move {origin : Nat} (sourceRoom : source.HasRoom size)
    (targetRoom : target.HasRoom size) (originInside : origin < size) (inside : index < size)
    (allowed : ∀ region ∈ target.regions index, writable region) :
    (source.move target origin index).Keeps writable faults fun _ => True := by
  refine (Slice.keeps_read (Nat.lt_of_lt_of_le originInside sourceRoom.1)).bind fun key _ => ?_
  refine (Slice.keeps_write (Nat.lt_of_lt_of_le inside targetRoom.1)
    (allowed _ (mem_regions.mpr (Or.inl rfl))) key).bind fun _ _ => ?_
  cases stored : valueType.isStored with
  | true =>
      exact (Slice.keeps_read (Nat.lt_of_lt_of_le originInside (sourceRoom.2 stored))).bind
        fun value _ => Slice.keeps_write (Nat.lt_of_lt_of_le inside (targetRoom.2 stored))
          (allowed _ (mem_regions.mpr (Or.inr ⟨stored, rfl⟩))) value
  | false => exact .done trivial

end Pairs

namespace TileSort

variable {sort : TileSort keyType valueType}

theorem keeps_load (missed : ∀ fault, sort.source.Misses sort.size fault → faults fault)
    (small : sort.size ≤ Size.largest) {offset count : Nat} (inside : offset + count ≤ sort.size) :
    (sort.load offset count).Keeps writable faults fun loaded =>
      loaded.length = count ∧
        ∀ position ∈ List.range' offset count, sort.source.Covers (position + 1) := by
  have each : ∀ lane ∈ List.range count,
      ((do sort.source.read (← Size.add offset lane)) : Program _).Keeps writable
        faults fun _ => sort.source.Covers (offset + lane + 1) := by
    intro lane member
    have below := List.mem_range.mp member
    exact .lift_bind (Size.add_eq_ok (by omega))
      ((Source.keeps_read (by omega)).weaken_faults missed)
  refine (Program.Keeps.mapM each).mono fun loaded ended => ?_
  refine ⟨ended.1.trans List.length_range, fun position member => ?_⟩
  obtain ⟨low, high⟩ := List.mem_range'_1.mp member
  have covers := ended.2 (position - offset) (List.mem_range.mpr (by omega))
  rwa [Nat.add_sub_cancel' low] at covers

theorem keeps_store (room : sort.target.HasRoom sort.size) (small : sort.size ≤ Size.largest)
    (allowed : ∀ index, index < sort.size →
      ∀ region ∈ sort.target.regions index, writable region) {offset lane : Nat}
    {pairs : List (Element keyType × Element valueType)}
    (inside : offset + lane + pairs.length ≤ sort.size) :
    (sort.store offset lane pairs).Keeps writable faults fun _ => True := by
  induction pairs generalizing lane with
  | nil => exact .done trivial
  | cons pair rest ih =>
      rw [List.length_cons] at inside
      have here : offset + lane < sort.size := by omega
      rw [store]
      exact .lift_bind (Size.add_eq_ok (by omega))
        ((Pairs.keeps_write room here (allowed _ here) pair).bind fun _ _ => ih (by omega))

theorem keeps_program (missed : ∀ fault, sort.source.Misses sort.size fault → faults fault)
    (known : sort.less.FaultsWithin faults) (room : sort.target.HasRoom sort.size)
    (allowed : ∀ index, index < sort.size →
      ∀ region ∈ sort.target.regions index, writable region) {grid : Grid} {id : Nat}
    (few : grid.lanes ≤ Grid.maxLanes) (small : sort.size ≤ Size.largest)
    (begun : id * grid.lanes < sort.size) :
    (sort.program ⟨id, grid⟩).Keeps writable faults fun _ =>
      ∀ position ∈ (⟨id, grid⟩ : Group).window sort.size,
        sort.source.Covers (position + 1) := by
  have lanesLe : grid.lanes ≤ 1024 := few
  have largest : Size.largest = 2 ^ 64 - 1 := rfl
  have start : Size.mul id grid.lanes = .ok (id * grid.lanes) := Size.mul_eq_ok (by omega)
  have rest : Size.sub sort.size (id * grid.lanes) = .ok (sort.size - id * grid.lanes) :=
    Size.sub_eq_ok (by omega)
  have loading : (sort.load (id * grid.lanes) (min grid.lanes (sort.size - id * grid.lanes))).Keeps
      writable faults _ := keeps_load missed small (by omega)
  refine .lift_bind start (.lift_bind rest (loading.bind fun loaded ended => ?_))
  obtain ⟨length, covers⟩ := ended
  have tile : 2 * loaded.toArray.size ≤ Size.largest := by
    rw [List.size_toArray, length]
    omega
  have sorting : (Program.ofExcept
      (Tile.sort (sort.less.on Prod.fst) loaded.toArray)).Keeps writable faults _ :=
    .of_ends (Tile.ends_sort (known.on Prod.fst) tile)
  refine sorting.bind fun sorted size => ?_
  have count : sorted.toList.length = min grid.lanes (sort.size - id * grid.lanes) :=
    size.trans length
  refine (keeps_store room small allowed ?_).mono ?_
  · rw [count]
    omega
  · exact fun _ _ => covers

end TileSort

theorem keeps_bisect {test : Nat → Program Bool} {low high : Nat} (ordered : low ≤ high)
    (each : ∀ candidate, low ≤ candidate → candidate < high →
      (test candidate).Keeps writable faults fun _ => True) :
    (bisect test low high).Keeps writable faults fun place => low ≤ place ∧ place ≤ high := by
  fun_induction bisect test low high with
  | case1 low high inside lower upper =>
      have below : low + (high - low) / 2 < high := by omega
      refine (each _ (Nat.le_add_right _ _) below).bind fun crossed _ => ?_
      cases crossed with
      | true =>
          exact (lower (Nat.le_add_right _ _) fun candidate hlow hhigh =>
            each candidate hlow (by omega)).mono fun place within => ⟨within.1, by omega⟩
      | false =>
          exact (upper below fun candidate hlow hhigh =>
            each candidate (by omega) hhigh).mono fun place within => ⟨by omega, within.2⟩
  | case2 low high outside => exact ⟨Nat.le_refl low, ordered⟩

/-- A search for the start of a window that begins at this place makes a sum that is no word. Its
pair of runs has begun before the place and has a right run, and a width from the place on there
are no words left. -/
structure RunPair.Overreaches (size width place : Nat) : Prop where
  begun : base width place < place
  merged : base width place + width < size
  beyond : Size.largest < place + width

/-- A sum of two places of half the words is a word. -/
theorem RunPair.not_overreaches {size place : Nat} (half : 2 * size ≤ Size.limit)
    (inside : place < size) (width : Nat) : ¬Overreaches size width place := by
  rintro ⟨-, merged, beyond⟩
  have words : Size.limit = Size.largest + 1 := rfl
  omega

namespace RunMerge

open RunPair

variable {merge : RunMerge keyType valueType}

theorem keeps_readKey (sourceRoom : merge.source.HasRoom merge.size) {index : Nat}
    (inside : index < merge.size) :
    (merge.source.keys.read index).Keeps writable faults fun _ => True :=
  Slice.keeps_read (Nat.lt_of_lt_of_le inside sourceRoom.1)

section

variable (known : merge.less.FaultsWithin faults) (sourceRoom : merge.source.HasRoom merge.size)
  (targetRoom : merge.target.HasRoom merge.size)
  (allowed : ∀ index, index < merge.size →
    ∀ region ∈ merge.target.regions index, writable region)
  (small : merge.size ≤ Size.largest)
include known sourceRoom

/-- The run that is next has a head. -/
theorem keeps_leftIsNext {mid stop left right : Nat} (midLe : mid ≤ merge.size)
    (stopLe : stop ≤ merge.size) (more : 0 < mid - left + (stop - right)) :
    (merge.leftIsNext mid stop left right).Keeps writable faults fun isLeft =>
      if isLeft then left < mid else right < stop := by
  rw [leftIsNext]
  split
  · exact .done (show left < mid by omega)
  · split
    · refine (keeps_readKey sourceRoom (by omega)).bind fun rightKey _ =>
        (keeps_readKey sourceRoom (by omega)).bind fun leftKey _ =>
          (Program.Keeps.of_ends (known.ends rightKey leftKey)).bind fun rightFirst _ => ?_
      cases rightFirst with
      | true => exact .done (show right < stop by omega)
      | false => exact .done (show left < mid by omega)
    · exact .done (show right < stop by omega)

/-- Nothing is added up unless there is something to search. -/
theorem keeps_mergeSplit {base mid stop diagonal : Nat} (baseMid : base ≤ mid)
    (midStop : mid ≤ stop) (stopLe : stop ≤ merge.size) (inPair : base + diagonal ≤ stop)
    (small : merge.size ≤ Size.largest)
    (reach : 0 < diagonal → mid < stop → mid + diagonal ≤ Size.largest) :
    (mergeSplit merge.less merge.source.keys ⟨base, mid⟩ ⟨mid, stop⟩ diagonal).Keeps writable
      faults fun taken => taken ≤ diagonal ∧ base + taken ≤ mid ∧
        mid + (diagonal - taken) ≤ stop := by
  refine (keeps_bisect ?_ fun candidate low high => ?_).mono fun taken within => ?_
  · dsimp only [Span.length]
    omega
  · dsimp only [Span.length] at low high
    have sum := reach (by omega) (by omega)
    refine .lift_bind (Size.add_eq_ok (show base + candidate ≤ Size.largest by omega)) ?_
    refine (keeps_readKey sourceRoom (show base + candidate < merge.size by omega)).bind
      fun leftKey _ => ?_
    refine .lift_bind (Size.add_eq_ok sum) ?_
    refine .lift_bind (Size.sub_eq_ok (by omega)) (.lift_bind (Size.sub_eq_ok (by omega)) ?_)
    refine (keeps_readKey sourceRoom
      (show mid + diagonal - 1 - candidate < merge.size by omega)).bind fun rightKey _ => ?_
    exact .of_ends (known.ends rightKey leftKey)
  · dsimp only [Span.length] at within
    omega

include targetRoom allowed small

theorem keeps_mergeHeads {mid stop count out left right : Nat} (midLe : mid ≤ merge.size)
    (stopLe : stop ≤ merge.size) (leftLe : left ≤ mid) (rightLe : right ≤ stop)
    (enough : count ≤ mid - left + (stop - right)) (room : out + count ≤ merge.size) :
    (merge.mergeHeads mid stop count out left right).Keeps writable faults fun _ => True := by
  induction count generalizing out left right with
  | zero => exact .done trivial
  | succ count ih =>
      have here : out < merge.size := by omega
      rw [mergeHeads]
      refine (keeps_leftIsNext known sourceRoom midLe stopLe (by omega)).bind
        fun isLeft hasHead => ?_
      cases isLeft with
      | true =>
          have head : left < mid := hasHead
          refine .lift_bind (Size.add_eq_ok (by omega)) ?_
          exact (Pairs.keeps_move sourceRoom targetRoom (by omega) here
            (allowed out here)).bind fun _ _ =>
              ih (by omega) rightLe (by omega) (by omega)
      | false =>
          have head : right < stop := hasHead
          refine .lift_bind (Size.add_eq_ok (by omega)) ?_
          exact (Pairs.keeps_move sourceRoom targetRoom (by omega) here
            (allowed out here)).bind fun _ _ =>
              ih leftLe (by omega) (by omega) (by omega)

theorem keeps_fillWindow {place last : Nat} (ordered : place ≤ last)
    (inside : place < merge.size) (lastLe : last ≤ stop merge.size merge.runWidth place)
    (within : ¬Overreaches merge.size merge.runWidth place) :
    (merge.fillWindow (base merge.runWidth place) place last).Keeps writable faults
      fun _ => True := by
  have fromBase := base_le merge.runWidth place
  have baseMid := base_le_mid merge.runWidth inside
  have midStop := mid_le_stop merge.size merge.runWidth place
  have stopLe := stop_le merge.size merge.runWidth place
  have middle : min (Size.clampedAdd (base merge.runWidth place) merge.runWidth) merge.size =
      mid merge.size merge.runWidth place := Size.min_clampedAdd _ small
  have ending : min (Size.clampedAdd (base merge.runWidth place)
        (Size.double merge.runWidth)) merge.size = stop merge.size merge.runWidth place :=
    Size.min_clampedAdd_double _ small
  have reach : 0 < place - base merge.runWidth place →
      mid merge.size merge.runWidth place < stop merge.size merge.runWidth place →
        mid merge.size merge.runWidth place + (place - base merge.runWidth place) ≤
          Size.largest := by
    intro begun sibling
    apply Nat.le_of_not_lt
    intro beyond
    unfold mid at sibling beyond
    exact within ⟨by omega, by omega, by omega⟩
  rw [fillWindow, middle, ending]
  generalize base merge.runWidth place = start at *
  generalize mid merge.size merge.runWidth place = middle at *
  generalize stop merge.size merge.runWidth place = ending at *
  refine .lift_bind (Size.sub_eq_ok fromBase) ?_
  refine (keeps_mergeSplit known sourceRoom baseMid midStop stopLe (by omega) small reach).bind
    fun taken split => ?_
  obtain ⟨takenLe, leftLe, rightLe⟩ := split
  refine .lift_bind (Size.add_eq_ok (by omega)) (.lift_bind (Size.sub_eq_ok takenLe)
    (.lift_bind (Size.add_eq_ok (by omega)) ?_))
  exact keeps_mergeHeads known sourceRoom targetRoom allowed small (by omega) stopLe leftLe
    rightLe (by omega) (by omega)

/-- Only the first window of a group may begin within its pair of runs. -/
theorem keeps_fillBlock (positive : 0 < merge.runWidth) {bound fuel out : Nat}
    (boundLe : bound ≤ merge.size)
    (within : out < bound → ¬Overreaches merge.size merge.runWidth out) :
    (merge.fillBlock bound fuel out).Keeps writable faults fun _ => True := by
  induction fuel generalizing out with
  | zero => exact .done trivial
  | succ fuel ih =>
      rw [fillBlock]
      split
      · rename_i more
        have beforeEnd := lt_base_add positive out
        have pair : out / Size.double merge.runWidth * Size.double merge.runWidth =
            base merge.runWidth out := div_double_mul _ (by omega)
        have last : min (Size.clampedAdd (base merge.runWidth out)
              (Size.double merge.runWidth)) bound =
            min (base merge.runWidth out + 2 * merge.runWidth) bound :=
          Size.min_clampedAdd_double _ (by omega)
        refine .lift_bind (Size.div_eq_ok (Nat.ne_of_gt (Size.double_pos positive))) ?_
        simp only [pair, last]
        refine (keeps_fillWindow known sourceRoom targetRoom allowed small (by omega) (by omega) ?_
          (within more)).bind fun _ _ => ih fun further => ?_
        · unfold stop
          omega
        · have next : min (base merge.runWidth out + 2 * merge.runWidth) bound =
              base merge.runWidth out + 2 * merge.runWidth := by omega
          rw [next]
          rintro ⟨begun, -, -⟩
          rw [base_base_add positive] at begun
          exact Nat.lt_irrefl _ begun
      · exact .done trivial

theorem keeps_program (positive : 0 < merge.runWidth) {grid : Grid} {id : Nat}
    (begun : id * grid.lanes < merge.size)
    (within : ¬Overreaches merge.size merge.runWidth (id * grid.lanes)) :
    (merge.program ⟨id, grid⟩).Keeps writable faults fun _ => True := by
  have start : Size.mul id grid.lanes = .ok (id * grid.lanes) := Size.mul_eq_ok (by omega)
  exact .lift_bind start (keeps_fillBlock known sourceRoom targetRoom allowed small positive
    (Nat.min_le_right _ _) fun _ => within)

end

end RunMerge

namespace Copy

variable {copy : Copy keyType valueType}

/-- A lane that moves something is not the last word. -/
theorem keeps_copyLanes (sourceRoom : copy.source.HasRoom copy.size)
    (targetRoom : copy.target.HasRoom copy.size)
    (allowed : ∀ index, index < copy.size →
      ∀ region ∈ copy.target.regions index, writable region)
    (small : copy.size ≤ Size.largest) {offset count lane : Nat}
    (inside : offset + lane ≤ copy.size) :
    (copy.copyLanes offset count lane).Keeps writable faults fun _ => True := by
  induction count generalizing lane with
  | zero => exact .done trivial
  | succ count ih =>
      rw [copyLanes]
      refine .lift_bind (Size.add_eq_ok (by omega)) ?_
      split
      · exact (Pairs.keeps_move sourceRoom targetRoom ‹_› ‹_› (allowed _ ‹_›)).bind
          fun _ _ => ih (by omega)
      · exact .done trivial

theorem keeps_program (sourceRoom : copy.source.HasRoom copy.size)
    (targetRoom : copy.target.HasRoom copy.size)
    (allowed : ∀ index, index < copy.size →
      ∀ region ∈ copy.target.regions index, writable region)
    (small : copy.size ≤ Size.largest) {grid : Grid} {id : Nat}
    (begun : id * grid.lanes < copy.size) :
    (copy.program ⟨id, grid⟩).Keeps writable faults fun _ => True := by
  have start : Size.mul id grid.lanes = .ok (id * grid.lanes) := Size.mul_eq_ok (by omega)
  exact .lift_bind start
    (keeps_copyLanes sourceRoom targetRoom allowed small (Nat.le_of_lt begun))

end Copy

end GridSort
