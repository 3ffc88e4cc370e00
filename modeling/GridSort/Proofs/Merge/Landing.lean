import Mathlib.Data.Fintype.EquivFin
import GridSort.Proofs.Merge.Sequential
import GridSort.Proofs.Merge.TileOrder

namespace GridSort

/-! Landing as a permutation. Each lane searches on its own for where its element lands. Whatever
the predicate answers, that is in its own pair of runs. In an order no two elements meet, and what
has landed is what a merge of each pair of runs gives. -/

open RunPair

/-! What a search gives on any run, for any test. -/

/-- The result keeps the promise, or it is a known fault. -/
def Ends (faults : Fault → Prop) (promise : α → Prop) : Except Fault α → Prop
  | .ok value => promise value
  | .error fault => faults fault

section Ends

variable {faults : Fault → Prop} {promise : α → Prop} {result : Except Fault α}

theorem Ends.bind {next : α → Except Fault β} {ending : β → Prop}
    (first : Ends faults promise result)
    (later : ∀ value, promise value → Ends faults ending (next value)) :
    Ends faults ending (result.bind next) := by
  cases result with
  | ok value => exact later value first
  | error fault => exact first

theorem Ends.mono {more : Fault → Prop} (h : Ends faults promise result)
    (known : ∀ fault, faults fault → more fault) : Ends more promise result := by
  cases result with
  | ok value => exact h
  | error fault => exact known fault h

theorem Ends.of_ok {value : α} (h : result = .ok value) (promised : promise value) :
    Ends faults promise result := by
  subst h
  exact promised

theorem Ends.exists_ok_or (h : Ends faults promise result) :
    (∃ value, result = .ok value ∧ promise value) ∨
      ∃ fault, result = .error fault ∧ faults fault := by
  cases result with
  | ok value => exact Or.inl ⟨value, rfl, h⟩
  | error fault => exact Or.inr ⟨fault, rfl, h⟩

end Ends

section Search

variable {run : Array α} {test : α → Except Fault Bool}

/-- The test faults on an element of the run. -/
def FaultsOn (run : Array α) (test : α → Except Fault Bool) (fault : Fault) : Prop :=
  ∃ element ∈ run, test element = .error fault

theorem ends_probe {index : Nat} (inside : index < run.size) :
    Ends (FaultsOn run test) (fun _ => True) (probe run test index) := by
  rw [probe_of_lt inside]
  cases answered : test run[index] with
  | ok answer => exact trivial
  | error fault => exact ⟨_, Array.getElem_mem inside, answered⟩

theorem ends_narrow {base size : Nat} (nonempty : 0 < size) (inside : base + size ≤ run.size) :
    Ends (FaultsOn run test) (· < run.size) (narrow run test base size) := by
  have probed : Ends (FaultsOn run test) (fun _ => True) (probe run test (base + size / 2)) :=
    ends_probe (by omega)
  fun_induction narrow run test base size with
  | case1 base size several fault failed =>
      rw [failed] at probed
      exact probed
  | case2 base size several passed ih =>
      exact ih (by omega) (by omega) (ends_probe (by omega))
  | case3 base size several failed ih =>
      exact ih (by omega) (by omega) (ends_probe (by omega))
  | case4 base size single => exact Nat.lt_of_lt_of_le (by omega) inside

/-- A search ends at a place of the run or behind it. Only the test can fault. -/
theorem ends_border (run : Array α) (test : α → Except Fault Bool) :
    Ends (FaultsOn run test) (· ≤ run.size) (border run test) := by
  unfold border
  split
  · exact Nat.zero_le _
  · rename_i nonempty
    have positive : 0 < run.size := by simpa [Nat.pos_iff_ne_zero] using nonempty
    refine (ends_narrow positive (Nat.zero_add _).le).bind fun last inside => ?_
    refine (ends_probe inside).bind fun passed _ => ?_
    split
    · exact Nat.succ_le_of_lt inside
    · exact Nat.le_of_lt inside

end Search

section Landing

theorem mem_of_mem_extract {tile : Array α} {start stop : Nat} {element : α}
    (member : element ∈ tile.extract start stop) : element ∈ tile := by
  obtain ⟨place, inside, rfl⟩ := Array.mem_extract_iff_getElem.mp member
  exact Array.getElem_mem _

variable {less : Predicate α} {tile : Array α} {index width : Nat}

theorem ends_landing (less : Predicate α) (positive : 0 < width)
    (wide : 2 * width ≤ Size.largest) (small : 2 * tile.size ≤ Size.largest)
    (inside : index < tile.size) :
    Ends (fun fault => ∃ first ∈ tile, ∃ second ∈ tile, less first second = .error fault)
      (fun rank => base width index ≤ rank ∧ rank < stop tile.size width index)
      (landing less tile index width) := by
  have fromBase := base_le width index
  have baseMid := base_le_mid width inside
  have midStop := mid_le_stop tile.size width index
  have stopLe := stop_le tile.size width index
  have beforeStop := lt_stop positive inside
  have here : tile[index] ∈ tile := Array.getElem_mem inside
  rw [landing_eq less positive wide small inside]
  split
  · rename_i inLeft
    refine ((ends_border _ _).mono ?_).bind fun passed count => ?_
    · rintro fault ⟨other, member, faults⟩
      exact ⟨other, mem_of_mem_extract member, _, here, faults⟩
    · rw [Array.size_extract] at count
      exact .of_ok (Size.add_eq_ok (by omega)) (by omega)
  · rename_i inRight
    rw [Size.add_eq_ok (by omega)]
    refine ((ends_border _ _).mono ?_).bind fun passed count => ?_
    · rintro fault ⟨other, member, faults⟩
      refine ⟨_, here, other, mem_of_mem_extract member, ?_⟩
      dsimp only at faults
      cases answered : less tile[index] other with
      | ok answer => simp [answered, Except.map] at faults
      | error cause => simpa [answered, Except.map] using faults
    · rw [Array.size_extract] at count
      exact .of_ok (Size.add_eq_ok (by omega)) (by omega)

end Landing

/-- The run of this width with this number. The last one may be short, and those behind it are
empty. -/
def runOf (elements : List α) (width number : Nat) : List α :=
  (elements.drop (number * width)).take width

section Runs

variable {element : Nat → α} {size width number : Nat}

theorem runOf_between : runOf (between element 0 size) width number =
    between element (number * width) (min (number * width + width) size) := by
  simp [runOf]

theorem map_block : (block size width number).map element =
    between element (number * width) (min (number * width + width) size) := by
  rw [block, between]
  congr 2
  omega

theorem toList_eq_between {tile : Array α}
    (stands : ∀ index (inside : index < tile.size), tile[index] = element index) :
    tile.toList = between element 0 tile.size := by
  rw [between_zero]
  apply List.ext_getElem
  · simp
  · intro index inside _
    simpa using stands index inside

/-! A pair of runs, with the names that it has around its first position. -/

theorem base_mul (number : Nat) (positive : 0 < width) :
    base width (number * (2 * width)) = number * (2 * width) := by
  rw [base, Nat.mul_div_cancel _ (by omega)]

theorem runOf_pair (element : Nat → α) (size number : Nat) (positive : 0 < width) :
    runOf (between element 0 size) (2 * width) number =
      between element (base width (number * (2 * width)))
        (stop size width (number * (2 * width))) := by
  rw [runOf_between, stop, base_mul number positive]

theorem runOf_left (element : Nat → α) (size number : Nat) (positive : 0 < width) :
    runOf (between element 0 size) width (2 * number) =
      between element (base width (number * (2 * width)))
        (mid size width (number * (2 * width))) := by
  rw [runOf_between, mid, base_mul number positive, Nat.mul_comm 2 number, Nat.mul_assoc]

theorem runOf_right (element : Nat → α) (size number : Nat) (positive : 0 < width) :
    runOf (between element 0 size) width (2 * number + 1) =
      between element (mid size width (number * (2 * width)))
        (stop size width (number * (2 * width))) := by
  have start : (2 * number + 1) * width = number * (2 * width) + width := by
    rw [Nat.succ_mul, Nat.mul_comm 2 number, Nat.mul_assoc]
  rw [runOf_between, start, MergePass.between_sibling (base_mul number positive)]

end Runs

section Order

variable {test : Nat → Nat → Bool} {content rank : Nat → Nat} {size width : Nat}
  (arranged : Arranged test size width content) (trans : TransitiveBelow test size)
  (positive : 0 < width)
  (lands : ∀ lane, lane < size → Lands (testAt test content) size width lane (rank lane))
include arranged trans positive lands

theorem exists_perm :
    ∃ perm : Equiv.Perm (Fin size), ∀ index : Fin size, (perm index : Nat) = rank index := by
  let landed (index : Fin size) : Fin size :=
    ⟨rank index, (lands index index.isLt).rank_lt positive index.isLt⟩
  have apart : Function.Injective landed := by
    intro first second equal
    exact Fin.ext (Lands.rank_injective arranged trans positive lands first.isLt second.isLt
      (Fin.val_eq_of_eq equal))
  exact ⟨Equiv.ofBijective landed (Finite.injective_iff_bijective.mp apart), fun _ => rfl⟩

theorem exists_moved :
    ∃ moved : Nat → Nat, ∀ lane, lane < size → moved (rank lane) = content lane := by
  have lanes : ∀ place, place < size → ∃ lane, lane < size ∧ rank lane = place :=
    fun _ inside => Lands.exists_lane arranged trans positive lands inside
  choose! laneAt found using lanes
  refine ⟨fun place => content (laneAt place), fun lane inside => congrArg content ?_⟩
  obtain ⟨otherInside, same⟩ := found _ ((lands lane inside).rank_lt positive inside)
  exact Lands.rank_injective arranged trans positive lands otherInside inside same

/-- An output of a merge takes what lands there. -/
theorem content_origin_rank (lanes : Nat) {lane : Nat} (inside : lane < size) :
    content (MergePass.origin (testAt test content) size width lanes (rank lane)) =
      content lane := by
  obtain ⟨moved, found⟩ := exists_moved arranged trans positive lands
  rw [← found lane inside]
  -- Both orders of the positions are what their pairs of runs have when they are merged.
  exact (MergePass.arranged_origin arranged trans lanes positive).unique
    (Lands.arranged_of_moved arranged trans positive lands found) (by omega)
    ((lands lane inside).rank_lt positive inside)

end Order

theorem merge_runOf {less : Predicate α} {element : Nat → α} {size width : Nat}
    (arranged : Arranged (less.answerAt element) size width id)
    (trans : TransitiveBelow (less.answerAt element) size) (lanes : Nat) (positive : 0 < width)
    (number : Nat) :
    List.merge (runOf (between element 0 size) width (2 * number))
        (runOf (between element 0 size) width (2 * number + 1)) less.keeps =
      runOf (between (fun place => element
        (MergePass.origin (less.answerAt element) size width lanes place)) 0 size)
          (2 * width) number := by
  rw [runOf_left element size number positive, runOf_right element size number positive,
    runOf_pair _ size number positive]
  by_cases inside : number * (2 * width) < size
  · exact MergePass.merge_runs arranged trans lanes positive inside
  · rw [mid, stop, base_mul number positive, between_of_le (by omega), between_of_le (by omega),
      between_of_le (by omega), List.merge_right]

/-- A permutation of a tile: each lane finds its place on its own, within its pair of runs. Once a
round has put all elements there, each pair of runs is merged, with ties as they were. -/
structure MergesBy (less : Predicate α) (tile : Array α) (width : Nat)
    (rank : Equiv.Perm (Fin tile.size)) : Prop where
  lands : ∀ index : Fin tile.size, landing less tile index width = .ok (rank index : Nat)
  stays : ∀ index : Fin tile.size, (rank index : Nat) / (2 * width) = index / (2 * width)
  round : ∀ spare : Array α, spare.size = tile.size → ∃ placed : Array α,
    Tile.round less ⟨tile, spare⟩ width = .ok ⟨placed, tile⟩ ∧ placed.size = tile.size ∧
      ∀ index : Fin tile.size, placed[(rank index : Nat)]? = some tile[index]
  merges : ∀ placed : Array α, placed.size = tile.size →
    (∀ index : Fin tile.size, placed[(rank index : Nat)]? = some tile[index]) →
      ∀ number, runOf placed.toList (2 * width) number =
        List.merge (runOf tile.toList width (2 * number)) (runOf tile.toList width (2 * number + 1))
          less.keeps

theorem mergesBy_refl_of_empty (less : Predicate α) {tile : Array α} (empty : tile.size = 0)
    (width : Nat) : MergesBy less tile width (Equiv.refl _) where
  lands index := absurd index.isLt (by omega)
  stays _ := rfl
  round spare sizes := by
    refine ⟨spare, ?_, sizes, fun index => absurd index.isLt (by omega)⟩
    rw [Tile.round, empty]
    rfl
  merges placed sizes _ number := by
    rw [Array.eq_empty_of_size_eq_zero empty, Array.eq_empty_of_size_eq_zero (sizes.trans empty)]
    simp [runOf]

section Stands

variable {less : Predicate α} {tile : Array α} {element : Nat → α} {width : Nat} {rank : Nat → Nat}
  (stands : ∀ index (inside : index < tile.size), tile[index] = element index)
  (arranged : Arranged (less.answerAt element) tile.size width id)
  (trans : TransitiveBelow (less.answerAt element) tile.size) (positive : 0 < width)
include stands arranged trans positive

theorem toList_of_placed {placed : Array α} (sizes : placed.size = tile.size)
    (lands : ∀ lane, lane < tile.size →
      Lands (testAt (less.answerAt element) id) tile.size width lane (rank lane))
    (slots : ∀ lane (inside : lane < tile.size), placed[rank lane]? = some tile[lane]) :
    placed.toList = between (fun place => element
      (MergePass.origin (less.answerAt element) tile.size width 1 place)) 0 tile.size := by
  rw [← sizes]
  refine toList_eq_between fun place inside => ?_
  obtain ⟨lane, laneInside, rfl⟩ :=
    Lands.exists_lane arranged trans positive lands (sizes ▸ inside)
  have slot := slots lane laneInside
  rw [Array.getElem?_eq_getElem inside, Option.some.injEq] at slot
  have source : MergePass.origin (less.answerAt element) placed.size width 1 (rank lane) = lane :=
    sizes ▸ content_origin_rank arranged trans positive lands 1 laneInside
  rw [slot, stands lane laneInside, source]

theorem mergesBy_of_ranks {perm : Equiv.Perm (Fin tile.size)}
    (ranks : ∀ lane, lane < tile.size → landing less tile lane width = .ok (rank lane) ∧
      Lands (testAt (less.answerAt element) id) tile.size width lane (rank lane))
    (same : ∀ index : Fin tile.size, (perm index : Nat) = rank index) :
    MergesBy less tile width perm := by
  have lands := fun lane inside => (ranks lane inside).2
  constructor
  · intro index
    rw [same]
    exact (ranks index index.isLt).1
  · intro index
    rw [same]
    exact Lands.rank_div positive lands index.isLt
  · intro spare sizes
    obtain ⟨placed, rounded, scattered⟩ := exists_round positive ranks sizes
    refine ⟨placed, rounded, scattered.size, fun index => ?_⟩
    have slot := scattered.slots index index.isLt fun later lower inside equal =>
      Nat.ne_of_gt lower
        (Lands.rank_injective arranged trans positive lands inside index.isLt equal)
    rw [same]
    exact slot.trans (Array.getElem?_eq_getElem index.isLt)
  · intro placed sizes slots number
    have filled := toList_of_placed stands arranged trans positive sizes lands
      fun lane inside => same ⟨lane, inside⟩ ▸ slots ⟨lane, inside⟩
    rw [filled, toList_eq_between stands, merge_runOf arranged trans 1 positive]

end Stands

theorem exists_mergesBy {less : Predicate α} {tile : Array α} {width : Nat} (element : Nat → α)
    (stands : ∀ index (inside : index < tile.size), tile[index] = element index)
    (orders : less.WeaklyOrders (· ∈ tile)) (positive : 0 < width)
    (wide : 2 * width ≤ Size.largest) (small : 2 * tile.size ≤ Size.largest)
    (sorted : ∀ number, less.Sorted (runOf tile.toList width number)) :
    ∃ perm : Equiv.Perm (Fin tile.size), MergesBy less tile width perm := by
  have held : less.WeaklyOrders (HeldBelow element tile.size) := by
    refine orders.mono ?_
    rintro _ ⟨index, inside, rfl⟩
    exact stands index inside ▸ Array.getElem_mem inside
  have trans := transitiveBelow_answerAt held
  have arranged : Arranged (less.answerAt element) tile.size width id := by
    refine arranged_id held positive fun number => ?_
    rw [map_block, ← runOf_between, ← toList_eq_between stands]
    exact sorted number
  have total : ∀ left right (hleft : left < tile.size) (hright : right < tile.size),
      less tile[left] tile[right] = .ok (testAt (less.answerAt element) id left right) := by
    intro left right hleft hright
    rw [stands left hleft, stands right hright, answerAt_eq held hleft hright]
    rfl
  obtain ⟨rank, ranks⟩ := exists_ranks total positive wide small
  obtain ⟨perm, same⟩ :=
    exists_perm arranged trans positive fun lane inside => (ranks lane inside).2
  exact ⟨perm, mergesBy_of_ranks stands arranged trans positive ranks same⟩

/-- A round of any tile, with runs of any width. In an order in which each run is sorted, the
places that the lanes find are a permutation of the tile that merges each pair of runs.

For any tile and any predicate a lane finds a place of its own pair of runs, unless the predicate
faults on two elements of the tile. So nothing that it adds up is too large. -/
theorem landing_merges_runs (tile : Array α) (width : Nat) (positive : 1 ≤ width)
    (wide : 2 * width ≤ Size.largest) (small : tile.size < 2 ^ 63) (less : Predicate α) :
    (less.WeaklyOrders (· ∈ tile) →
      (∀ number, less.Sorted (runOf tile.toList width number)) →
        ∃ rank : Equiv.Perm (Fin tile.size), MergesBy less tile width rank) ∧
    ∀ index < tile.size,
      (∃ rank, landing less tile index width = .ok rank ∧
        rank / (2 * width) = index / (2 * width) ∧ rank < tile.size) ∨
      ∃ fault, landing less tile index width = .error fault ∧
        ∃ first ∈ tile, ∃ second ∈ tile, less first second = .error fault := by
  have words : 2 * tile.size ≤ Size.largest := by
    have largest : Size.largest = 2 ^ 64 - 1 := rfl
    omega
  constructor
  · intro orders sorted
    rcases Nat.eq_zero_or_pos tile.size with empty | nonempty
    · exact ⟨_, mergesBy_refl_of_empty less empty width⟩
    · refine exists_mergesBy (fun index => tile[min index (tile.size - 1)]) ?_ orders positive wide
        words sorted
      intro index inside
      congr 1
      omega
  · intro index inside
    refine (ends_landing less positive wide words inside).exists_ok_or.imp ?_ fun faults => faults
    rintro ⟨rank, found, low, high⟩
    exact ⟨rank, found, pair_eq_of_mem tile.size low high,
      Nat.lt_of_lt_of_le high (stop_le tile.size width index)⟩

/-! Three runs of three, the last one short and without a sibling. There are ties in a run, and
across the first two. -/

namespace SmallTile

def tile : Array (Element .byte) := #[1, 4, 4, 2, 4, 9, 0, 5]

theorem sorted (number : Nat) : Predicate.less.Sorted (runOf tile.toList 3 number) := by
  unfold Predicate.Sorted
  match number with
  | 0 | 1 | 2 => decide
  | number + 3 =>
      have beyond : tile.toList.length ≤ (number + 3) * 3 := by
        change 8 ≤ (number + 3) * 3
        omega
      rw [runOf, List.drop_of_length_le beyond]
      exact List.Pairwise.nil

theorem merged :
    List.merge (runOf tile.toList 3 0) (runOf tile.toList 3 1) (Predicate.keeps .less) =
      [1, 2, 4, 4, 4, 9] := by
  cbv

end SmallTile

theorem landing_merges_runs_small :
    (∃ (rank : Equiv.Perm (Fin 8)) (placed : Array (Element .byte)),
      (∀ index : Fin 8, landing .less SmallTile.tile index 3 = .ok (rank index : Nat)) ∧
      Tile.round .less ⟨SmallTile.tile, SmallTile.tile⟩ 3 = .ok ⟨placed, SmallTile.tile⟩ ∧
      runOf placed.toList 6 0 = [1, 2, 4, 4, 4, 9]) ∧
    ∃ rank, landing .always SmallTile.tile 4 3 = .ok rank ∧ rank / 6 = 0 := by
  constructor
  · obtain ⟨ordered, -⟩ := landing_merges_runs SmallTile.tile 3 (by decide) (by decide)
      (by decide) .less
    obtain ⟨rank, lands, -, round, merges⟩ :=
      ordered ((Predicate.less_weaklyOrders _).mono fun _ _ => ⟨_, rfl⟩) SmallTile.sorted
    obtain ⟨placed, rounded, sizes, slots⟩ := round SmallTile.tile rfl
    exact ⟨rank, placed, lands, rounded, (merges placed sizes slots 0).trans SmallTile.merged⟩
  · obtain ⟨-, anyOrder⟩ := landing_merges_runs SmallTile.tile 3 (by decide) (by decide)
      (by decide) .always
    rcases anyOrder 4 (by decide) with ⟨rank, found, pair, -⟩ | ⟨fault, -, _, _, _, _, faults⟩
    · exact ⟨rank, found, pair⟩
    · cases faults

end GridSort
