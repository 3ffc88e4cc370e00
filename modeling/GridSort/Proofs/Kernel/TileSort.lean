import GridSort.Kernel.TileSort
import GridSort.Proofs.Kernel.Fills
import GridSort.Proofs.Merge.TileOrder

namespace GridSort

/-- No pair of the source shares a byte with a pair of the target at another position. -/
def Source.Separate {keyType valueType : ElementType} (source : Source keyType valueType)
    (target : Pairs keyType valueType) (size : Nat) : Prop :=
  ∀ first second, first < size → second < size → first ≠ second →
    ∀ region ∈ source.regions first, ∀ other ∈ target.regions second, region.Disjoint other

namespace TileSort

/-! What the first launch does: a group reads its window, and fills it with the same
pairs in the order of the sorted tile. It reads all before it writes, so the source may
be the target. -/

variable {keyType valueType : ElementType} {sort : TileSort keyType valueType}
  {content : Nat → Element keyType × Element valueType} {after : Nat → Nat → Bool}
  {memory : Memory} {readable : Region → Prop}

structure Sound (sort : TileSort keyType valueType) : Prop where
  covers : sort.source.Covers sort.size
  room : sort.target.HasRoom sort.size
  separate : sort.source.Separate sort.target sort.size

/-- The source holds pairs whose keys the predicate can compare. -/
structure Reads (sort : TileSort keyType valueType)
    (content : Nat → Element keyType × Element valueType) (after : Nat → Nat → Bool)
    (memory : Memory) : Prop where
  found : ∀ index, index < sort.size → sort.source.get memory index = content index
  answers : ∀ first second, first < sort.size → second < sort.size →
    sort.less (content first).1 (content second).1 = .ok (after first second)

/-- The answers within the tile that begins at `offset`. -/
def within (after : Nat → Nat → Bool) (offset first second : Nat) : Bool :=
  after (offset + first) (offset + second)

/-- The position that an output comes from. -/
def origin (after : Nat → Nat → Bool) (size lanes position : Nat) : Nat :=
  position / lanes * lanes +
    Tile.order (within after (position / lanes * lanes))
      (min lanes (size - position / lanes * lanes)) (position - position / lanes * lanes)

def output (content : Nat → Element keyType × Element valueType) (after : Nat → Nat → Bool)
    (size lanes position : Nat) : Element keyType × Element valueType :=
  content (origin after size lanes position)

/-- The predicate answers for the pairs at these positions, or there are no two of them. -/
def AnswersOn (sort : TileSort keyType valueType)
    (content : Nat → Element keyType × Element valueType) (after : Nat → Nat → Bool)
    (positions : List Nat) : Prop :=
  positions.length ≤ 1 ∨ ∀ first ∈ positions, ∀ second ∈ positions,
    sort.less (content first).1 (content second).1 = .ok (after first second)

theorem Reads.answersOn (reads : sort.Reads content after memory) (group : Group) :
    sort.AnswersOn content after (group.window sort.size) :=
  Or.inr fun first hfirst second hsecond =>
    reads.answers first second (Group.lt_of_mem_window hfirst) (Group.lt_of_mem_window hsecond)

theorem performs_load (sound : sort.Sound) {offset count : Nat}
    (found : ∀ index, offset ≤ index → index < offset + count →
      sort.source.get memory index = content index)
    (small : sort.size ≤ Size.largest) (inside : offset + count ≤ sort.size)
    (allowed : ∀ index, offset ≤ index → index < offset + count →
      ∀ region ∈ sort.source.regions index, readable region) :
    (sort.load offset count).Performs memory readable []
      ((List.range count).map fun lane => content (offset + lane)) := by
  apply Program.Performs.mapM
  intro lane member
  have laneInside := List.mem_range.mp member
  refine .lift_bind (Size.add_eq_ok (by omega)) ?_
  rw [← found (offset + lane) (Nat.le_add_right _ _) (by omega)]
  exact Source.performs_read sound.covers (by omega)
    (allowed (offset + lane) (Nat.le_add_right _ _) (by omega)) memory

theorem performs_store (room : sort.target.HasRoom sort.size)
    (small : sort.size ≤ Size.largest) {offset lane : Nat}
    {pairs : List (Element keyType × Element valueType)}
    (inside : offset + lane + pairs.length ≤ sort.size)
    {filled : Nat → Element keyType × Element valueType}
    (holds : ∀ index (h : index < pairs.length), pairs[index] = filled (offset + lane + index))
    (memory : Memory) (readable : Region → Prop) :
    (sort.store offset lane pairs).Performs memory readable
      (sort.target.fill (List.range' (offset + lane) pairs.length) filled) () := by
  induction pairs generalizing lane memory with
  | nil => exact .done () memory readable
  | cons pair rest ih =>
      rw [List.length_cons] at inside
      have head : pair = filled (offset + lane) := holds 0 (Nat.zero_lt_succ _)
      have written := Pairs.performs_write room (show offset + lane < sort.size by omega) pair
        memory readable
      rw [head] at written
      rw [store, head, List.length_cons, List.range'_succ]
      refine .lift_bind (Size.add_eq_ok (by omega)) (written.bind (ih (by omega) ?_ _))
      intro index hindex
      have tail := holds (index + 1) (Nat.succ_lt_succ hindex)
      rw [List.getElem_cons_succ] at tail
      rw [tail]
      congr 1
      omega

theorem exists_sorted {offset count : Nat}
    (answers : sort.AnswersOn content after (List.range' offset count))
    (small : 3 * count ≤ Size.largest) :
    ∃ sorted, Tile.sort (sort.less.on Prod.fst)
        ((List.range count).map fun lane => content (offset + lane)).toArray = .ok sorted ∧
      sorted.toList.length = count ∧
      ∀ place (h : place < sorted.toList.length),
        sorted.toList[place] =
          content (offset + Tile.order (within after offset) count place) := by
  generalize elements_def :
    ((List.range count).map fun lane => content (offset + lane)).toArray = elements
  have size : elements.size = count := by
    rw [← elements_def, List.size_toArray, List.length_map, List.length_range]
  have element : ∀ lane (h : lane < elements.size),
      elements[lane] = content (offset + lane) := by
    intro lane h
    subst elements_def
    rw [List.getElem_toArray, List.getElem_map, List.getElem_range]
  have below : ∀ place, place < count → Tile.order (within after offset) count place < count :=
    fun place h => Tile.order_lt (within after offset) small h
  rcases answers with few | answers
  · rw [List.length_range'] at few
    refine ⟨elements, Tile.sort_of_size_le_one _ (size ▸ few), size, fun place h => ?_⟩
    rw [Array.length_toList, size] at h
    have only := below place h
    have same : Tile.order (within after offset) count place = place := by omega
    rw [Array.getElem_toList, element, same]
  · have total : ∀ left right (hleft : left < elements.size) (hright : right < elements.size),
        sort.less.on Prod.fst elements[left] elements[right] =
          .ok (within after offset left right) := by
      intro left right hleft hright
      rw [Predicate.on_apply, element, element]
      exact answers _ (List.mem_range'_1.mpr (by omega)) _ (List.mem_range'_1.mpr (by omega))
    obtain ⟨sorted, succeeded, sortedSize, places⟩ :=
      Tile.sort_eq total (show 3 * elements.size ≤ Size.largest by omega)
    refine ⟨sorted, succeeded, by rw [Array.length_toList, sortedSize, size], ?_⟩
    intro place h
    rw [Array.length_toList] at h
    have found := places place h
    rw [size] at found
    have inside := below place (by omega)
    rw [Array.getElem?_eq_getElem (by omega), Option.some.injEq, element] at found
    rw [Array.getElem_toList, ← found]

/-- What the group reads. -/
def readsWindow (sort : TileSort keyType valueType) (grid : Grid) (id : Nat) (region : Region) :
    Prop :=
  ∃ index ∈ (⟨id, grid⟩ : Group).window sort.size, region ∈ sort.source.regions index

theorem Sound.windowsApart (sound : sort.Sound) (grid : Grid) :
    ∀ reader writer, reader ≠ writer → ∀ region, sort.readsWindow grid reader region →
      ∀ index ∈ (⟨writer, grid⟩ : Group).window sort.size, ∀ other ∈ sort.target.regions index,
        region.Disjoint other := by
  rintro reader writer distinct region ⟨read, hread, member⟩ index hindex other otherMember
  refine sound.separate read index (Group.lt_of_mem_window hread)
    (Group.lt_of_mem_window hindex) ?_ region member other otherMember
  rintro rfl
  exact distinct ((Group.id_eq_of_mem_window hread).symm.trans
    (Group.id_eq_of_mem_window hindex))

section Grid

variable {grid : Grid} (positive : 0 < grid.lanes) (few : grid.lanes ≤ Grid.maxLanes)
  (small : sort.size ≤ Size.largest)
include positive few small

/-- A group that begins at the end of the input has an empty window. -/
theorem performs_program (sound : sort.Sound) (found : ∀ index, index < sort.size →
      sort.source.get memory index = content index)
    {id : Nat} (begun : id * grid.lanes ≤ sort.size)
    (answers : sort.AnswersOn content after ((⟨id, grid⟩ : Group).window sort.size))
    (allowed : ∀ index ∈ (⟨id, grid⟩ : Group).window sort.size,
      ∀ region ∈ sort.source.regions index, readable region) :
    (sort.program ⟨id, grid⟩).Performs memory readable
      (sort.target.fill ((⟨id, grid⟩ : Group).window sort.size)
        (output content after sort.size grid.lanes)) () := by
  have lanesLe : grid.lanes ≤ 1024 := few
  have largest : Size.largest = 2 ^ 64 - 1 := rfl
  have start : Size.mul id grid.lanes = .ok (id * grid.lanes) := Size.mul_eq_ok (by omega)
  have rest : Size.sub sort.size (id * grid.lanes) = .ok (sort.size - id * grid.lanes) :=
    Size.sub_eq_ok begun
  have window : (⟨id, grid⟩ : Group).window sort.size =
      List.range' (id * grid.lanes) (min grid.lanes (sort.size - id * grid.lanes)) := rfl
  have tile : ∀ place, place < grid.lanes →
      (id * grid.lanes + place) / grid.lanes * grid.lanes = id * grid.lanes := by
    intro place h
    rw [Nat.mul_comm id, Nat.mul_add_div positive, Nat.div_eq_of_lt h, Nat.add_zero,
      Nat.mul_comm]
  rw [window] at answers allowed ⊢
  generalize offset_def : id * grid.lanes = offset at begun start rest answers allowed tile ⊢
  generalize count_def : min grid.lanes (sort.size - offset) = count at answers allowed ⊢
  have loaded := performs_load sound
    (fun index _ (high : index < offset + count) => found index (by omega))
    (show sort.size ≤ Size.largest by omega) (show offset + count ≤ sort.size by omega)
    fun index low high => allowed index (List.mem_range'_1.mpr ⟨low, high⟩)
  obtain ⟨sorted, succeeded, length, places⟩ := exists_sorted answers (by omega)
  have holds : ∀ place (h : place < sorted.toList.length), sorted.toList[place] =
      output content after sort.size grid.lanes (offset + 0 + place) := by
    intro place h
    rw [places place h, output, origin, Nat.add_zero, tile place (by omega), count_def,
      Nat.add_sub_cancel_left]
  have stored := performs_store sound.room
    (show sort.size ≤ Size.largest by omega)
    (show offset + 0 + sorted.toList.length ≤ sort.size by omega) holds memory readable
  rw [length] at stored
  refine .lift_bind start (.lift_bind rest ?_)
  change ((sort.load offset (min grid.lanes (sort.size - offset))).bind _).Performs _ _ _ _
  rw [count_def]
  exact loaded.bind (.lift_bind succeeded stored)

theorem fills_of_answersOn (sound : sort.Sound) (found : ∀ index, index < sort.size →
      sort.source.get memory index = content index)
    (begun : ∀ id, id < grid.groups → id * grid.lanes ≤ sort.size)
    (answers : ∀ id, id < grid.groups →
      sort.AnswersOn content after ((⟨id, grid⟩ : Group).window sort.size)) :
    sort.kernel.Fills grid memory sort.target sort.size (sort.readsWindow grid)
      (output content after sort.size grid.lanes) :=
  ⟨fun id inside => performs_program positive few small sound found (begun id inside)
      (answers id inside) fun index member _ read => ⟨index, member, read⟩,
    sound.windowsApart grid⟩

theorem fills (sound : sort.Sound) (reads : sort.Reads content after memory)
    (begun : ∀ id, id < grid.groups → id * grid.lanes ≤ sort.size) :
    sort.kernel.Fills grid memory sort.target sort.size (sort.readsWindow grid)
      (output content after sort.size grid.lanes) :=
  fills_of_answersOn positive few small sound reads.found begun fun id _ =>
    reads.answersOn ⟨id, grid⟩

end Grid

end TileSort

end GridSort
