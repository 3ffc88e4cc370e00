import GridSort.Proofs.Kernel.Conduct

namespace GridSort

/-! Where the kernels of a sort store, come what may. Nothing is assumed of the predicate, of
the sizes or of the slices: a group that faults, and one past the end of the grid, has stored
to the positions below the size alone. -/

variable {type keyType valueType : ElementType} {writable : Region → Prop} {index : Nat}

namespace Size

variable {a b c : Nat}

theorem eq_of_add_eq_ok (h : add a b = .ok c) : c = a + b := by
  unfold add at h
  split at h
  · exact (Except.ok.inj h).symm
  · cases h

theorem of_sub_eq_ok (h : sub a b = .ok c) : b ≤ a ∧ c = a - b := by
  unfold sub at h
  split at h
  · exact ⟨‹_›, (Except.ok.inj h).symm⟩
  · cases h

end Size

/-! Rounds of a tile that do not fault, under any predicate, keep its size. -/

theorem foldlM_keeps {step : β → ι → Except Fault β} {keeps : β → Prop}
    (each : ∀ {state index next}, keeps state → step state index = .ok next → keeps next)
    {indices : List ι} {state final : β} (held : keeps state)
    (folded : indices.foldlM step state = .ok final) : keeps final := by
  induction indices generalizing state with
  | nil =>
      cases folded
      exact held
  | cons index rest ih =>
      rw [List.foldlM_cons] at folded
      cases stepped : step state index with
      | error fault =>
          rw [stepped] at folded
          cases folded
      | ok next =>
          rw [stepped] at folded
          exact ih (each held stepped) folded

theorem size_scatter {less : Predicate α} {tile target filled : Array α} {width lane : Nat}
    (h : scatter less tile width target lane = .ok filled) : filled.size = target.size := by
  unfold scatter at h
  cases found : landing less tile lane width with
  | error fault =>
      rw [found] at h
      cases h
  | ok rank =>
      rw [found] at h
      dsimp only [bind, Except.bind] at h
      split at h
      · cases h
      · exact size_place h

namespace Tile

theorem Sized.round {less : Predicate α} {tile next : Tile α} {size width : Nat}
    (sized : tile.Sized size) (h : Tile.round less tile width = .ok next) : next.Sized size := by
  unfold Tile.round at h
  cases folded : (List.range tile.current.size).foldlM
      (scatter less tile.current width) tile.spare with
  | error fault =>
      rw [folded] at h
      cases h
  | ok filled =>
      rw [folded] at h
      cases h
      have same : filled.size = size :=
        foldlM_keeps (fun held stepped => (size_scatter stepped).trans held) sized.spare folded
      exact ⟨same, sized.current⟩

theorem size_sort {less : Predicate α} {elements sorted : Array α}
    (h : Tile.sort less elements = .ok sorted) : sorted.size = elements.size := by
  unfold Tile.sort at h
  cases folded : (Size.doublings 1 elements.size).foldlM (Tile.round less)
      ⟨elements, elements⟩ with
  | error fault =>
      rw [folded] at h
      cases h
  | ok tile =>
      rw [folded] at h
      cases h
      exact (foldlM_keeps (fun sized => Sized.round sized) ⟨rfl, rfl⟩ folded : tile.Sized _).current

end Tile

namespace Program

/-- Whatever memory holds and wherever it faults, the program stores to writable regions
only. -/
abbrev Confined (writable : Region → Prop) (program : Program α) : Prop :=
  program.Keeps writable (fun _ => True) fun _ => True

theorem Confined.widen {program : Program α} {wider : Region → Prop}
    (h : program.Confined writable) (widens : ∀ region, writable region → wider region) :
    program.Confined wider := by
  induction program with
  | done value => exact h
  | fail fault => exact h
  | load source rest ih => exact fun bytes => ih bytes (h bytes)
  | store target bytes rest ih => exact ⟨widens _ h.1, ih h.2⟩

theorem Keeps.lift_bind_of_ok {result : Except Fault α} {next : α → Program β}
    {promise : β → Prop}
    (each : ∀ value, result = .ok value → (next value).Keeps writable (fun _ => True) promise) :
    ((liftM result : Program α) >>= next).Keeps writable (fun _ => True) promise := by
  cases result with
  | ok value => exact each value rfl
  | error fault => exact trivial

theorem confined_lift (result : Except Fault α) : (ofExcept result).Confined writable := by
  cases result with
  | ok value => exact trivial
  | error fault => exact trivial

end Program

namespace Slice

theorem confined_read (slice : Slice type) (index : Nat) :
    (slice.read index).Confined writable := by
  rw [read]
  split
  · exact fun _ => trivial
  · exact trivial

theorem confined_write {slice : Slice type} (allowed : writable (slice.region index))
    (element : Element type) : (slice.write index element).Confined writable := by
  by_cases inside : index < slice.length
  · exact keeps_write inside allowed element
  · rw [write, if_neg inside]
    exact trivial

end Slice

theorem Input.confined_read (input : Input type) (index : Nat) :
    (input.read index).Confined writable := by
  cases input with
  | slice source => exact source.confined_read index
  | counting start => exact trivial

theorem Source.confined_read (source : Source keyType valueType) (index : Nat) :
    (source.read index).Confined writable := by
  refine (source.keys.confined_read index).bind fun key _ => ?_
  split
  · exact (source.values.confined_read index).bind fun value _ => .done trivial
  · exact .done trivial

namespace Pairs

theorem confined_write {pairs : Pairs keyType valueType}
    (allowed : ∀ region ∈ pairs.regions index, writable region)
    (pair : Element keyType × Element valueType) :
    (pairs.write index pair).Confined writable := by
  refine (Slice.confined_write (allowed _ (mem_regions.mpr (Or.inl rfl))) pair.1).bind
    fun _ _ => ?_
  split
  · exact Slice.confined_write (allowed _ (mem_regions.mpr (Or.inr ⟨‹_›, rfl⟩))) pair.2
  · exact .done trivial

theorem confined_move {source target : Pairs keyType valueType}
    (allowed : ∀ region ∈ target.regions index, writable region) (origin : Nat) :
    (source.move target origin index).Confined writable := by
  refine (source.keys.confined_read origin).bind fun key _ => ?_
  refine (Slice.confined_write (allowed _ (mem_regions.mpr (Or.inl rfl))) key).bind
    fun _ _ => ?_
  split
  · exact (source.values.confined_read origin).bind fun value _ =>
      Slice.confined_write (allowed _ (mem_regions.mpr (Or.inr ⟨‹_›, rfl⟩))) value
  · exact .done trivial

end Pairs

namespace TileSort

variable {sort : TileSort keyType valueType}

theorem keeps_load_length (offset count : Nat) :
    (sort.load offset count).Keeps writable (fun _ => True)
      fun loaded => loaded.length = count := by
  have each : ∀ lane ∈ List.range count,
      ((do sort.source.read (← Size.add offset lane)) : Program _).Confined writable :=
    fun _ _ => .lift_bind_of_ok fun position _ => sort.source.confined_read position
  exact (Program.Keeps.mapM each).mono fun _ ended => ended.1.trans List.length_range

variable (allowed : ∀ index, index < sort.size →
  ∀ region ∈ sort.target.regions index, writable region)
include allowed

theorem confined_store {offset lane : Nat}
    {pairs : List (Element keyType × Element valueType)}
    (inside : offset + lane + pairs.length ≤ sort.size) :
    (sort.store offset lane pairs).Confined writable := by
  induction pairs generalizing lane with
  | nil => exact .done trivial
  | cons pair rest ih =>
      rw [List.length_cons] at inside
      refine .lift_bind_of_ok fun position found => ?_
      have place := Size.eq_of_add_eq_ok found
      exact (Pairs.confined_write (allowed position (by omega)) pair).bind
        fun _ _ => ih (by omega)

theorem confined_program (group : Group) : (sort.program group).Confined writable := by
  refine .lift_bind_of_ok fun offset _ => .lift_bind_of_ok fun rest found => ?_
  obtain ⟨begun, rfl⟩ := Size.of_sub_eq_ok found
  refine (keeps_load_length offset _).bind fun loaded length =>
    .lift_bind_of_ok fun sorted succeeded => confined_store allowed ?_
  have count : sorted.toList.length = loaded.length :=
    (Tile.size_sort succeeded).trans List.size_toArray
  rw [count, length]
  omega

end TileSort

theorem confined_bisect {test : Nat → Program Bool} {low high : Nat}
    (each : ∀ candidate, (test candidate).Confined writable) :
    (bisect test low high).Confined writable := by
  fun_induction bisect test low high with
  | case1 low high inside lower upper =>
      refine (each _).bind fun crossed _ => ?_
      cases crossed with
      | true => exact lower
      | false => exact upper
  | case2 low high outside => exact trivial

namespace RunMerge

variable {merge : RunMerge keyType valueType}

theorem confined_leftIsNext (mid stop left right : Nat) :
    (merge.leftIsNext mid stop left right).Confined writable := by
  rw [leftIsNext]
  split
  · exact .done trivial
  · split
    · exact (merge.source.keys.confined_read right).bind fun rightKey _ =>
        (merge.source.keys.confined_read left).bind fun leftKey _ =>
          .lift_bind_of_ok fun _ _ => .done trivial
    · exact .done trivial

theorem confined_mergeSplit (left right : Span) (diagonal : Nat) :
    (mergeSplit merge.less merge.source.keys left right diagonal).Confined writable := by
  refine confined_bisect fun candidate => .lift_bind_of_ok fun position _ => ?_
  refine (merge.source.keys.confined_read position).bind fun leftKey _ => ?_
  refine .lift_bind_of_ok fun reach _ => .lift_bind_of_ok fun last _ =>
    .lift_bind_of_ok fun opposite _ => ?_
  exact (merge.source.keys.confined_read opposite).bind fun rightKey _ =>
    Program.confined_lift _

variable (allowed : ∀ index, index < merge.size →
  ∀ region ∈ merge.target.regions index, writable region)
include allowed

theorem confined_mergeHeads {mid stop count out left right : Nat}
    (room : out + count ≤ merge.size) :
    (merge.mergeHeads mid stop count out left right).Confined writable := by
  induction count generalizing out left right with
  | zero => exact .done trivial
  | succ count ih =>
      have here := allowed out (by omega)
      refine (confined_leftIsNext mid stop left right).bind fun isLeft _ => ?_
      cases isLeft with
      | true =>
          exact .lift_bind_of_ok fun next _ => (Pairs.confined_move here left).bind
            fun _ _ => ih (by omega)
      | false =>
          exact .lift_bind_of_ok fun next _ => (Pairs.confined_move here right).bind
            fun _ _ => ih (by omega)

theorem confined_fillWindow {base first last : Nat} (firstLt : first < merge.size)
    (lastLe : last ≤ merge.size) : (merge.fillWindow base first last).Confined writable := by
  refine .lift_bind_of_ok fun diagonal _ => ?_
  refine (confined_mergeSplit _ _ diagonal).bind fun taken _ => ?_
  exact .lift_bind_of_ok fun left _ => .lift_bind_of_ok fun rest _ =>
    .lift_bind_of_ok fun right _ => confined_mergeHeads allowed (by omega)

theorem confined_fillBlock {stop fuel out : Nat} (stopLe : stop ≤ merge.size) :
    (merge.fillBlock stop fuel out).Confined writable := by
  induction fuel generalizing out with
  | zero => exact .done trivial
  | succ fuel ih =>
      by_cases inside : out < stop
      · rw [fillBlock, if_pos inside]
        refine .lift_bind_of_ok fun pair _ => ?_
        exact (confined_fillWindow allowed (by omega) (by omega)).bind fun _ _ => ih
      · rw [fillBlock, if_neg inside]
        exact .done trivial

theorem confined_program (group : Group) : (merge.program group).Confined writable :=
  .lift_bind_of_ok fun _ _ => confined_fillBlock allowed (Nat.min_le_right _ _)

end RunMerge

namespace Copy

variable {copy : Copy keyType valueType}

theorem confined_copyLanes
    (allowed : ∀ index, index < copy.size →
      ∀ region ∈ copy.target.regions index, writable region) (offset count lane : Nat) :
    (copy.copyLanes offset count lane).Confined writable := by
  induction count generalizing lane with
  | zero => exact .done trivial
  | succ count ih =>
      refine .lift_bind_of_ok fun position _ => ?_
      split
      · exact (Pairs.confined_move (allowed position ‹_›) position).bind fun _ _ => ih (lane + 1)
      · exact .done trivial

theorem confined_program
    (allowed : ∀ index, index < copy.size →
      ∀ region ∈ copy.target.regions index, writable region) (group : Group) :
    (copy.program group).Confined writable :=
  .lift_bind_of_ok fun offset _ => confined_copyLanes allowed offset _ 0

end Copy

end GridSort
