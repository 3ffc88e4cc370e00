import GridSort.Proofs.Merge.Landing

namespace GridSort

/-! How the rounds of a tile end under any predicate. Lanes land within the tile, so what is left
to fault is the predicate. -/

namespace Predicate

variable {less : Predicate α} {faults : Fault → Prop}

/-- Every fault of the predicate is a known one. -/
def FaultsWithin (less : Predicate α) (faults : Fault → Prop) : Prop :=
  ∀ first second fault, less first second = .error fault → faults fault

theorem faultsWithin_ofTest (test : α → α → Bool) (faults : Fault → Prop) :
    (ofTest test).FaultsWithin faults := fun _ _ _ failed => nomatch failed

theorem FaultsWithin.on (known : less.FaultsWithin faults) (view : β → α) :
    (less.on view).FaultsWithin faults := fun first second => known (view first) (view second)

theorem FaultsWithin.ends (known : less.FaultsWithin faults) (first second : α) :
    Ends faults (fun _ => True) (less first second) := by
  cases answered : less first second with
  | ok answer => exact trivial
  | error fault => exact known first second fault answered

end Predicate

theorem Ends.foldlM {faults : Fault → Prop} {step : σ → ι → Except Fault σ} {held : σ → Prop}
    {indices : List ι} {state : σ} (start : held state)
    (each : ∀ index ∈ indices, ∀ state, held state → Ends faults held (step state index)) :
    Ends faults held (indices.foldlM step state) := by
  induction indices generalizing state with
  | nil => exact start
  | cons index rest ih =>
      obtain ⟨here, later⟩ := List.forall_mem_cons.mp each
      rw [List.foldlM_cons]
      exact (here state start).bind fun next held => ih held later

theorem Size.pos_of_mem_doublings {start bound width : Nat}
    (member : width ∈ doublings start bound) : 0 < width := by
  fun_induction doublings start bound with
  | case1 start inside ih => exact (List.mem_cons.mp member).elim (· ▸ inside.1) ih
  | case2 => cases member

/-- Both halves of a tile have this size. -/
structure Tile.Sized (size : Nat) (tile : Tile α) : Prop where
  current : tile.current.size = size
  spare : tile.spare.size = size

section Rounds

variable {less : Predicate α} {faults : Fault → Prop} (known : less.FaultsWithin faults)
include known

theorem ends_scatter {tile target : Array α} {width lane : Nat} (positive : 0 < width)
    (wide : 2 * width ≤ Size.largest) (small : 2 * tile.size ≤ Size.largest)
    (inside : lane < tile.size) (room : target.size = tile.size) :
    Ends faults (fun filled => filled.size = tile.size)
      (scatter less tile width target lane) := by
  unfold scatter
  refine ((ends_landing less positive wide small inside).mono ?_).bind fun rank within => ?_
  · rintro fault ⟨first, -, second, -, failed⟩
    exact known first second fault failed
  · have rankInside : rank < target.size := by
      have := RunPair.stop_le tile.size width lane
      omega
    rw [Array.getElem?_eq_getElem inside]
    exact .of_ok (dif_pos rankInside) ((Array.size_set rankInside).trans room)

theorem Tile.ends_round {tile : Tile α} {size width : Nat} (positive : 0 < width)
    (wide : 2 * width ≤ Size.largest) (small : 2 * size ≤ Size.largest)
    (sized : tile.Sized size) : Ends faults (Tile.Sized size) (Tile.round less tile width) := by
  obtain ⟨current, spare⟩ := sized
  subst current
  have filled : Ends faults (fun filled : Array α => filled.size = tile.current.size)
      ((List.range tile.current.size).foldlM (scatter less tile.current width) tile.spare) :=
    .foldlM spare fun lane member _ room =>
      ends_scatter known positive wide small (List.mem_range.mp member) room
  exact filled.bind fun _ room => ⟨room, rfl⟩

theorem Tile.ends_sort {elements : Array α} (small : 2 * elements.size ≤ Size.largest) :
    Ends faults (fun sorted => sorted.size = elements.size) (Tile.sort less elements) := by
  have rounds : Ends faults (Tile.Sized elements.size)
      ((Size.doublings 1 elements.size).foldlM (Tile.round less) ⟨elements, elements⟩) := by
    refine .foldlM ⟨rfl, rfl⟩ fun width member _ sized => ?_
    have below := Size.lt_of_mem_doublings member
    exact Tile.ends_round known (Size.pos_of_mem_doublings member) (by omega) small sized
  exact rounds.bind fun _ sized => sized.current

end Rounds

end GridSort
