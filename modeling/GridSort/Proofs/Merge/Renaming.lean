import GridSort.Merge.Tile

namespace GridSort

/-! Sorting a tile looks at the elements through the predicate alone. So a tile of
renamed elements is sorted as the original elements are, under the predicate that
renames what it compares. -/

variable (view : α → β) (less : Predicate β)

theorem probe_map (run : Array α) (test : β → Except Fault Bool) (index : Nat) :
    probe (run.map view) test index = probe run (fun element => test (view element)) index := by
  unfold probe
  rw [Array.getElem?_map, Array.size_map]
  cases run[index]? with
  | none => rfl
  | some element => rfl

theorem narrow_map (run : Array α) (test : β → Except Fault Bool) (base size : Nat) :
    narrow (run.map view) test base size =
      narrow run (fun element => test (view element)) base size := by
  fun_induction narrow run (fun element => test (view element)) base size with
  | case1 base size several fault failed =>
      rw [narrow, if_pos several, probe_map, failed]
  | case2 base size several passed ih =>
      rw [narrow, if_pos several, probe_map, passed]
      exact ih
  | case3 base size several failed ih =>
      rw [narrow, if_pos several, probe_map, failed]
      exact ih
  | case4 base size single => rw [narrow, if_neg single]

theorem border_map (run : Array α) (test : β → Except Fault Bool) :
    border (run.map view) test = border run (fun element => test (view element)) := by
  have same : (run.map view).isEmpty = run.isEmpty := by simp [Array.isEmpty]
  simp only [border, same, Array.size_map, narrow_map, probe_map]

theorem countBefore_map (run : Array α) (key : α) :
    countBefore less (run.map view) (view key) = countBefore (less.on view) run key :=
  border_map view run _

theorem countNotAfter_map (run : Array α) (key : α) :
    countNotAfter less (run.map view) (view key) = countNotAfter (less.on view) run key :=
  border_map view run _

theorem landing_map (tile : Array α) (index width : Nat) :
    landing less (tile.map view) index width = landing (less.on view) tile index width := by
  unfold landing
  simp only [Array.getElem?_map, Array.size_map, ← Array.map_extract]
  cases tile[index]? with
  | none => rfl
  | some key => simp only [Option.map_some, countBefore_map, countNotAfter_map]

theorem place_map (target : Array α) (rank : Nat) (element : α) :
    place (target.map view) rank (view element) =
      (place target rank element).map (Array.map view) := by
  unfold place
  by_cases inside : rank < target.size
  · rw [dif_pos inside, dif_pos (by rwa [Array.size_map]), Except.map, Array.map_set]
  · rw [dif_neg inside, dif_neg (by rwa [Array.size_map]), Array.size_map]
    rfl

theorem scatter_map (tile : Array α) (width : Nat) (target : Array α) (lane : Nat) :
    scatter less (tile.map view) width (target.map view) lane =
      (scatter (less.on view) tile width target lane).map (Array.map view) := by
  unfold scatter
  rw [landing_map, Array.getElem?_map, Array.size_map]
  cases landing (less.on view) tile lane width with
  | error fault => rfl
  | ok rank =>
      cases tile[lane]? with
      | none => rfl
      | some element => exact place_map view target rank element

theorem foldlM_map {step : γ → ι → Except Fault γ} {other : δ → ι → Except Fault δ}
    (rename : γ → δ)
    (commutes : ∀ state index, other (rename state) index = (step state index).map rename)
    (indices : List ι) (state : γ) :
    indices.foldlM other (rename state) = (indices.foldlM step state).map rename := by
  induction indices generalizing state with
  | nil => rfl
  | cons index rest ih =>
      rw [List.foldlM_cons, List.foldlM_cons, commutes]
      cases step state index with
      | error fault => rfl
      | ok next => exact ih next

namespace Tile

def map (tile : Tile α) : Tile β := ⟨tile.current.map view, tile.spare.map view⟩

theorem round_map (tile : Tile α) (width : Nat) :
    (tile.map view).round less width = (tile.round (less.on view) width).map (map view) := by
  have filled := foldlM_map (Array.map view) (scatter_map view less tile.current width)
    (List.range tile.current.size) tile.spare
  unfold round
  simp only [map, Array.size_map, filled]
  cases (List.range tile.current.size).foldlM
      (scatter (less.on view) tile.current width) tile.spare with
  | error fault => rfl
  | ok current => rfl

theorem sort_map (elements : Array α) :
    sort less (elements.map view) = (sort (less.on view) elements).map (Array.map view) := by
  have rounds := foldlM_map (map view) (round_map view less)
    (Size.doublings 1 elements.size) ⟨elements, elements⟩
  unfold sort
  rw [Array.size_map]
  change (List.foldlM (round less) (map view ⟨elements, elements⟩)
    (Size.doublings 1 elements.size)).bind _ = _
  rw [rounds]
  change _ = (Except.bind (List.foldlM (round (less.on view)) ⟨elements, elements⟩
    (Size.doublings 1 elements.size)) _).map _
  cases List.foldlM (round (less.on view)) ⟨elements, elements⟩
      (Size.doublings 1 elements.size) with
  | error fault => rfl
  | ok tile => rfl

end Tile

end GridSort
