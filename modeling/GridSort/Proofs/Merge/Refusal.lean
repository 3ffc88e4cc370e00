import GridSort.Proofs.Merge.TileOrder
import GridSort.Proofs.Program.Refusal

namespace GridSort

/-! Predicates that refuse some elements: they fault where they are to compare one of these.
A tile that holds a refused element is not sorted, unless it holds nothing else. -/

open RunPair

namespace Predicate

/-- Faults where either argument is refused, and answers as the test says elsewhere. -/
structure Refuses (less : Predicate α) (test : α → α → Bool) (refused : α → Prop)
    (fault : Fault) : Prop where
  faults : ∀ first second, refused first ∨ refused second → less first second = .error fault
  answers : ∀ first second, ¬refused first → ¬refused second →
    less first second = .ok (test first second)

theorem refuses_refusing [DecidableEq α] (test : α → α → Bool) (marked : α) (fault : Fault) :
    ((ofTest test).refusing marked fault).Refuses test (· = marked) fault :=
  ⟨fun _ _ either => if_pos either, fun _ _ hfirst hsecond =>
    refusing_of_ne fault (ofTest test) hfirst hsecond⟩

variable {less : Predicate α} {test : α → α → Bool} {refused : α → Prop} {fault : Fault}

theorem Refuses.on (refuses : less.Refuses test refused fault) (view : β → α) :
    (less.on view).Refuses (fun first second => test (view first) (view second))
      (fun element => refused (view element)) fault :=
  ⟨fun _ _ => refuses.faults _ _, fun _ _ => refuses.answers _ _⟩

theorem Refuses.mayReplace (refuses : less.Refuses test refused fault) (first second : α) :
    fault.MayReplace (less first second) (ofTest test first second) := by
  by_cases either : refused first ∨ refused second
  · exact Or.inl (refuses.faults first second either)
  · obtain ⟨hfirst, hsecond⟩ := not_or.mp either
    exact Or.inr (refuses.answers first second hfirst hsecond)

end Predicate

/-! A search, and with it a tile, stops at the first comparison that faults. -/

section MayReplace

variable {fault : Fault} {test otherTest : α → Except Fault Bool} {less other : Predicate α}

section Searches

variable (each : ∀ element, fault.MayReplace (test element) (otherTest element)) (run : Array α)
include each

theorem mayReplace_probe (index : Nat) :
    fault.MayReplace (probe run test index) (probe run otherTest index) := by
  unfold probe
  cases run[index]? with
  | none => exact .refl fault _
  | some element => exact each element

theorem mayReplace_narrow (base size : Nat) :
    fault.MayReplace (narrow run test base size) (narrow run otherTest base size) := by
  have probed := mayReplace_probe each run (base + size / 2)
  fun_induction narrow run otherTest base size with
  | case1 base size several cause failed =>
      rw [narrow, if_pos several]
      rcases probed with stops | same
      · rw [stops]
        exact Or.inl rfl
      · rw [same, failed]
        exact Or.inr rfl
  | case2 base size several passed ih =>
      rw [narrow, if_pos several]
      rcases probed with stops | same
      · rw [stops]
        exact Or.inl rfl
      · rw [same, passed]
        exact ih (mayReplace_probe each run _)
  | case3 base size several failed ih =>
      rw [narrow, if_pos several]
      rcases probed with stops | same
      · rw [stops]
        exact Or.inl rfl
      · rw [same, failed]
        exact ih (mayReplace_probe each run _)
  | case4 base size single =>
      rw [narrow, if_neg single]
      exact .refl fault _

theorem mayReplace_border : fault.MayReplace (border run test) (border run otherTest) := by
  unfold border
  by_cases empty : run.isEmpty
  · rw [if_pos empty, if_pos empty]
    exact .refl fault _
  · rw [if_neg empty, if_neg empty]
    exact (mayReplace_narrow each run 0 run.size).bind fun last =>
      (mayReplace_probe each run last).bind fun _ => .refl fault _

end Searches

variable (each : ∀ first second, fault.MayReplace (less first second) (other first second))
include each

theorem mayReplace_countBefore (run : Array α) (key : α) :
    fault.MayReplace (countBefore less run key) (countBefore other run key) :=
  mayReplace_border (fun element => each element key) run

theorem mayReplace_countNotAfter (run : Array α) (key : α) :
    fault.MayReplace (countNotAfter less run key) (countNotAfter other run key) := by
  refine mayReplace_border (fun element => ?_) run
  rcases each key element with stops | same
  · rw [stops]
    exact Or.inl rfl
  · rw [same]
    exact .refl fault _

theorem mayReplace_landing (tile : Array α) (index width : Nat) :
    fault.MayReplace (landing less tile index width) (landing other tile index width) := by
  unfold landing
  refine (Fault.MayReplace.refl fault _).bind fun pairWidth =>
    (Fault.MayReplace.refl fault _).bind fun pair =>
      (Fault.MayReplace.refl fault _).bind fun middle =>
        (Fault.MayReplace.refl fault _).bind fun ending => ?_
  cases tile[index]? with
  | none => exact .refl fault _
  | some key =>
      dsimp only
      split
      · exact (mayReplace_countBefore each _ key).bind fun _ => .refl fault _
      · exact (Fault.MayReplace.refl fault _).bind fun own =>
          (mayReplace_countNotAfter each _ key).bind fun _ => .refl fault _

theorem mayReplace_round (tile : Tile α) (width : Nat) :
    fault.MayReplace (Tile.round less tile width) (Tile.round other tile width) :=
  (Fault.MayReplace.foldlM (fun _ lane => (mayReplace_landing each tile.current lane width).bind
    fun _ => .refl fault _) _ _).bind fun _ => .refl fault _

theorem mayReplace_sort (elements : Array α) :
    fault.MayReplace (Tile.sort less elements) (Tile.sort other elements) :=
  (Fault.MayReplace.foldlM (mayReplace_round each) _ _).bind fun _ => .refl fault _

end MayReplace

/-! A position that is a run of its own stays where it is until there is a run beside it. -/

/-- No other position is in the run of this one. -/
def Alone (size width place : Nat) : Prop :=
  ∀ other, other < size → other / width = place / width → other = place

namespace Alone

variable {size width place other : Nat}

theorem of_single (size place : Nat) : Alone size 1 place := by
  intro other _ same
  rwa [Nat.div_one, Nat.div_one] at same

theorem size_le_one (alone : Alone size width place) (inside : place < size)
    (wide : size ≤ width) : size ≤ 1 := by
  by_contra several
  have whole : ∀ other, other < size → other / width = place / width := fun other below => by
    rw [Nat.div_eq_of_lt (by omega), Nat.div_eq_of_lt (by omega)]
  have first := alone 0 (by omega) (whole 0 (by omega))
  have second := alone 1 (by omega) (whole 1 (by omega))
  omega

section Pair

variable (alone : Alone size width place) (positive : 0 < width) (inside : place < size)
include alone positive inside

theorem eq_of_mem_pair (lone : stop size width place ≤ mid size width place)
    (low : base width place ≤ other) (high : other < stop size width place) : other = place := by
  have beforeStop := lt_stop positive inside
  apply alone other (Nat.lt_of_lt_of_le high (stop_le size width place))
  rw [block_of_left size low (by omega), block_of_left size (base_le width place) (by omega)]

theorem double (lone : stop size width place ≤ mid size width place) :
    Alone size (2 * width) place := by
  intro other otherInside same
  have low := base_le width other
  have high := lt_stop positive otherInside
  rw [base_congr same] at low
  rw [stop_congr size same] at high
  exact alone.eq_of_mem_pair positive inside lone low high

/-- Beside another run it is the first of its own. -/
theorem eq_base_or_mid (sibling : mid size width place < stop size width place) :
    place = base width place ∨ place = mid size width place := by
  have fromBase := base_le width place
  have beforeStop := lt_stop positive inside
  have stopLe := stop_le size width place
  by_cases inLeft : place < mid size width place
  · left
    refine (alone _ (Nat.lt_of_le_of_lt fromBase inside) ?_).symm
    rw [block_of_left size (Nat.le_refl _) (by omega), block_of_left size fromBase inLeft]
  · right
    refine (alone _ (by omega) ?_).symm
    rw [block_of_right size (Nat.le_refl _) sibling,
      block_of_right size (Nat.le_of_not_lt inLeft) beforeStop]

end Pair

end Alone

/-! A refused element beside another run is compared by its own lane. -/

section Refused

variable {less : Predicate α} {test : α → α → Bool} {refused : α → Prop} {fault : Fault}
  {tile : Array α} {index width size place : Nat} {element : α}

theorem border_of_refused {run : Array α} {test : α → Except Fault Bool} (nonempty : 0 < run.size)
    (refuses : ∀ element, test element = .error fault) : border run test = .error fault := by
  have notEmpty : run.isEmpty = false := by simpa using Nat.ne_of_gt nonempty
  rw [border, notEmpty, if_neg Bool.false_ne_true, narrow]
  by_cases several : 1 < run.size
  · rw [if_pos several, probe_of_lt (by omega), refuses]
    rfl
  · rw [if_neg several]
    change (probe run test 0 >>= _) = _
    rw [probe_of_lt nonempty, refuses]
    rfl

theorem landing_of_refused (refuses : less.Refuses test refused fault) (positive : 0 < width)
    (narrow : width < tile.size) (small : 3 * tile.size ≤ Size.largest) (inside : index < tile.size)
    (sibling : mid tile.size width index < stop tile.size width index)
    (hit : refused tile[index]) : landing less tile index width = .error fault := by
  have stopLe := stop_le tile.size width index
  have fromBase := base_le width index
  rw [landing_eq less positive (by omega) (by omega) inside]
  by_cases inLeft : index < mid tile.size width index
  · have counted : countBefore less (tile.extract (mid tile.size width index)
        (stop tile.size width index)) tile[index] = .error fault :=
      border_of_refused (by rw [Array.size_extract]; omega) fun other =>
        refuses.faults other _ (Or.inr hit)
    rw [if_pos inLeft, counted]
    rfl
  · have inRight := Nat.le_of_not_lt inLeft
    have counted : countNotAfter less (tile.extract (base width index)
        (mid tile.size width index)) tile[index] = .error fault := by
      refine border_of_refused ?_ fun other => ?_
      · have nonempty := base_lt_mid positive inside
        rw [Array.size_extract]
        omega
      · rw [refuses.faults _ other (Or.inl hit)]
        rfl
    rw [if_neg inLeft, Size.add_eq_ok (by omega)]
    change ((countNotAfter less _ tile[index]).bind _) = _
    rw [counted]
    rfl

theorem exists_of_foldlM_eq_ok {step : σ → ι → Except Fault σ} {indices : List ι} {state final : σ}
    (folded : indices.foldlM step state = .ok final) {index : ι} (member : index ∈ indices) :
    ∃ before after, step before index = .ok after := by
  induction indices generalizing state with
  | nil => nomatch member
  | cons first rest ih =>
      rw [List.foldlM_cons] at folded
      cases stepped : step state first with
      | error cause =>
          rw [stepped] at folded
          cases folded
      | ok next =>
          rw [stepped] at folded
          rcases List.mem_cons.mp member with rfl | later
          · exact ⟨state, next, stepped⟩
          · exact ih folded later

theorem exists_landing_of_round {spare : Array α} {next : Tile α}
    (rounded : Tile.round less ⟨tile, spare⟩ width = .ok next) (inside : index < tile.size) :
    ∃ rank, landing less tile index width = .ok rank := by
  rw [Tile.round] at rounded
  cases folded : (List.range tile.size).foldlM (scatter less tile width) spare with
  | error cause =>
      change ((List.range tile.size).foldlM (scatter less tile width) spare).bind _ = _ at rounded
      rw [folded] at rounded
      cases rounded
  | ok filled =>
      obtain ⟨before, after, scattered⟩ :=
        exists_of_foldlM_eq_ok folded (List.mem_range.mpr inside)
      cases landed : landing less tile index width with
      | ok rank => exact ⟨rank, rfl⟩
      | error cause =>
          rw [scatter, landed] at scattered
          cases scattered

/-- A tile in whose current space the element has been alone in its run so far. -/
structure Tile.Waiting (size place width : Nat) (element : α) (tile : Tile α) : Prop where
  currentSize : tile.current.size = size
  spareSize : tile.spare.size = size
  found : tile.current[place]? = some element
  alone : Alone size width place

theorem Tile.Waiting.round (refuses : less.Refuses test refused fault) (hit : refused element)
    {tile : Tile α} (waiting : tile.Waiting size place width element) (positive : 0 < width)
    (narrow : width < size) (small : 3 * size ≤ Size.largest) (inside : place < size) :
    Tile.round less tile width = .error fault ∨
      ∃ next, Tile.round less tile width = .ok next ∧
        next.Waiting size place (2 * width) element := by
  obtain ⟨current, spare⟩ := tile
  obtain ⟨currentSize, spareSize, found, alone⟩ := waiting
  dsimp only at currentSize spareSize found
  subst currentSize
  have total : ∀ left right (hleft : left < current.size) (hright : right < current.size),
      Predicate.ofTest test current[left] current[right] =
        .ok (answersOf test current.toList left right) := by
    intro left right hleft hright
    simp [answersOf, hleft, hright]
  obtain ⟨rank, ranks⟩ := exists_ranks total positive (by omega) (by omega)
  obtain ⟨filled, rounded, scattered⟩ := exists_round positive ranks spareSize
  have lands := fun lane inside => (ranks lane inside).2
  rcases mayReplace_round refuses.mayReplace ⟨current, spare⟩ width with stops | same
  · exact Or.inl stops
  · rw [rounded] at same
    have lone : stop current.size width place ≤ mid current.size width place := by
      apply Nat.le_of_not_lt
      intro sibling
      have isElement : current[place] = element := by
        rwa [Array.getElem?_eq_getElem inside, Option.some.injEq] at found
      obtain ⟨_, landed⟩ := exists_landing_of_round same inside
      rw [landing_of_refused refuses positive narrow small inside sibling
        (isElement ▸ hit)] at landed
      cases landed
    have stays : rank place = place := by
      obtain ⟨low, high⟩ := (lands place inside).mem_pair positive inside
      exact alone.eq_of_mem_pair positive inside lone low high
    have slot := scattered.slots place inside fun later lower laterInside equal => by
      -- A lane that lands here is in the same pair, where there is no other one.
      obtain ⟨low, high⟩ := (lands later laterInside).mem_pair positive laterInside
      rw [equal, stays] at low high
      have pair := pair_eq_of_mem current.size low high
      have only := alone.double positive inside lone later laterInside pair.symm
      omega
    rw [stays, found] at slot
    exact Or.inr ⟨_, same, scattered.size, rfl, slot, alone.double positive inside lone⟩

theorem foldlM_range_cases {step : σ → Nat → Except Fault σ} (carried : Nat → σ → Prop)
    {count : Nat} {state : σ} (start : carried 0 state)
    (preserved : ∀ index, index < count → ∀ state, carried index state →
      step state index = .error fault ∨
        ∃ next, step state index = .ok next ∧ carried (index + 1) next) :
    (List.range count).foldlM step state = .error fault ∨
      ∃ final, (List.range count).foldlM step state = .ok final ∧ carried count final := by
  induction count with
  | zero => exact Or.inr ⟨state, rfl, start⟩
  | succ count ih =>
      rw [List.range_succ, List.foldlM_append]
      rcases ih fun index inside => preserved index (Nat.lt_succ_of_lt inside) with
        stops | ⟨middle, reached, held⟩
      · rw [stops]
        exact Or.inl rfl
      · rw [reached]
        change List.foldlM step middle [count] = _ ∨
          ∃ final, List.foldlM step middle [count] = _ ∧ _
        rw [List.foldlM_cons]
        rcases preserved count (Nat.lt_succ_self count) middle held with
          stops | ⟨next, stepped, kept⟩
        · rw [stops]
          exact Or.inl rfl
        · rw [stepped]
          exact Or.inr ⟨next, rfl, kept⟩

theorem Tile.Waiting.rounds (refuses : less.Refuses test refused fault) (hit : refused element)
    {tile : Tile α} (waiting : tile.Waiting size place 1 element) (small : 3 * size ≤ Size.largest)
    (inside : place < size) {count : Nat} (narrow : ∀ index, index < count → 2 ^ index < size) :
    (List.range count).foldlM (fun tile index => Tile.round less tile (2 ^ index)) tile =
        .error fault ∨
      ∃ final, (List.range count).foldlM (fun tile index => Tile.round less tile (2 ^ index)) tile =
          .ok final ∧ final.Waiting size place (2 ^ count) element := by
  refine foldlM_range_cases (fun index (tile : Tile α) =>
    tile.Waiting size place (2 ^ index) element) waiting fun index within tile waiting => ?_
  have next := waiting.round refuses hit (Nat.two_pow_pos index) (narrow index within) small inside
  rwa [← Nat.pow_succ'] at next

/-- In the last round at the latest there is a run beside every element. -/
theorem Tile.sort_of_refused (refuses : less.Refuses test refused fault) {elements : Array α}
    (small : 3 * elements.size ≤ Size.largest) (several : 2 ≤ elements.size)
    (inside : place < elements.size) (hit : refused elements[place]) :
    Tile.sort less elements = .error fault := by
  have bounded : elements.size ≤ Size.largest := by omega
  have widths : Size.doublings 1 elements.size =
      (List.range (Size.doublings 1 elements.size).length).map (2 ^ ·) := by
    simpa using Size.doublings_eq_map Nat.one_pos bounded
  have wide := Size.le_mul_two_pow_length Nat.one_pos bounded
  have started : (⟨elements, elements⟩ : Tile α).Waiting elements.size place 1 elements[place] :=
    ⟨rfl, rfl, Array.getElem?_eq_getElem inside, .of_single _ _⟩
  have narrow : ∀ index, index < (Size.doublings 1 elements.size).length →
      2 ^ index < elements.size := by
    intro index within
    simpa using Size.mul_two_pow_lt Nat.one_pos bounded within
  rcases started.rounds refuses hit small inside narrow with stops | ⟨final, -, waiting⟩
  · rw [Tile.sort, widths, List.foldlM_map, stops]
    rfl
  · rw [Nat.one_mul] at wide
    have := waiting.alone.size_le_one inside wide
    omega

end Refused

end GridSort
