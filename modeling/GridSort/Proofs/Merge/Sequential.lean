import GridSort.Proofs.Kernel.Groups
import GridSort.Proofs.Merge.Pass
import GridSort.Proofs.Merge.StableSort

namespace GridSort

/-! One merge pass, done from front to back. Each window of a launch starts from a search of its
own, but in an order the search finds the heads that a merge from the start of the pair has there,
so all windows together give what one merge of each pair gives. -/

variable {α : Type}

/-- Whether the left one of two elements stays before the right one. -/
def Predicate.keeps (less : Predicate α) (left right : α) : Bool :=
  match less right left with
  | .ok before => !before
  | .error _ => true

/-- Merges each pair of adjacent runs, the left one first on ties. A run without a sibling is
as it was. -/
def mergeRuns (width : Nat) (keeps : α → α → Bool) (elements : List α) : List α :=
  if 0 < width ∧ 0 < elements.length then
    List.merge (elements.take width) ((elements.drop width).take width) keeps ++
      mergeRuns width keeps (elements.drop (2 * width))
  else
    elements
termination_by elements.length
decreasing_by
  rw [List.length_drop]
  omega

theorem keeps_eq_not_answerAt (less : Predicate α) (content : Nat → α) (left right : Nat) :
    less.keeps (content left) (content right) = !less.answerAt content right left := by
  unfold Predicate.keeps Predicate.answerAt
  cases less (content right) (content left) <;> rfl

section Merge

variable {keeps : α → α → Bool} {first : α} {left right : List α}

theorem merge_cons_left (stays : ∀ other ∈ right.head?, keeps first other = true) :
    List.merge (first :: left) right keeps = first :: List.merge left right keeps := by
  cases right with
  | nil => simp
  | cons other right => exact List.cons_merge_cons_pos keeps left right (stays other rfl)

theorem merge_cons_right (leaves : ∀ other ∈ left.head?, keeps other first = false) :
    List.merge left (first :: right) keeps = first :: List.merge left right keeps := by
  cases left with
  | nil => simp
  | cons other left =>
      exact List.cons_merge_cons_neg keeps left right (by simp [leaves other rfl])

end Merge

/-- What stands from one position to before another. -/
def between (content : Nat → α) (low high : Nat) : List α :=
  (List.range' low (high - low)).map content

section Between

variable {content : Nat → α} {low high : Nat}

theorem between_of_le (empty : high ≤ low) : between content low high = [] := by
  simp [between, Nat.sub_eq_zero_of_le empty]

theorem between_cons (inside : low < high) :
    between content low high = content low :: between content (low + 1) high := by
  have length : high - low = high - (low + 1) + 1 := by omega
  rw [between, length, List.range'_succ, List.map_cons, between]

theorem between_zero (content : Nat → α) (size : Nat) :
    between content 0 size = (List.range size).map content := by
  simp [between, List.range_eq_range']

theorem between_append {middle : Nat} (lower : low ≤ middle) (upper : middle ≤ high) :
    between content low high = between content low middle ++ between content middle high := by
  simp [between, range'_sub_append lower upper]

theorem between_congr {other : Nat → α}
    (same : ∀ position, low ≤ position → position < high → content position = other position) :
    between content low high = between other low high := by
  apply List.map_congr_left
  intro position member
  have inside := List.mem_range'_1.mp member
  exact same position inside.1 (by omega)

theorem mem_between {element : α} : element ∈ between content low high ↔
    ∃ position, low ≤ position ∧ position < high ∧ content position = element := by
  simp only [between, List.mem_map, List.mem_range'_1, and_assoc]
  exact exists_congr fun position => and_congr_right fun _ => and_congr_left fun _ => by omega

@[simp] theorem length_between (content : Nat → α) (low high : Nat) :
    (between content low high).length = high - low := by
  simp [between]

@[simp] theorem take_between (content : Nat → α) (low high count : Nat) :
    (between content low high).take count = between content low (min (low + count) high) := by
  rw [between, ← List.map_take, between]
  congr 1
  by_cases few : count ≤ high - low
  · rw [List.take_range'_of_length_ge few]
    congr 1
    omega
  · rw [List.take_range'_of_length_le (by omega)]
    congr 1
    omega

@[simp] theorem drop_between (content : Nat → α) (low high count : Nat) :
    (between content low high).drop count = between content (low + count) high := by
  simp [between, ← List.map_drop, List.drop_range', Nat.sub_sub]

theorem head?_between (inside : low < high) :
    (between content low high).head? = some (content low) := by
  simp [between_cons inside]

end Between

/-- The merge of what is left of two runs takes the heads one after the other. -/
theorem merge_between (less : Predicate α) (content : Nat → α) {base mid stop out : Nat}
    {heads : Heads} (runs : heads.InRuns base mid stop out) :
    List.merge (between content heads.left mid) (between content heads.right stop) less.keeps =
      between (fun position => content ((heads.advance (less.answerAt content) mid stop
        (position - out)).next (less.answerAt content) mid stop)) out stop := by
  -- Each output takes one head, so the induction is on the outputs that are still to come.
  generalize remaining : stop - out = count
  induction count generalizing out heads with
  | zero =>
      obtain ⟨-, left_le, -, right_le, taken⟩ := runs
      rw [between_of_le (show mid ≤ heads.left by omega),
        between_of_le (show stop ≤ heads.right by omega), between_of_le (by omega),
        List.merge_right]
  | succ count ih =>
      have inside : out < stop := by omega
      have rest := ih (runs.step inside (less.answerAt content)) (by omega)
      have later : between (fun position => content ((heads.advance (less.answerAt content) mid
            stop (position - out)).next (less.answerAt content) mid stop)) (out + 1) stop =
          between (fun position => content (((heads.step (less.answerAt content) mid
            stop).advance (less.answerAt content) mid stop (position - (out + 1))).next
              (less.answerAt content) mid stop)) (out + 1) stop := by
        apply between_congr
        intro position low high
        have count : position - out = position - (out + 1) + 1 := by omega
        rw [count, Heads.advance]
      rw [between_cons inside, later, ← rest, Nat.sub_self, Heads.advance]
      rcases runs.choice inside (less.answerAt content) with
        ⟨next, step, bound, answer⟩ | ⟨next, step, bound, answer⟩
      · rw [next, step, between_cons bound]
        apply merge_cons_left
        intro other head
        by_cases more : heads.right < stop
        · rw [head?_between more] at head
          cases head
          simp [keeps_eq_not_answerAt, answer more]
        · simp [between_of_le (Nat.le_of_not_lt more)] at head
      · rw [next, step, between_cons bound]
        apply merge_cons_right
        intro other head
        by_cases more : heads.left < mid
        · rw [head?_between more] at head
          cases head
          simp [keeps_eq_not_answerAt, answer more]
        · simp [between_of_le (Nat.le_of_not_lt more)] at head

/-- In an order, of two splits of one length there is only one. -/
theorem Heads.Splits.unique {test : Nat → Nat → Bool} {content : Nat → Nat}
    {base mid stop out : Nat} {heads other : Heads}
    (h : heads.Splits test content base mid stop)
    (hother : other.Splits test content base mid stop)
    (runs : heads.InRuns base mid stop out) (otherRuns : other.InRuns base mid stop out) :
    heads = other := by
  have forth := h.nested hother runs otherRuns (Nat.le_refl out)
  have back := hother.nested h otherRuns runs (Nat.le_refl out)
  have left : heads.left = other.left := Nat.le_antisymm forth.1 back.1
  have right : heads.right = other.right := Nat.le_antisymm forth.2 back.2
  cases heads
  cases left
  cases right
  rfl

namespace MergePass

open RunPair

variable {test : Nat → Nat → Bool} {size width out : Nat} {content : Nat → Nat}

/-- Before anything is taken, the heads are the starts of the two runs. -/
theorem inRuns_base (inside : out < size) :
    Heads.InRuns (base width out) (mid size width out) (stop size width out) (base width out)
      ⟨base width out, mid size width out⟩ :=
  ⟨Nat.le_refl _, base_le_mid width inside, Nat.le_refl _, mid_le_stop size width out, rfl⟩

theorem splits_base (test : Nat → Nat → Bool) (content : Nat → Nat) (size width out : Nat) :
    (⟨base width out, mid size width out⟩ : Heads).Splits test content (base width out)
      (mid size width out) (stop size width out) where
  left_first _ _ low high := absurd high (Nat.not_lt.mpr low)
  right_first _ _ low high := absurd high (Nat.not_lt.mpr low)

/-- Wherever its window starts, an output has the heads of a merge from the start of the pair. -/
theorem heads_eq_advance (arranged : Arranged test size width content)
    (trans : TransitiveBelow test size) (lanes : Nat) (positive : 0 < width)
    (inside : out < size) :
    heads (testAt test content) size width lanes out =
      (⟨base width out, mid size width out⟩ : Heads).advance (testAt test content)
        (mid size width out) (stop size width out) (out - base width out) := by
  have fromBase := base_le width out
  have beforeStop := lt_stop positive inside
  have whole : base width out + (out - base width out) = out := Nat.add_sub_cancel' fromBase
  have started : Heads.InRuns (base width out) (mid size width out) (stop size width out) _ _ :=
    inRuns_base inside
  have advanced := started.advance (testAt test content) (out - base width out) (by omega)
  rw [whole] at advanced
  exact (splits_heads arranged trans lanes positive inside).unique
    (splits_advance arranged trans (splits_base test content size width out) started _ (by omega))
    (inRuns_heads _ lanes positive inside) advanced

/-! The pair of runs that begins at a position, cut off from the rest. -/

section Pair

variable {start : Nat} (begins : base width start = start) (element : Nat → α)
include begins

theorem between_sibling : between element (start + width) (min (start + width + width) size) =
    between element (mid size width start) (stop size width start) := by
  rw [mid, stop, begins]
  by_cases sibling : start + width ≤ size
  · rw [Nat.min_eq_left sibling, Nat.two_mul, Nat.add_assoc]
  · rw [between_of_le (by omega), between_of_le (by omega)]

theorem between_pair_append : between element start (stop size width start) ++
    between element (start + 2 * width) size = between element start size := by
  rw [stop, begins]
  by_cases further : start + 2 * width ≤ size
  · rw [Nat.min_eq_left further, ← between_append (Nat.le_add_right _ _) further]
  · have whole := Nat.le_of_not_le further
    rw [between_of_le whole, List.append_nil, Nat.min_eq_right whole]

theorem mergeRuns_between_of_lt (keeps : α → α → Bool) (positive : 0 < width)
    (inside : start < size) :
    mergeRuns width keeps (between element start size) =
      List.merge (between element start (mid size width start))
          (between element (mid size width start) (stop size width start)) keeps ++
        mergeRuns width keeps (between element (start + 2 * width) size) := by
  have left : min (start + width) size = mid size width start := by rw [mid, begins]
  have more : 0 < width ∧ 0 < (between element start size).length := by
    rw [length_between]
    exact ⟨positive, Nat.sub_pos_of_lt inside⟩
  rw [mergeRuns, if_pos more]
  simp only [take_between, drop_between, left, between_sibling begins]

end Pair

section Ordered

variable {less : Predicate α} {element : Nat → α}
  (arranged : Arranged (less.answerAt element) size width id)
  (trans : TransitiveBelow (less.answerAt element) size) (lanes : Nat) (positive : 0 < width)
include arranged trans positive

/-- The window of a pair holds the merge of its two runs. -/
theorem merge_runs (inside : out < size) :
    List.merge (between element (base width out) (mid size width out))
        (between element (mid size width out) (stop size width out)) less.keeps =
      between (fun position => element (origin (less.answerAt element) size width lanes position))
        (base width out) (stop size width out) := by
  rw [merge_between less element (inRuns_base inside)]
  apply between_congr
  intro position low high
  have pair := pair_eq_of_mem size low high
  have below := Nat.lt_of_lt_of_le high (stop_le size width out)
  have heads : heads (less.answerAt element) size width lanes position = _ :=
    heads_eq_advance arranged trans lanes positive below
  rw [origin, heads, base_congr pair, mid_congr size pair, stop_congr size pair]
  rfl

theorem mergeRuns_between {start : Nat} (begins : base width start = start) :
    mergeRuns width less.keeps (between element start size) =
      between (fun position => element (origin (less.answerAt element) size width lanes position))
        start size := by
  generalize remaining : size - start = count
  induction count using Nat.strong_induction_on generalizing start with
  | _ count ih =>
      by_cases inside : start < size
      · have pair := merge_runs arranged trans lanes positive inside
        have nextBegins : base width (start + 2 * width) = start + 2 * width := by
          rw [← begins]
          exact base_base_add positive start
        have rest := ih (size - (start + 2 * width)) (by omega) nextBegins rfl
        rw [begins] at pair
        rw [mergeRuns_between_of_lt begins element less.keeps positive inside, pair, rest,
          between_pair_append begins]
      · have empty := Nat.le_of_not_lt inside
        rw [between_of_le empty, between_of_le empty, mergeRuns, if_neg (by simp)]

/-- A pass puts each output where the merge of each pair of runs has it, whatever its groups. -/
theorem mergeRuns_range :
    mergeRuns width less.keeps ((List.range size).map element) =
      (List.range size).map fun position =>
        element (origin (less.answerAt element) size width lanes position) := by
  have begins : base width 0 = 0 := by simp [base]
  rw [← between_zero, ← between_zero]
  exact mergeRuns_between arranged trans lanes positive begins

end Ordered

end MergePass

/-- What holds of an ascending list pairwise holds of its members in their order. -/
theorem rel_of_pairwise {rel : Nat → Nat → Prop} {positions : List Nat}
    (ascending : positions.Pairwise (· < ·)) (pairwise : positions.Pairwise rel)
    {first second : Nat} (hfirst : first ∈ positions) (hsecond : second ∈ positions)
    (lower : first < second) : rel first second := by
  induction positions with
  | nil => cases hfirst
  | cons position rest ih =>
      obtain ⟨ahead, restAscending⟩ := List.pairwise_cons.mp ascending
      obtain ⟨here, restPairwise⟩ := List.pairwise_cons.mp pairwise
      rcases List.mem_cons.mp hfirst with rfl | firstRest
      · exact here second (List.mem_of_ne_of_mem (Nat.ne_of_gt lower) hsecond)
      · refine ih restAscending restPairwise firstRest (List.mem_of_ne_of_mem ?_ hsecond)
        rintro rfl
        exact Nat.lt_asymm lower (ahead first firstRest)

/-- Runs that are in order are arranged as they are. -/
theorem arranged_id {less : Predicate α} {element : Nat → α} {size width : Nat}
    (orders : less.WeaklyOrders (HeldBelow element size)) (positive : 0 < width)
    (sorted : ∀ run, ((block size width run).map element).Pairwise
      fun first second => less second first = .ok false) :
    Arranged (less.answerAt element) size width id := by
  refine ⟨fun place inside => ⟨inside, rfl⟩, fun first second lower inside same => ?_⟩
  have firstInside := Nat.lt_trans lower inside
  have ordered := rel_of_pairwise (pairwise_lt_block size width (second / width))
    (List.pairwise_map.mp (sorted (second / width)))
    ((mem_block positive).mpr ⟨firstInside, same⟩) ((mem_block positive).mpr ⟨inside, rfl⟩) lower
  rw [answerAt_eq orders inside firstInside, Except.ok.injEq] at ordered
  exact (precedes_of_lt lower).mpr ordered

end GridSort
