import GridSort.Proofs.Merge.Arranged
import GridSort.Proofs.Merge.Search

namespace GridSort

/-! Merging head to head, as a rule on positions. A window may start anywhere in a pair
of runs: the search gives the heads that a merge from the start of the pair would have
there, because in an order only one split of a given length takes what comes first. -/

structure Heads where
  left : Nat
  right : Nat

namespace Heads

variable (after : Nat → Nat → Bool) (mid stop : Nat)

/-- `after right left` is the answer of the predicate for the two heads. -/
def leftIsNext (heads : Heads) : Bool :=
  stop ≤ heads.right || (heads.left < mid && !after heads.right heads.left)

def next (heads : Heads) : Nat :=
  if heads.leftIsNext after mid stop then heads.left else heads.right

def step (heads : Heads) : Heads :=
  if heads.leftIsNext after mid stop then ⟨heads.left + 1, heads.right⟩
  else ⟨heads.left, heads.right + 1⟩

def advance : Nat → Heads → Heads
  | 0, heads => heads
  | count + 1, heads => advance count (heads.step after mid stop)

variable {after mid stop} in
theorem next_of_left {heads : Heads} (h : heads.leftIsNext after mid stop = true) :
    heads.next after mid stop = heads.left := by rw [next, if_pos h]

variable {after mid stop} in
theorem next_of_right {heads : Heads} (h : heads.leftIsNext after mid stop = false) :
    heads.next after mid stop = heads.right := by rw [next, h, if_neg Bool.false_ne_true]

variable {after mid stop} in
theorem step_of_left {heads : Heads} (h : heads.leftIsNext after mid stop = true) :
    heads.step after mid stop = ⟨heads.left + 1, heads.right⟩ := by rw [step, if_pos h]

variable {after mid stop} in
theorem step_of_right {heads : Heads} (h : heads.leftIsNext after mid stop = false) :
    heads.step after mid stop = ⟨heads.left, heads.right + 1⟩ := by
  rw [step, h, if_neg Bool.false_ne_true]

theorem advance_succ (count : Nat) (heads : Heads) :
    advance after mid stop (count + 1) heads =
      (advance after mid stop count heads).step after mid stop := by
  induction count generalizing heads with
  | zero => rfl
  | succ count ih => exact ih (heads.step after mid stop)

/-- The heads are in their runs or at their ends, with `out` the next output. -/
structure InRuns (base mid stop out : Nat) (heads : Heads) : Prop where
  base_le : base ≤ heads.left
  left_le : heads.left ≤ mid
  mid_le : mid ≤ heads.right
  right_le : heads.right ≤ stop
  taken : heads.left + heads.right = out + mid

variable {after mid stop} {base out : Nat} {heads : Heads}

theorem InRuns.choice (h : InRuns base mid stop out heads) (inside : out < stop)
    (after : Nat → Nat → Bool) :
    heads.next after mid stop = heads.left ∧
        heads.step after mid stop = ⟨heads.left + 1, heads.right⟩ ∧ heads.left < mid ∧
        (heads.right < stop → after heads.right heads.left = false) ∨
      heads.next after mid stop = heads.right ∧
        heads.step after mid stop = ⟨heads.left, heads.right + 1⟩ ∧ heads.right < stop ∧
        (heads.left < mid → after heads.right heads.left = true) := by
  obtain ⟨base_le, left_le, mid_le, right_le, taken⟩ := h
  cases chosen : heads.leftIsNext after mid stop with
  | true =>
      left
      rw [next_of_left chosen, step_of_left chosen]
      simp only [leftIsNext, Bool.or_eq_true, Bool.and_eq_true, decide_eq_true_eq,
        Bool.not_eq_true'] at chosen
      refine ⟨rfl, rfl, by omega, fun open_ => ?_⟩
      exact (chosen.resolve_left (by omega)).2
  | false =>
      right
      rw [next_of_right chosen, step_of_right chosen]
      simp only [leftIsNext, Bool.or_eq_false_iff, Bool.and_eq_false_iff,
        decide_eq_false_iff_not, Bool.not_eq_false'] at chosen
      refine ⟨rfl, rfl, by omega, fun open_ => ?_⟩
      exact chosen.2.resolve_left (by omega)

theorem InRuns.next_mem (h : InRuns base mid stop out heads) (inside : out < stop)
    (after : Nat → Nat → Bool) :
    base ≤ heads.next after mid stop ∧ heads.next after mid stop < stop := by
  have choice := h.choice inside after
  obtain ⟨base_le, left_le, mid_le, right_le, taken⟩ := h
  rcases choice with ⟨next, -, bound, -⟩ | ⟨next, -, bound, -⟩
  · rw [next]
    omega
  · rw [next]
    omega

theorem InRuns.step (h : InRuns base mid stop out heads) (inside : out < stop)
    (after : Nat → Nat → Bool) :
    InRuns base mid stop (out + 1) (heads.step after mid stop) := by
  have choice := h.choice inside after
  obtain ⟨base_le, left_le, mid_le, right_le, taken⟩ := h
  rcases choice with ⟨-, step, bound, -⟩ | ⟨-, step, bound, -⟩
  · rw [step]
    constructor <;> dsimp only <;> omega
  · rw [step]
    constructor <;> dsimp only <;> omega

theorem InRuns.advance (after : Nat → Nat → Bool)
    (h : InRuns base mid stop out heads) (count : Nat)
    (inside : out + count ≤ stop) :
    InRuns base mid stop (out + count) (heads.advance after mid stop count) := by
  induction count with
  | zero => exact h
  | succ count ih =>
      rw [advance_succ]
      exact (ih (by omega)).step (by omega) after

end Heads

/-! The heads at a position of the output of a pass. -/

namespace MergePass

open RunPair

variable (after : Nat → Nat → Bool) (size width lanes : Nat)

/-- Where the window of the position begins: with its group, or with its pair. -/
def first (width lanes out : Nat) : Nat := max (base width out) (out / lanes * lanes)

/-- The split that the search finds on a diagonal of the pair. -/
def split (out diagonal : Nat) : Nat :=
  cut (fun candidate =>
      after (mid size width out + diagonal - 1 - candidate) (base width out + candidate))
    (diagonal - (stop size width out - mid size width out))
    (min diagonal (mid size width out - base width out))

def start (out diagonal : Nat) : Heads :=
  ⟨base width out + split after size width out diagonal,
    mid size width out + (diagonal - split after size width out diagonal)⟩

def heads (out : Nat) : Heads :=
  (start after size width out (first width lanes out - base width out)).advance after
    (mid size width out) (stop size width out) (out - first width lanes out)

def origin (out : Nat) : Nat :=
  (heads after size width lanes out).next after (mid size width out) (stop size width out)

variable {after size width lanes}

theorem base_le_first (width lanes out : Nat) :
    base width out ≤ first width lanes out := Nat.le_max_left _ _

theorem first_le (width lanes out : Nat) : first width lanes out ≤ out :=
  Nat.max_le.mpr ⟨base_le width out, Nat.div_mul_le_self _ _⟩

/-- All positions of a window have their window begin in the same place. -/
theorem first_eq_of_mem {id out position : Nat}
    (begins : out = max (base width out) (id * lanes)) (low : out ≤ position)
    (inPair : position < base width out + 2 * width) (inGroup : position < (id + 1) * lanes) :
    first width lanes position = out := by
  have pair : position / (2 * width) = out / (2 * width) :=
    pair_eq (Nat.le_trans (base_le width out) low) inPair
  have group : position / lanes = id := by
    apply Nat.div_eq_of_lt_le <;> omega
  rw [first, base_congr pair, group]
  exact begins.symm

theorem cuts_split (after : Nat → Nat → Bool) {out diagonal : Nat}
    (inPair : base width out + diagonal ≤ stop size width out) :
    Cuts (fun candidate =>
        after (mid size width out + diagonal - 1 - candidate) (base width out + candidate))
      (diagonal - (stop size width out - mid size width out))
      (min diagonal (mid size width out - base width out))
      (split after size width out diagonal) := by
  have := mid_le_stop size width out
  apply cuts_cut
  omega

theorem inRuns_start (after : Nat → Nat → Bool) {out diagonal : Nat} (inside : out < size)
    (inPair : base width out + diagonal ≤ stop size width out) :
    Heads.InRuns (base width out) (mid size width out) (stop size width out)
      (base width out + diagonal) (start after size width out diagonal) := by
  have lower := (cuts_split after inPair).lower
  have upper := (cuts_split after inPair).upper
  have := base_le_mid width inside
  have := mid_le_stop size width out
  unfold start
  refine ⟨?_, ?_, ?_, ?_, ?_⟩ <;> dsimp only <;> omega

theorem inRuns_heads (after : Nat → Nat → Bool) (lanes : Nat) (positive : 0 < width)
    {out : Nat} (inside : out < size) :
    Heads.InRuns (base width out) (mid size width out) (stop size width out) out
      (heads after size width lanes out) := by
  have := base_le_first width lanes out
  have := first_le width lanes out
  have := lt_stop positive inside
  have inPair : base width out + (first width lanes out - base width out) ≤
      stop size width out := by omega
  have started := inRuns_start after inside inPair
  have reached : base width out + (first width lanes out - base width out) +
      (out - first width lanes out) = out := by omega
  have advanced := started.advance after (out - first width lanes out) (by omega)
  rwa [reached] at advanced

/-- Whatever the predicate answers, an output comes from the runs of its own pair. -/
theorem origin_mem (after : Nat → Nat → Bool) (lanes : Nat) (positive : 0 < width)
    {out : Nat} (inside : out < size) :
    base width out ≤ origin after size width lanes out ∧
      origin after size width lanes out < stop size width out :=
  (inRuns_heads after lanes positive inside).next_mem (lt_stop positive inside) after

theorem origin_lt (after : Nat → Nat → Bool) (lanes : Nat) (positive : 0 < width)
    {out : Nat} (inside : out < size) :
    origin after size width lanes out < size :=
  Nat.lt_of_lt_of_le (origin_mem after lanes positive inside).2 (Nat.min_le_right _ _)

end MergePass

end GridSort
