import Mathlib.Algebra.Order.Ring.Nat
import Mathlib.Tactic.Ring
import GridSort.Size

namespace GridSort

/-! The widths of the runs that a bottom-up merge goes through, and folds along them. -/

namespace Size

theorem double_eq {width : Nat} (small : 2 * width ≤ largest) : double width = 2 * width :=
  Nat.min_eq_left small

theorem double_pos {width : Nat} (positive : 0 < width) : 0 < double width :=
  Nat.lt_min.mpr ⟨Nat.mul_pos Nat.two_pos positive, by decide⟩

/-- A width is clamped only where it is not below the bound any more. -/
theorem double_cases (start : Nat) {bound : Nat} (small : bound ≤ largest) :
    double start = 2 * start ∨ bound ≤ double start := by
  unfold double
  omega

/-! Below a bound that is a word, clamped sums are sums. -/

theorem min_clampedAdd (start : Nat) {width bound : Nat} (small : bound ≤ largest) :
    min (clampedAdd start width) bound = min (start + width) bound := by
  unfold clampedAdd
  omega

theorem min_clampedAdd_double (start : Nat) {width bound : Nat} (small : bound ≤ largest) :
    min (clampedAdd start (double width)) bound = min (start + 2 * width) bound := by
  unfold clampedAdd double
  omega

theorem doublings_eq_map {start bound : Nat} (positive : 0 < start) (small : bound ≤ largest) :
    doublings start bound =
      (List.range (doublings start bound).length).map (start * 2 ^ ·) := by
  fun_induction doublings start bound with
  | case1 start inside ih =>
      rcases double_cases start small with doubled | clamped
      · have widths := ih (by omega)
        rw [List.length_cons, List.range_succ_eq_map, List.map_cons, List.map_map, pow_zero,
          mul_one]
        refine congrArg (List.cons start) (widths.trans ?_)
        rw [doubled]
        apply List.map_congr_left
        intro index _
        simp only [Function.comp_apply, pow_succ]
        ring
      · simp [doublings_of_le clamped]
  | case2 => rfl

theorem le_mul_two_pow_length {start bound : Nat} (positive : 0 < start)
    (small : bound ≤ largest) : bound ≤ start * 2 ^ (doublings start bound).length := by
  fun_induction doublings start bound with
  | case1 start inside ih =>
      rcases double_cases start small with doubled | clamped
      · have covered := ih (by omega)
        rw [doubled] at covered
        rw [List.length_cons, pow_succ, doubled]
        calc bound ≤ 2 * start * 2 ^ (doublings (2 * start) bound).length := covered
          _ = start * (2 ^ (doublings (2 * start) bound).length * 2) := by ring
      · have reached : double start ≤ 2 * start := Nat.min_le_left _ _
        rw [doublings_of_le clamped, List.length_singleton, pow_one]
        omega
  | case2 start outside =>
      rw [List.length_nil, pow_zero, mul_one]
      omega

theorem mul_two_pow_lt {start bound index : Nat} (positive : 0 < start)
    (small : bound ≤ largest) (inside : index < (doublings start bound).length) :
    start * 2 ^ index < bound := by
  have member : start * 2 ^ index ∈ doublings start bound := by
    rw [doublings_eq_map positive small]
    exact List.mem_map_of_mem (List.mem_range.mpr inside)
  exact lt_of_mem_doublings member

end Size

theorem exists_foldlM_range {σ : Type} {step : σ → Nat → Except Fault σ}
    (carried : Nat → σ → Prop) {count : Nat} {state : σ} (start : carried 0 state)
    (preserved : ∀ index, index < count → ∀ state, carried index state →
      ∃ next, step state index = .ok next ∧ carried (index + 1) next) :
    ∃ final, (List.range count).foldlM step state = .ok final ∧ carried count final := by
  induction count with
  | zero => exact ⟨state, rfl, start⟩
  | succ count ih =>
      obtain ⟨middle, reached, held⟩ := ih fun index inside =>
        preserved index (Nat.lt_succ_of_lt inside)
      obtain ⟨next, stepped, kept⟩ := preserved count (Nat.lt_succ_self count) middle held
      refine ⟨next, ?_, kept⟩
      rw [List.range_succ, List.foldlM_append, reached]
      change (List.foldlM step middle [count] : Except Fault σ) = _
      rw [List.foldlM_cons, stepped]
      rfl

end GridSort
