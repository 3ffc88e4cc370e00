import GridSort.Merge.Count
import GridSort.Merge.Path
import GridSort.Proofs.Program.Footprint

namespace GridSort

/-! What the binary searches find. No order is assumed: the answer is a place where the
test changes from false to true, or an end of the range. -/

structure Cuts (test : Nat → Bool) (low high place : Nat) : Prop where
  lower : low ≤ place
  upper : place ≤ high
  before : place = low ∨ test (place - 1) = false
  after : place = high ∨ test place = true

/-- The candidate that a bisection with these answers finds. -/
def cut (test : Nat → Bool) (low high : Nat) : Nat :=
  if low < high then
    if test (low + (high - low) / 2) then
      cut test low (low + (high - low) / 2)
    else
      cut test (low + (high - low) / 2 + 1) high
  else
    low
termination_by high - low
decreasing_by all_goals omega

theorem cuts_cut (test : Nat → Bool) {low high : Nat} (h : low ≤ high) :
    Cuts test low high (cut test low high) := by
  fun_induction cut test low high with
  | case1 low high nonempty holds ih =>
      obtain ⟨lower, upper, before, after⟩ := ih (by omega)
      refine ⟨lower, by omega, before, ?_⟩
      rcases after with atMiddle | after
      · rw [← atMiddle] at holds
        exact Or.inr holds
      · exact Or.inr after
  | case2 low high nonempty fails ih =>
      obtain ⟨lower, upper, before, after⟩ := ih (by omega)
      refine ⟨by omega, upper, Or.inr ?_, after⟩
      rcases before with atMiddle | before
      · rw [atMiddle, Nat.add_sub_cancel]
        exact Bool.eq_false_iff.mpr fails
      · exact before
  | case3 low high empty =>
      exact ⟨Nat.le_refl low, h, Or.inl rfl, Or.inl (by omega)⟩

/-- A test that changes in one place only is cut there. -/
theorem cut_eq_of_changes {test : Nat → Bool} {low high place : Nat} (lower : low ≤ place)
    (upper : place ≤ high)
    (changes : ∀ candidate, low ≤ candidate → candidate < high →
      test candidate = decide (place ≤ candidate)) : cut test low high = place := by
  obtain ⟨fromLow, toHigh, before, after⟩ := cuts_cut test (Nat.le_trans lower upper)
  generalize cut test low high = found at fromLow toHigh before after
  apply Nat.le_antisymm
  · apply Nat.le_of_not_lt
    intro beyond
    have fails := before.resolve_left (by omega)
    rw [changes (found - 1) (by omega) (by omega), decide_eq_false_iff_not] at fails
    omega
  · apply Nat.le_of_not_lt
    intro early
    have holds := after.resolve_left (by omega)
    rw [changes found fromLow (by omega), decide_eq_true_eq] at holds
    omega

theorem performs_bisect {probe : Nat → Program Bool} {test : Nat → Bool} {low high : Nat}
    {memory : Memory} {readable : Region → Prop}
    (answers : ∀ candidate, low ≤ candidate → candidate < high →
      (probe candidate).Performs memory readable [] (test candidate)) :
    (bisect probe low high).Performs memory readable [] (cut test low high) := by
  fun_induction cut test low high with
  | case1 low high nonempty holds ih =>
      rw [bisect, if_pos nonempty]
      have middle := answers (low + (high - low) / 2) (by omega) (by omega)
      rw [holds] at middle
      exact middle.bind (ih fun candidate hlow hhigh =>
        answers candidate hlow (by omega))
  | case2 low high nonempty fails ih =>
      rw [bisect, if_pos nonempty]
      have middle := answers (low + (high - low) / 2) (by omega) (by omega)
      rw [Bool.eq_false_iff.mpr fails] at middle
      exact middle.bind (ih fun candidate hlow hhigh =>
        answers candidate (by omega) hhigh)
  | case3 low high empty =>
      rw [bisect_of_le probe (Nat.not_lt.mp empty)]
      exact Program.Performs.done low memory readable

/-! The search on runs. Its window keeps a passed element at its first place, unless
that is the first of the run, and ends before a failed one, unless it ends the run. -/

variable {run : Array α} {test : α → Except Fault Bool} {answers : Nat → Bool}

private theorem narrow_spec
    (total : ∀ index (inside : index < run.size), test run[index] = .ok (answers index))
    {base size : Nat} (nonempty : 0 < size) (inside : base + size ≤ run.size)
    (first : base = 0 ∨ answers base = true)
    (last : base + size = run.size ∨ answers (base + size) = false ∨
      answers (base + size - 1) = false) :
    ∃ place, narrow run test base size = .ok place ∧ place < run.size ∧
      (place = 0 ∨ answers place = true) ∧
      (place + 1 = run.size ∨ answers (place + 1) = false ∨ answers place = false) := by
  fun_induction narrow run test base size with
  | case1 base size several fault failed =>
      rw [probe_of_lt (by omega), total _ (by omega)] at failed
      cases failed
  | case2 base size several passed ih =>
      rw [probe_of_lt (by omega), total _ (by omega)] at passed
      have same : base + size / 2 + (size - size / 2) = base + size := by omega
      rw [same] at ih
      exact ih (by omega) inside (Or.inr (Except.ok.inj passed)) last
  | case3 base size several failed ih =>
      rw [probe_of_lt (by omega), total _ (by omega)] at failed
      have fails := Except.ok.inj failed
      refine ih (by omega) (by omega) first (Or.inr ?_)
      by_cases even : size - size / 2 = size / 2
      · left
        rw [even]
        exact fails
      · right
        have odd : base + (size - size / 2) - 1 = base + size / 2 := by omega
        rw [odd]
        exact fails
  | case4 base size single =>
      have one : size = 1 := by omega
      subst one
      exact ⟨base, rfl, by omega, first, last⟩

private theorem border_of_narrow {place : Nat} {answer : Bool}
    (nonempty : run.isEmpty = false) (found : narrow run test 0 run.size = .ok place)
    (probed : probe run test place = .ok answer) :
    border run test = .ok (if answer then place + 1 else place) := by
  rw [border, nonempty, if_neg Bool.false_ne_true, found]
  change (probe run test place >>= fun passed =>
    if passed = true then Except.ok (place + 1) else Except.ok place) = _
  rw [probed]
  cases answer <;> rfl

theorem exists_border
    (total : ∀ index (inside : index < run.size), test run[index] = .ok (answers index)) :
    ∃ count, border run test = .ok count ∧
      Cuts (fun index => !answers index) 0 run.size count := by
  by_cases empty : run.size = 0
  · refine ⟨0, ?_, Nat.le_refl 0, Nat.zero_le _, Or.inl rfl, Or.inl empty.symm⟩
    rw [Array.eq_empty_of_size_eq_zero empty, border_empty]
  · obtain ⟨place, found, inside, first, last⟩ := narrow_spec total
      (Nat.pos_of_ne_zero empty) (Nat.le_of_eq (Nat.zero_add _)) (Or.inl rfl)
      (Or.inl (Nat.zero_add _))
    have notEmpty : run.isEmpty = false := by simpa using empty
    have probed : probe run test place = .ok (answers place) := by
      rw [probe_of_lt inside, total place inside]
    cases passed : answers place with
    | true =>
        refine ⟨place + 1, ?_, Nat.zero_le _, inside, Or.inr ?_, ?_⟩
        · rw [border_of_narrow notEmpty found probed, passed]
          rfl
        · simp [passed]
        · simpa [passed] using last
    | false =>
        have atFirst : place = 0 := by simpa [passed] using first
        refine ⟨place, ?_, Nat.zero_le _, Nat.le_of_lt inside, Or.inl atFirst, Or.inr ?_⟩
        · rw [border_of_narrow notEmpty found probed, passed]
          rfl
        · simp [passed]

end GridSort
