import GridSort.Proofs.Merge.Search
import GridSort.Proofs.Predicate.WeakOrder

namespace GridSort

/-! What the searches count. On any run a search ends where the answers change. On a sorted run
they change once, so it has counted the elements that pass, and the places between its two
answers for a key are those of the elements that tie with the key. -/

section Border

variable {run : Array α} {holds : α → Bool} {place : Nat}

/-- The condition holds just before the place, unless the run begins there, and it fails at the
place, unless the run ends there. -/
structure ChangesAt (run : Array α) (holds : α → Bool) (place : Nat) : Prop where
  within : place ≤ run.size
  before : ∀ index (inside : index < run.size), index + 1 = place → holds run[index] = true
  after : ∀ inside : place < run.size, holds run[place] = false

theorem exists_border_changesAt {test : α → Except Fault Bool}
    (answers : ∀ element, test element = .ok (holds element)) (run : Array α) :
    ∃ place, border run test = .ok place ∧ ChangesAt run holds place := by
  have total : ∀ index (inside : index < run.size),
      test run[index] = .ok (run[index]?.any holds) := by
    intro index inside
    rw [answers, Array.getElem?_eq_getElem inside]
    rfl
  obtain ⟨place, found, cuts⟩ := exists_border total
  refine ⟨place, found, cuts.upper, fun index inside next => ?_, fun inside => ?_⟩
  · have passed := cuts.before.resolve_left (by omega)
    rw [← next, Nat.add_sub_cancel, Array.getElem?_eq_getElem inside] at passed
    simpa using passed
  · have failed := cuts.after.resolve_left (by omega)
    rw [Array.getElem?_eq_getElem inside] at failed
    simpa using failed

/-- Whatever passes stands before whatever fails. -/
def Partitioned (run : Array α) (holds : α → Bool) : Prop :=
  run.toList.Pairwise fun first second => holds second = true → holds first = true

theorem Partitioned.holds_of_le (parted : Partitioned run holds) {first second : Nat}
    (ordered : first ≤ second) (inside : second < run.size) (passed : holds run[second] = true) :
    holds run[first] = true := by
  rcases Nat.eq_or_lt_of_le ordered with rfl | lower
  · exact passed
  · exact List.pairwise_iff_getElem.mp parted first second (by simpa using by omega)
      (by simpa using inside) lower (by simpa using passed)

namespace ChangesAt

theorem lt_iff (changes : ChangesAt run holds place) (parted : Partitioned run holds) {index : Nat}
    (inside : index < run.size) : index < place ↔ holds run[index] = true := by
  constructor
  · intro early
    have within := changes.within
    exact parted.holds_of_le (show index ≤ place - 1 by omega) (by omega)
      (changes.before (place - 1) (by omega) (by omega))
  · intro passed
    apply Nat.lt_of_not_le
    intro late
    have failed := changes.after (Nat.lt_of_le_of_lt late inside)
    rw [parted.holds_of_le late inside passed] at failed
    cases failed

theorem eq_countP (changes : ChangesAt run holds place) (parted : Partitioned run holds) :
    place = run.countP holds := by
  have within : place ≤ run.toList.length := by simpa using changes.within
  have front : (run.toList.take place).countP holds = place := by
    rw [List.countP_eq_length.mpr, List.length_take_of_le within]
    intro element member
    obtain ⟨index, inside, rfl⟩ := List.mem_take_iff_getElem.mp member
    have early : index < place ∧ index < run.size := Nat.lt_min.mp inside
    simpa using (changes.lt_iff parted early.2).mp early.1
  have rest : (run.toList.drop place).countP holds = 0 := by
    rw [List.countP_eq_zero]
    intro element member passed
    obtain ⟨index, inside, rfl⟩ := List.mem_drop_iff_getElem.mp member
    have inside : place + index < run.size := by simpa [Nat.add_comm] using inside
    have early := (changes.lt_iff parted inside).mpr (by simpa using passed)
    omega
  calc place = (run.toList.take place).countP holds + (run.toList.drop place).countP holds := by
        rw [front, rest, Nat.add_zero]
    _ = run.toList.countP holds := by rw [← List.countP_append, List.take_append_drop]
    _ = run.countP holds := Array.countP_toList

end ChangesAt

end Border

section Sorted

variable {test : α → α → Bool} {run : Array α} {key : α}

theorem exists_countBefore (test : α → α → Bool) (run : Array α) (key : α) :
    ∃ place, countBefore (.ofTest test) run key = .ok place ∧
      ChangesAt run (fun element => test element key) place :=
  exists_border_changesAt (fun _ => rfl) run

theorem exists_countNotAfter (test : α → α → Bool) (run : Array α) (key : α) :
    ∃ place, countNotAfter (.ofTest test) run key = .ok place ∧
      ChangesAt run (fun element => !test key element) place :=
  exists_border_changesAt (fun _ => rfl) run

variable (orders : (Predicate.ofTest test).WeaklyOrders (· ∈ key :: run.toList))
  (sorted : (Predicate.ofTest test).Sorted run.toList)
include orders

theorem test_eq_false_trans {first second third : α} (hfirst : first ∈ key :: run.toList)
    (hsecond : second ∈ key :: run.toList) (hthird : third ∈ key :: run.toList)
    (left : test first second = false) (right : test second third = false) :
    test first third = false :=
  Except.ok.inj (orders.negTransitive hfirst hsecond hthird (congrArg Except.ok left)
    (congrArg Except.ok right))

include sorted

/-- In a sorted run, what comes before the key stands in front. -/
theorem partitioned_before : Partitioned run fun element => test element key := by
  refine sorted.imp_of_mem fun {first second} hfirst hsecond inOrder passed => ?_
  cases answered : test first key with
  | true => exact answered
  | false =>
      have stays := test_eq_false_trans orders (List.mem_cons_of_mem key hsecond)
        (List.mem_cons_of_mem key hfirst) List.mem_cons_self (Except.ok.inj inOrder) answered
      exact absurd passed (Bool.eq_false_iff.mp stays)

/-- In a sorted run, what the key does not come before stands in front. -/
theorem partitioned_notAfter : Partitioned run fun element => !test key element := by
  refine sorted.imp_of_mem fun {first second} hfirst hsecond inOrder passed => ?_
  rw [Bool.not_eq_true'] at passed ⊢
  exact test_eq_false_trans orders List.mem_cons_self (List.mem_cons_of_mem key hsecond)
    (List.mem_cons_of_mem key hfirst) passed (Except.ok.inj inOrder)

end Sorted

/-- Both searches for a key end, on every run and under every predicate that always answers, at a
place where its answers change. On a run that is sorted under a strict weak order, whether it holds
the key or not, they count the elements that come before the key and those that do not come after
it, and the elements from the one count to the other are those that tie with the key. -/
theorem searches_count (test : α → α → Bool) (run : Array α) (key : α) :
    ∃ before notAfter,
      countBefore (.ofTest test) run key = .ok before ∧
      countNotAfter (.ofTest test) run key = .ok notAfter ∧
      ChangesAt run (fun element => test element key) before ∧
      ChangesAt run (fun element => !test key element) notAfter ∧
      ((Predicate.ofTest test).WeaklyOrders (· ∈ key :: run.toList) →
        (Predicate.ofTest test).Sorted run.toList →
          before = run.countP (fun element => test element key) ∧
          notAfter = run.countP (fun element => !test key element) ∧
          before ≤ notAfter ∧
          ∀ index (inside : index < run.size), before ≤ index ∧ index < notAfter ↔
            (Predicate.ofTest test).ties run[index] key = true) := by
  obtain ⟨before, foundBefore, changesBefore⟩ := exists_countBefore test run key
  obtain ⟨notAfter, foundNotAfter, changesNotAfter⟩ := exists_countNotAfter test run key
  refine ⟨before, notAfter, foundBefore, foundNotAfter, changesBefore, changesNotAfter, ?_⟩
  intro orders sorted
  have frontBefore := partitioned_before orders sorted
  have frontNotAfter := partitioned_notAfter orders sorted
  have countedBefore := changesBefore.eq_countP frontBefore
  have countedNotAfter := changesNotAfter.eq_countP frontNotAfter
  refine ⟨countedBefore, countedNotAfter, ?_, fun index inside => ?_⟩
  · rw [countedBefore, countedNotAfter, ← Array.countP_toList, ← Array.countP_toList]
    refine List.countP_mono_left fun element member passed => ?_
    have back := orders.asymm (List.mem_cons_of_mem key member) List.mem_cons_self
      (congrArg Except.ok passed)
    rw [Except.ok.inj back]
    rfl
  · have early := changesBefore.lt_iff frontBefore inside
    have late := changesNotAfter.lt_iff frontNotAfter inside
    rw [Predicate.ties_iff, late, ← Nat.not_lt, early]
    simp

/-! Five keys, with a tie in the middle. One search is for the key of the tie, one for a key
that is not there. -/

namespace SmallRun

def run : Array (Element .byte) := #[1, 3, 3, 7, 8]

theorem sorted : (Predicate.ofTest Element.less).Sorted run.toList := by
  simp only [Predicate.Sorted, Predicate.ofTest_apply, Except.ok.injEq]
  decide

theorem orders (present : Element .byte → Prop) :
    (Predicate.ofTest Element.less).WeaklyOrders present :=
  (Predicate.less_weaklyOrders _).mono fun _ _ => ⟨_, rfl⟩

end SmallRun

theorem searches_count_small :
    (∃ before notAfter, countBefore .less SmallRun.run 3 = .ok before ∧
      countNotAfter .less SmallRun.run 3 = .ok notAfter ∧ before = 1 ∧ notAfter = 3 ∧
        ∃ inside : 2 < SmallRun.run.size, Predicate.less.ties SmallRun.run[2] 3 = true) ∧
      ∃ before notAfter, countBefore .less SmallRun.run 5 = .ok before ∧
        countNotAfter .less SmallRun.run 5 = .ok notAfter ∧ before = 3 ∧ notAfter = 3 := by
  constructor
  · obtain ⟨before, notAfter, foundBefore, foundNotAfter, -, -, counts⟩ :=
      searches_count Element.less SmallRun.run 3
    obtain ⟨countedBefore, countedNotAfter, -, tied⟩ := counts (SmallRun.orders _) SmallRun.sorted
    have one : before = 1 := countedBefore.trans (by decide)
    have three : notAfter = 3 := countedNotAfter.trans (by decide)
    exact ⟨before, notAfter, foundBefore, foundNotAfter, one, three,
      by decide, (tied 2 (by decide)).mp (by omega)⟩
  · obtain ⟨before, notAfter, foundBefore, foundNotAfter, -, -, counts⟩ :=
      searches_count Element.less SmallRun.run 5
    obtain ⟨countedBefore, countedNotAfter, -, -⟩ := counts (SmallRun.orders _) SmallRun.sorted
    exact ⟨before, notAfter, foundBefore, foundNotAfter, countedBefore.trans (by decide),
      countedNotAfter.trans (by decide)⟩

end GridSort
