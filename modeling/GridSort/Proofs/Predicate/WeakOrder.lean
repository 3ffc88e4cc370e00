import GridSort.Predicate

namespace GridSort

/-! Predicates that order keys, and what it means that they do: the order is strict, and
keys that tie with a third key tie with each other. -/

namespace Predicate

/-- Neither comes before the other. -/
def ties (less : Predicate α) (first second : α) : Bool :=
  match less first second, less second first with
  | .ok false, .ok false => true
  | _, _ => false

theorem ties_iff {less : Predicate α} {first second : α} :
    less.ties first second = true ↔
      less first second = .ok false ∧ less second first = .ok false := by
  unfold ties
  split
  · rename_i forth back
    simp [forth, back]
  · rename_i other
    constructor
    · intro impossible
      cases impossible
    · rintro ⟨forth, back⟩
      exact (other forth back).elim

/-- For these keys, the predicate answers, and is a strict weak order. -/
structure WeaklyOrders (less : Predicate α) (present : α → Prop) : Prop where
  answers : ∀ first second, present first → present second →
    ∃ answer, less first second = .ok answer
  irreflexive : ∀ key, present key → less key key = .ok false
  transitive : ∀ first second third, present first → present second → present third →
    less first second = .ok true → less second third = .ok true →
      less first third = .ok true
  tiesTransitive : ∀ first second third, present first → present second → present third →
    less.ties first second = true → less.ties second third = true →
      less.ties first third = true

variable {less : Predicate α} {present : α → Prop} {first second third : α}

theorem WeaklyOrders.asymm (orders : less.WeaklyOrders present) (hfirst : present first)
    (hsecond : present second) (before : less first second = .ok true) :
    less second first = .ok false := by
  obtain ⟨answer, answered⟩ := orders.answers second first hsecond hfirst
  cases answer with
  | false => exact answered
  | true =>
      have looped := orders.transitive _ _ _ hfirst hsecond hfirst before answered
      rw [orders.irreflexive first hfirst] at looped
      cases looped

theorem WeaklyOrders.negTransitive (orders : less.WeaklyOrders present)
    (hfirst : present first) (hsecond : present second) (hthird : present third)
    (left : less first second = .ok false) (right : less second third = .ok false) :
    less first third = .ok false := by
  obtain ⟨answer, answered⟩ := orders.answers first third hfirst hthird
  obtain ⟨back, leftBack⟩ := orders.answers second first hsecond hfirst
  obtain ⟨forth, rightBack⟩ := orders.answers third second hthird hsecond
  cases answer with
  | false => exact answered
  | true =>
      cases back with
      | true =>
          rw [orders.transitive _ _ _ hsecond hfirst hthird leftBack answered] at right
          cases right
      | false =>
          cases forth with
          | true =>
              rw [orders.transitive _ _ _ hfirst hthird hsecond answered rightBack] at left
              cases left
          | false =>
              have tied := orders.tiesTransitive _ _ _ hfirst hsecond hthird
                (ties_iff.mpr ⟨left, leftBack⟩) (ties_iff.mpr ⟨right, rightBack⟩)
              exact (ties_iff.mp tied).1

theorem WeaklyOrders.mono {fewer : α → Prop} (orders : less.WeaklyOrders present)
    (presents : ∀ key, fewer key → present key) : less.WeaklyOrders fewer :=
  ⟨fun first second hfirst hsecond =>
      orders.answers _ _ (presents first hfirst) (presents second hsecond),
    fun key helement => orders.irreflexive _ (presents key helement),
    fun first second third hfirst hsecond hthird =>
      orders.transitive _ _ _ (presents first hfirst) (presents second hsecond)
        (presents third hthird),
    fun first second third hfirst hsecond hthird =>
      orders.tiesTransitive _ _ _ (presents first hfirst) (presents second hsecond)
        (presents third hthird)⟩

theorem WeaklyOrders.on (orders : less.WeaklyOrders present) (view : β → α) :
    (less.on view).WeaklyOrders fun element => present (view element) :=
  ⟨fun _ _ => orders.answers _ _, fun _ => orders.irreflexive _,
    fun _ _ _ => orders.transitive _ _ _, fun _ _ _ => orders.tiesTransitive _ _ _⟩

/-- No later element of the run comes before an earlier one. -/
def Sorted (less : Predicate α) (run : List α) : Prop :=
  run.Pairwise fun first second => less second first = .ok false

section Sorted

variable {run : List α} {other : α} (orders : less.WeaklyOrders present)
  (sorted : less.Sorted (first :: run)) (here : ∀ key ∈ first :: run, present key)
  (there : present other) (member : second ∈ first :: run)
include orders sorted here there member

/-- What comes before the head of a sorted run comes before all of it. -/
theorem Sorted.before_of_head (before : less other first = .ok true) :
    less other second = .ok true := by
  rcases List.mem_cons.mp member with rfl | later
  · exact before
  · obtain ⟨answer, answered⟩ := orders.answers _ _ there (here _ member)
    cases answer with
    | true => exact answered
    | false =>
        have back := (List.pairwise_cons.mp sorted).1 second later
        rw [orders.negTransitive there (here _ member) (here _ List.mem_cons_self) answered back]
          at before
        cases before

/-- What the head of a sorted run does not come before, none of it comes before. -/
theorem Sorted.not_before_of_head (stays : less first other = .ok false) :
    less second other = .ok false := by
  rcases List.mem_cons.mp member with rfl | later
  · exact stays
  · exact orders.negTransitive (here _ member) (here _ List.mem_cons_self) there
      ((List.pairwise_cons.mp sorted).1 second later) stays

end Sorted

/-- Elements that are not a NaN are ordered, whatever their type. -/
theorem less_weaklyOrders (type : ElementType) :
    WeaklyOrders Predicate.less fun element : Element type =>
      ∃ ordinals, element.ordinals? = some ordinals := by
  have answered : ∀ {first second : Element type} {before after : List Int},
      first.ordinals? = some before → second.ordinals? = some after →
        Predicate.less first second = .ok (decide (before < after)) := by
    intro first second before after hbefore hafter
    rw [Predicate.less, ofTest_apply, Element.less, hbefore, hafter]
  refine ⟨?_, ?_, ?_, ?_⟩
  · rintro first second ⟨before, hbefore⟩ ⟨after, hafter⟩
    exact ⟨_, answered hbefore hafter⟩
  · rintro key ⟨ordinals, held⟩
    rw [answered held held, decide_eq_false (List.lt_irrefl ordinals)]
  · rintro first second third ⟨low, hlow⟩ ⟨middle, hmiddle⟩ ⟨high, hhigh⟩ lower upper
    rw [answered hlow hmiddle, Except.ok.injEq, decide_eq_true_eq] at lower
    rw [answered hmiddle hhigh, Except.ok.injEq, decide_eq_true_eq] at upper
    rw [answered hlow hhigh, decide_eq_true (List.lt_trans lower upper)]
  · rintro first second third ⟨low, hlow⟩ ⟨middle, hmiddle⟩ ⟨high, hhigh⟩ left right
    rw [ties_iff, answered hlow hmiddle, answered hmiddle hlow] at left
    rw [ties_iff, answered hmiddle hhigh, answered hhigh hmiddle] at right
    rw [ties_iff, answered hlow hhigh, answered hhigh hlow]
    simp only [Except.ok.injEq, decide_eq_false_iff_not, List.not_lt] at left right ⊢
    exact ⟨List.le_trans right.1 left.1, List.le_trans left.2 right.2⟩

end Predicate

end GridSort
