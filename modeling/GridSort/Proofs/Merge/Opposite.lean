import GridSort.Proofs.Merge.StableSort

namespace GridSort

/-! An order and its opposite. What the one sorts, the other one sorts backwards, if it is given
the list from its end: then ties are in the opposite order as well. -/

namespace Predicate

/-- The first comes before the second if by the predicate it is the other way round. -/
def opposite (less : Predicate α) : Predicate α :=
  fun first second => less second first

variable {less : Predicate α} {present : α → Prop} {first second : α}

theorem ties_opposite_iff : less.opposite.ties first second = true ↔
    less.ties first second = true := by
  rw [ties_iff, ties_iff]
  exact and_comm

theorem ties_opposite (element : α) : less.opposite.ties element = less.ties element :=
  funext fun _ => Bool.eq_iff_iff.mpr ties_opposite_iff

theorem WeaklyOrders.opposite (orders : less.WeaklyOrders present) :
    less.opposite.WeaklyOrders present where
  answers := fun _ _ hfirst hsecond => orders.answers _ _ hsecond hfirst
  irreflexive := orders.irreflexive
  transitive := fun _ _ _ hfirst hsecond hthird before later =>
    orders.transitive _ _ _ hthird hsecond hfirst later before
  tiesTransitive := by
    intro first second third hfirst hsecond hthird left right
    rw [ties_opposite_iff] at left right ⊢
    exact orders.tiesTransitive _ _ _ hfirst hsecond hthird left right

end Predicate

theorem StableSort.reverse {less : Predicate α} {input output : List α}
    (sorted : StableSort less.opposite input output) :
    StableSort less input.reverse output.reverse where
  ordered := List.pairwise_reverse.mpr sorted.ordered
  perm := (List.reverse_perm _).trans (sorted.perm.trans (List.reverse_perm _).symm)
  stable := by
    intro element member
    have same := sorted.stable element (List.mem_reverse.mp member)
    rw [Predicate.ties_opposite] at same
    rw [List.filter_reverse, List.filter_reverse, same]

end GridSort
