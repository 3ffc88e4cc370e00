import GridSort.Proofs.Merge.StableSort

namespace GridSort

/-! A predicate that holds of ties as well. It puts positions into the order in which the strict
one puts their mirror images, so that ties come out the other way round. -/

namespace Predicate

/-- The second does not come before the first. -/
def nonStrict (less : Predicate α) : Predicate α :=
  fun first second => (less second first).map not

theorem nonStrict_of_answer {less : Predicate α} {first second : α} {answer : Bool}
    (answered : less second first = .ok answer) :
    less.nonStrict first second = .ok (!answer) := by
  rw [nonStrict, answered]
  rfl

/-- Numbers that are not a NaN are compared by the companion of `less`. -/
theorem nonStrict_less {type : ElementType} {first second : Element type}
    (hfirst : ∃ ordinals, first.ordinals? = some ordinals)
    (hsecond : ∃ ordinals, second.ordinals? = some ordinals) :
    less.nonStrict first second = lessEqual first second := by
  obtain ⟨before, hbefore⟩ := hfirst
  obtain ⟨after, hafter⟩ := hsecond
  have answered : less second first = .ok (second.less first) := rfl
  rw [nonStrict_of_answer answered, lessEqual, ofTest_apply, Element.less, Element.lessEqual,
    hbefore, hafter]

/-- Where all keys tie, the companion always holds. -/
theorem nonStrict_of_tie {less : Predicate α} {first second : α}
    (tied : less second first = .ok false) : less.nonStrict first second = always first second :=
  nonStrict_of_answer tied

theorem answerAt_of_ok {less : Predicate α} {content : Nat → α} {first second : Nat}
    {answer : Bool} (answered : less (content first) (content second) = .ok answer) :
    less.answerAt content first second = answer := by
  rw [answerAt, answered]

end Predicate

/-- The position that is as far from the end as the given one is from the start. -/
def mirrored (size position : Nat) : Nat := size - 1 - position

section Mirrored

variable {size first second : Nat} {content : Nat → α}

theorem mirrored_lt (inside : first < size) : mirrored size first < size := by
  unfold mirrored
  omega

theorem mirrored_mirrored (inside : first < size) :
    mirrored size (mirrored size first) = first := by
  unfold mirrored
  omega

theorem mirrored_lt_mirrored (inside : first < size) (before : second < first) :
    mirrored size first < mirrored size second := by
  unfold mirrored
  omega

theorem map_mirrored_range (size : Nat) (content : Nat → α) :
    (List.range size).map (fun position => content (mirrored size position)) =
      ((List.range size).map content).reverse := by
  apply List.ext_getElem
  · simp
  · intro index inside _
    simp [mirrored]

theorem perm_map_mirrored {positions : List Nat} (perm : positions.Perm (List.range size)) :
    (positions.map (mirrored size)).Perm (List.range size) := by
  have whole := perm.map (mirrored size)
  have back := map_mirrored_range size id
  rw [List.map_id] at back
  exact whole.trans ((List.Perm.of_eq back).trans (List.reverse_perm _))

/-- What stands at the mirror images is what stands at the positions. -/
theorem heldBelow_mirrored {element : α}
    (held : HeldBelow (fun position => content (mirrored size position)) size element) :
    HeldBelow content size element := by
  obtain ⟨position, inside, rfl⟩ := held
  exact ⟨mirrored size position, mirrored_lt inside, rfl⟩

/-- The test for ties as well orders positions as the strict one orders their images. -/
theorem precedes_mirrored {test other : Nat → Nat → Bool} (hfirst : first < size)
    (hsecond : second < size)
    (companion : ∀ one two, one < size → two < size →
      other one two = !test (mirrored size two) (mirrored size one)) :
    Precedes other first second ↔
      Precedes test (mirrored size first) (mirrored size second) := by
  rcases Nat.lt_trichotomy first second with lower | rfl | upper
  · rw [precedes_of_lt lower, precedes_of_gt (mirrored_lt_mirrored hsecond lower),
      companion second first hsecond hfirst, Bool.not_eq_false']
  · exact iff_of_false (not_precedes_self first) (not_precedes_self _)
  · rw [precedes_of_gt upper, precedes_of_lt (mirrored_lt_mirrored hfirst upper),
      companion first second hfirst hsecond, Bool.not_eq_true']

end Mirrored

section Companion

variable {less companion : Predicate α} {content : Nat → α} {size : Nat}
  (orders : less.WeaklyOrders (HeldBelow content size))
  (agrees : ∀ first second, first < size → second < size →
    companion (content first) (content second) =
      less.nonStrict (content first) (content second))
include orders agrees

theorem precedes_answerAt_mirrored {first second : Nat} (hfirst : first < size)
    (hsecond : second < size) :
    Precedes (companion.answerAt content) first second ↔
      Precedes (less.answerAt fun position => content (mirrored size position))
        (mirrored size first) (mirrored size second) := by
  refine precedes_mirrored hfirst hsecond fun one two hone htwo => ?_
  have answered := answerAt_eq orders htwo hone
  have forth := agrees one two hone htwo
  rw [Predicate.nonStrict_of_answer answered] at forth
  have back : less (content (mirrored size (mirrored size two)))
      (content (mirrored size (mirrored size one))) = .ok (less.answerAt content two one) := by
    rw [mirrored_mirrored hone, mirrored_mirrored htwo, answered]
  have mirror : less.answerAt (fun position => content (mirrored size position))
      (mirrored size two) (mirrored size one) = less.answerAt content two one :=
    Predicate.answerAt_of_ok back
  rw [Predicate.answerAt_of_ok forth, mirror]

theorem transitiveBelow_companion : TransitiveBelow (companion.answerAt content) size := by
  have mirroredOrders : less.WeaklyOrders
      (HeldBelow (fun position => content (mirrored size position)) size) :=
    orders.mono fun _ => heldBelow_mirrored
  intro first second third hfirst hsecond hthird before later
  rw [precedes_answerAt_mirrored orders agrees hfirst hsecond] at before
  rw [precedes_answerAt_mirrored orders agrees hsecond hthird] at later
  rw [precedes_answerAt_mirrored orders agrees hfirst hthird]
  exact transitiveBelow_answerAt mirroredOrders _ _ _ (mirrored_lt hfirst)
    (mirrored_lt hsecond) (mirrored_lt hthird) before later

/-- What the companion puts in order is the stable sort of the reversed input. -/
theorem stableSort_reverse_of_precedes {origins : List Nat}
    (perm : origins.Perm (List.range size))
    (pairwise : origins.Pairwise (Precedes (companion.answerAt content))) :
    StableSort less ((List.range size).map content).reverse (origins.map content) := by
  have mirroredOrders : less.WeaklyOrders
      (HeldBelow (fun position => content (mirrored size position)) size) :=
    orders.mono fun _ => heldBelow_mirrored
  have below : ∀ position ∈ origins, position < size := fun position member =>
    List.mem_range.mp (perm.mem_iff.mp member)
  have images : (origins.map (mirrored size)).Pairwise
      (Precedes (less.answerAt fun position => content (mirrored size position))) := by
    rw [List.pairwise_map]
    refine pairwise.imp_of_mem ?_
    intro first second hfirst hsecond precedes
    exact (precedes_answerAt_mirrored orders agrees (below first hfirst)
      (below second hsecond)).mp precedes
  have sorted := StableSort.of_precedes mirroredOrders List.pairwise_lt_range
    (fun _ member => List.mem_range.mp member) (perm_map_mirrored perm) images
  rw [map_mirrored_range, List.map_map] at sorted
  convert sorted using 1
  apply List.map_congr_left
  intro position member
  exact congrArg content (mirrored_mirrored (below position member)).symm

end Companion

/-! The stable sort of a list under a strict weak order is one list. -/

section Unique

variable {less : Predicate α} {present : α → Prop} (orders : less.WeaklyOrders present)
include orders

theorem eq_of_ordered {first second : List α} (inside : ∀ element ∈ first, present element)
    (hfirst : first.Pairwise fun one two => less two one = .ok false)
    (hsecond : second.Pairwise fun one two => less two one = .ok false)
    (perm : first.Perm second)
    (stable : ∀ element ∈ first,
      first.filter (less.ties element) = second.filter (less.ties element)) :
    first = second := by
  induction first generalizing second with
  | nil => exact perm.nil_eq
  | cons head rest ih =>
      cases second with
      | nil => exact absurd perm.symm.nil_eq (List.cons_ne_nil _ _).symm
      | cons other others =>
          have headPresent := inside head List.mem_cons_self
          have reflexive := orders.irreflexive head headPresent
          have tied : less.ties head other = true := by
            rw [Predicate.ties_iff]
            constructor
            · rcases List.mem_cons.mp (perm.mem_iff.mp List.mem_cons_self) with rfl | later
              · exact reflexive
              · exact List.rel_of_pairwise_cons hsecond later
            · rcases List.mem_cons.mp (perm.mem_iff.mpr List.mem_cons_self) with rfl | later
              · exact reflexive
              · exact List.rel_of_pairwise_cons hfirst later
          have same := stable head List.mem_cons_self
          rw [List.filter_cons_of_pos (Predicate.ties_iff.mpr ⟨reflexive, reflexive⟩),
            List.filter_cons_of_pos tied] at same
          obtain ⟨rfl, -⟩ := List.cons.inj same
          have rests : rest = others := by
            refine ih (fun element member => inside element (List.mem_cons_of_mem _ member))
              hfirst.of_cons hsecond.of_cons perm.cons_inv fun element member => ?_
            have whole := stable element (List.mem_cons_of_mem _ member)
            rw [List.filter_cons, List.filter_cons] at whole
            split at whole
            · exact (List.cons.inj whole).2
            · exact whole
          rw [rests]

theorem StableSort.unique {input first second : List α}
    (inside : ∀ element ∈ input, present element) (hfirst : StableSort less input first)
    (hsecond : StableSort less input second) : first = second := by
  refine eq_of_ordered orders (fun element member => inside element (hfirst.perm.mem_iff.mp member))
    hfirst.ordered hsecond.ordered (hfirst.perm.trans hsecond.perm.symm) fun element member => ?_
  have given := hfirst.perm.mem_iff.mp member
  rw [hfirst.stable element given, hsecond.stable element given]

end Unique

end GridSort
