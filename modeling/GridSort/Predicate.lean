import GridSort.Fault
import GridSort.Element.Order

namespace GridSort

/-! Predicates say which key comes strictly before which. A predicate may answer
anything, and it may fault in place of an answer. -/

abbrev Predicate (α : Type) := α → α → Except Fault Bool

namespace Predicate

def ofTest (test : α → α → Bool) : Predicate α :=
  fun first second => .ok (test first second)

def on (less : Predicate β) (view : α → β) : Predicate α :=
  fun first second => less (view first) (view second)

def always : Predicate α := ofTest fun _ _ => true

def never : Predicate α := ofTest fun _ _ => false

/-- Faults, before it compares, when either argument is the marked one. -/
def refusing [DecidableEq α] (less : Predicate α) (marked : α) (fault : Fault) :
    Predicate α :=
  fun first second =>
    if first = marked ∨ second = marked then .error fault else less first second

variable {type : ElementType}

def less : Predicate (Element type) := ofTest Element.less

def greater : Predicate (Element type) :=
  ofTest fun first second => second.less first

def lessEqual : Predicate (Element type) := ofTest Element.lessEqual

def byMagnitude : Predicate (Element type) := ofTest Element.lessMagnitude

def byResidue (modulus : Nat) : Predicate (Element type) :=
  ofTest fun first second =>
    decide (first.residue modulus < second.residue modulus)

@[simp] theorem ofTest_apply (test : α → α → Bool) (first second : α) :
    ofTest test first second = .ok (test first second) := rfl

@[simp] theorem on_apply (less : Predicate β) (view : α → β) (first second : α) :
    less.on view first second = less (view first) (view second) := rfl

theorem greater_eq_less_swap (first second : Element type) :
    greater first second = less second first := rfl

theorem refusing_of_ne [DecidableEq α] {marked first second : α} (fault : Fault)
    (less : Predicate α) (hfirst : first ≠ marked) (hsecond : second ≠ marked) :
    less.refusing marked fault first second = less first second := by
  simp [refusing, hfirst, hsecond]

end Predicate

end GridSort
