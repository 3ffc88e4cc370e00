import GridSort.Element.Basic

namespace GridSort

/-! How elements compare. Each element but a NaN has ordinals, integers that are
compared one after the other; a NaN has none and compares with nothing. -/

namespace FloatFormat

variable (format : FloatFormat)

def signWeight : Nat := Nat.pow 2 (format.width.bits - 1)

/-- The pattern of infinity: the exponent all ones, the fraction zero. -/
def infinity : Nat := format.signWeight - Nat.pow 2 format.fractionBits

/-- Patterns grow with the absolute value, so sign and remaining bits order all
numbers. The two zeros get one ordinal. -/
def ordinal? (pattern : Nat) : Option Int :=
  let magnitude := pattern % format.signWeight
  if format.infinity < magnitude then none
  else if pattern < format.signWeight then some magnitude
  else some (-magnitude)

end FloatFormat

namespace Element

def components (width : Width) (count pattern : Nat) : List Nat :=
  (List.range count).map fun index =>
    (pattern >>> (index * width.bits)) % Nat.pow 2 width.bits

def ordinals? : {type : ElementType} → Element type → Option (List Int)
  | .unsigned _, element => some [(element.toNat : Int)]
  | .signed _, element => some [element.toInt]
  | .float format, element => (format.ordinal? element.toNat).map fun ordinal => [ordinal]
  | .tuple width count, element =>
      some ((components width count element.toNat).map Int.ofNat)

variable {type : ElementType}

def less (first second : Element type) : Bool :=
  match first.ordinals?, second.ordinals? with
  | some before, some after => decide (before < after)
  | _, _ => false

def lessEqual (first second : Element type) : Bool :=
  match first.ordinals?, second.ordinals? with
  | some before, some after => !decide (after < before)
  | _, _ => false

/-- Compares absolute values, of the first component where there are several. -/
def lessMagnitude (first second : Element type) : Bool :=
  match first.ordinals?, second.ordinals? with
  | some (before :: _), some (after :: _) => decide (before.natAbs < after.natAbs)
  | _, _ => false

/-- The non-negative remainder of the number, of the first component where there
are several; a float counts as its bit pattern. -/
def residue (modulus : Nat) : {type : ElementType} → Element type → Nat
  | .unsigned _, element => element.toNat % modulus
  | .signed _, element => (element.toInt % (modulus : Int)).toNat
  | .float _, element => element.toNat % modulus
  | .tuple width count, element =>
      (components width count element.toNat).headD 0 % modulus

theorem less_eq_true_iff {first second : Element type} :
    less first second = true ↔
      ∃ before after, first.ordinals? = some before ∧
        second.ordinals? = some after ∧ before < after := by
  unfold less
  split
  · rename_i before after hbefore hafter
    simp [hbefore, hafter]
  · rename_i absent
    constructor
    · intro impossible
      cases impossible
    · rintro ⟨before, after, hbefore, hafter, _⟩
      exact (absent before after hbefore hafter).elim

theorem less_irrefl (element : Element type) : less element element = false := by
  rw [Bool.eq_false_iff, ne_eq, less_eq_true_iff]
  rintro ⟨before, after, hbefore, hafter, lower⟩
  rw [hbefore] at hafter
  cases hafter
  exact List.lt_irrefl _ lower

theorem less_asymm {first second : Element type} (h : less first second = true) :
    less second first = false := by
  obtain ⟨before, after, hbefore, hafter, lower⟩ := less_eq_true_iff.mp h
  rw [Bool.eq_false_iff, ne_eq, less_eq_true_iff]
  rintro ⟨later, earlier, hlater, hearlier, upper⟩
  rw [hafter] at hlater
  rw [hbefore] at hearlier
  cases hlater
  cases hearlier
  exact List.lt_irrefl _ (List.lt_trans lower upper)

end Element

end GridSort
