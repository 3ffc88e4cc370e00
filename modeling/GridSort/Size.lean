import GridSort.Fault

namespace GridSort.Size

/-! Sizes, lengths and indices are words of 64 bits. They are held as naturals,
and each operation that could leave the word range says what it does there:
it faults, it saturates, or it has no answer. -/

def limit : Nat := Nat.pow 2 64

def largest : Nat := limit - 1

def add (a b : Nat) : Except Fault Nat :=
  if a + b ≤ largest then .ok (a + b) else .error (.overflow .add)

def sub (a b : Nat) : Except Fault Nat :=
  if b ≤ a then .ok (a - b) else .error (.overflow .subtract)

def mul (a b : Nat) : Except Fault Nat :=
  if a * b ≤ largest then .ok (a * b) else .error (.overflow .multiply)

def div (a b : Nat) : Except Fault Nat :=
  if b = 0 then .error .divisionByZero else .ok (a / b)

def clampedAdd (a b : Nat) : Nat :=
  min (a + b) largest

def double (a : Nat) : Nat :=
  min (2 * a) largest

def fit? (a : Nat) : Option Nat :=
  if a ≤ largest then some a else none

def ceilDiv (a b : Nat) : Nat :=
  (a + b - 1) / b

/-- The least multiple of `step` that is not below `a`. -/
def roundUp (a step : Nat) : Nat :=
  ceilDiv a step * step

theorem add_eq_ok {a b : Nat} (h : a + b ≤ largest) : add a b = .ok (a + b) :=
  if_pos h

theorem sub_eq_ok {a b : Nat} (h : b ≤ a) : sub a b = .ok (a - b) :=
  if_pos h

theorem mul_eq_ok {a b : Nat} (h : a * b ≤ largest) : mul a b = .ok (a * b) :=
  if_pos h

theorem div_eq_ok {a b : Nat} (h : b ≠ 0) : div a b = .ok (a / b) :=
  if_neg h

theorem fit?_eq_some_iff {a b : Nat} : fit? a = some b ↔ a = b ∧ a ≤ largest := by
  unfold fit?
  split
  · simp_all
  · simp only [reduceCtorEq, false_iff]
    omega

theorem le_roundUp (a : Nat) {step : Nat} (positive : 0 < step) :
    a ≤ roundUp a step := by
  unfold roundUp ceilDiv
  have division := Nat.div_add_mod (a + step - 1) step
  have remainder := Nat.mod_lt (a + step - 1) positive
  rw [Nat.mul_comm] at division
  omega

theorem dvd_roundUp (a step : Nat) : step ∣ roundUp a step :=
  Nat.dvd_mul_left step (ceilDiv a step)

theorem roundUp_lt (a : Nat) {step : Nat} (positive : 0 < step) :
    roundUp a step < a + step := by
  unfold roundUp ceilDiv
  have := Nat.div_mul_le_self (a + step - 1) step
  omega

/-! Run widths of a bottom-up merge: each pass doubles the width, until one run
covers everything. -/

/-- The widths from `start` on, each twice the one before, that are still below
`bound`. -/
def doublings (start bound : Nat) : List Nat :=
  if 0 < start ∧ start < min bound largest then
    start :: doublings (double start) bound
  else
    []
termination_by largest - start
decreasing_by
  simp only [double]
  omega

theorem doublings_of_le {start bound : Nat} (h : bound ≤ start) :
    doublings start bound = [] := by
  rw [doublings, if_neg]
  omega

theorem lt_of_mem_doublings {start bound width : Nat}
    (member : width ∈ doublings start bound) : width < bound := by
  fun_induction doublings start bound with
  | case1 start inside ih =>
      rcases List.mem_cons.mp member with rfl | later
      · omega
      · exact ih later
  | case2 => cases member

end GridSort.Size
