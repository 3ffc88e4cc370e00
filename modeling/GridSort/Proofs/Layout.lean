import GridSort.Layout
import GridSort.Memory.Buffer

namespace GridSort

/-! When scratch memory can be divided, and when a part of it can be seen as elements. -/

namespace Layout

variable {keyType valueType : ElementType} {size : Nat}

theorem regionBytes?_eq_some_iff {type : ElementType} {bytes : Nat} :
    regionBytes? type size = some bytes ↔
      bytes = Size.roundUp (size * type.size) alignment ∧ bytes ≤ Size.largest := by
  have covers := Size.le_roundUp (size * type.size) (show 0 < alignment by decide)
  rw [regionBytes?, Option.bind_eq_some_iff]
  constructor
  · rintro ⟨exact, fits, padded⟩
    obtain ⟨rfl, -⟩ := Size.fit?_eq_some_iff.mp fits
    obtain ⟨rfl, small⟩ := Size.fit?_eq_some_iff.mp padded
    exact ⟨rfl, small⟩
  · rintro ⟨rfl, small⟩
    exact ⟨_, Size.fit?_eq_some_iff.mpr ⟨rfl, Nat.le_trans covers small⟩,
      Size.fit?_eq_some_iff.mpr ⟨rfl, small⟩⟩

/-- The layout of a machine whose words are never too short. -/
def ideal (keyType valueType : ElementType) (size : Nat) : Layout :=
  ⟨Size.roundUp (size * keyType.size) alignment,
    Size.roundUp (size * valueType.size) alignment⟩

theorem ofSize_eq_ok_iff {layout : Layout} : ofSize keyType valueType size = .ok layout ↔
    layout = ideal keyType valueType size ∧ layout.total ≤ Size.largest := by
  have unfolded : ofSize? keyType valueType size = some layout ↔
      layout = ideal keyType valueType size ∧ layout.total ≤ Size.largest := by
    unfold ofSize? ideal
    simp only [Option.bind_eq_bind, Option.bind_eq_some_iff, regionBytes?_eq_some_iff,
      Size.fit?_eq_some_iff]
    constructor
    · rintro ⟨keyBytes, ⟨rfl, -⟩, valueBytes, ⟨rfl, -⟩, sum, ⟨rfl, small⟩, made⟩
      cases made
      exact ⟨rfl, small⟩
    · rintro ⟨rfl, small⟩
      dsimp only [total] at small
      exact ⟨_, ⟨rfl, by omega⟩, _, ⟨rfl, by omega⟩, _, ⟨rfl, small⟩, rfl⟩
  rw [← unfolded, ofSize]
  cases ofSize? keyType valueType size with
  | none => simp
  | some found => simp

theorem ofSize_eq_error (overflows : Size.largest < (ideal keyType valueType size).total) :
    ofSize keyType valueType size = .error (.invalidValue (.scratchOverflow size)) := by
  cases found : ofSize keyType valueType size with
  | ok layout =>
      obtain ⟨rfl, small⟩ := ofSize_eq_ok_iff.mp found
      exact absurd small (Nat.not_le.mpr overflows)
  | error error =>
      unfold ofSize at found
      split at found
      · cases found
      · exact found.symm

theorem ofSize_zero : ofSize keyType valueType 0 = .ok ⟨0, 0⟩ := by
  rw [ofSize_eq_ok_iff, ideal, Nat.zero_mul, Nat.zero_mul]
  decide

end Layout

namespace Buffer

theorem view_eq {buffer : Buffer .byte} {type : ElementType} {offset length : Nat}
    (small : length * type.size + offset ≤ Size.largest)
    (aligned : offset % type.alignment = 0) :
    buffer.view type offset length =
      if length * type.size + offset ≤ buffer.length then
        .ok ⟨buffer.allocation, offset, length⟩
      else
        .error (.invalidValue
          (.viewTooLong (length * type.size + offset) buffer.length)) := by
  have fits : Size.fit? (length * type.size) = some (length * type.size) :=
    Size.fit?_eq_some_iff.mpr ⟨rfl, by omega⟩
  have ends : Size.fit? (length * type.size + offset) = some (length * type.size + offset) :=
    Size.fit?_eq_some_iff.mpr ⟨rfl, small⟩
  rw [view, fits, Option.bind_some, ends]
  dsimp only
  rw [if_pos aligned]

end Buffer

end GridSort
