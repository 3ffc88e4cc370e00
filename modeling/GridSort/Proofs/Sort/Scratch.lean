import Mathlib.Order.Bounds.Defs
import GridSort.Proofs.Memory.Views
import GridSort.Proofs.Sort.Storage

namespace GridSort

/-! The scratch memory of a sort, measured in naturals: the words of the machine matter only
where the sum of both regions is too large for them. -/

theorem Size.isLeast_roundUp (bytes : Nat) {step : Nat} (positive : 0 < step) :
    IsLeast {multiple | step ∣ multiple ∧ bytes ≤ multiple} (roundUp bytes step) := by
  refine ⟨⟨dvd_roundUp bytes step, le_roundUp bytes positive⟩, ?_⟩
  rintro _ ⟨⟨count, rfl⟩, covers⟩
  have below : ceilDiv bytes step * step < (count + 1) * step := by
    rw [Nat.succ_mul, Nat.mul_comm count]
    exact Nat.lt_of_lt_of_le (roundUp_lt bytes positive) (Nat.add_le_add_right covers step)
  rw [roundUp, Nat.mul_comm step]
  exact Nat.mul_le_mul_right step (Nat.le_of_lt_succ (Nat.lt_of_mul_lt_mul_right below))

namespace Layout

variable {keyType valueType : ElementType} {size fewer : Nat}

def keyRegion (layout : Layout) (allocation : Nat) : Region :=
  ⟨⟨allocation, 0⟩, layout.keyBytes⟩

def valueRegion (layout : Layout) (allocation : Nat) : Region :=
  ⟨⟨allocation, layout.keyBytes⟩, layout.valueBytes⟩

theorem keyRegion_disjoint (layout : Layout) (allocation : Nat) :
    (layout.keyRegion allocation).Disjoint (layout.valueRegion allocation) :=
  Or.inr (Or.inr (Or.inr (Or.inl (Nat.le_of_eq (Nat.zero_add layout.keyBytes)))))

theorem alignment_dvd_keyBytes_ideal : alignment ∣ (ideal keyType valueType size).keyBytes :=
  Size.dvd_roundUp _ _

theorem mul_size_le_keyBytes_ideal :
    size * keyType.size ≤ (ideal keyType valueType size).keyBytes :=
  Size.le_roundUp _ (by decide)

/-- Where the second view ends. -/
theorem values_le_total_ideal : size * valueType.size + (ideal keyType valueType size).keyBytes ≤
    (ideal keyType valueType size).total := by
  have values : size * valueType.size ≤ (ideal keyType valueType size).valueBytes :=
    Size.le_roundUp _ (by decide)
  rw [Nat.add_comm]
  exact Nat.add_le_add_left values _

theorem roundUp_mul_mono (few : fewer ≤ size) (bytes : Nat) :
    Size.roundUp (fewer * bytes) alignment ≤ Size.roundUp (size * bytes) alignment := by
  have positive : 0 < alignment := by decide
  have least := Size.isLeast_roundUp (fewer * bytes) positive
  have covers := Size.le_roundUp (size * bytes) positive
  exact least.2 ⟨Size.dvd_roundUp _ _, (Nat.mul_le_mul_right bytes few).trans covers⟩

theorem ofSize_eq (keyType valueType : ElementType) (size : Nat) :
    ofSize keyType valueType size =
      if Size.largest < (ideal keyType valueType size).total then
        .error (.invalidValue (.scratchOverflow size))
      else .ok (ideal keyType valueType size) := by
  split
  · exact ofSize_eq_error ‹_›
  · exact ofSize_eq_ok_iff.mpr ⟨rfl, Nat.le_of_not_lt ‹_›⟩

end Layout

namespace Buffer

variable {storage : Buffer .byte} {keyType valueType : ElementType} {size fewer : Nat}

/-- Both views that a sort of this size takes of its scratch memory are granted. -/
def Accommodates (storage : Buffer .byte) (keyType valueType : ElementType) (size : Nat) : Prop :=
  ∃ layout keys values, Layout.ofSize keyType valueType size = .ok layout ∧
    storage.view keyType 0 size = .ok keys ∧
    storage.view valueType layout.keyBytes size = .ok values

/-- The second view ends last. What pads the values may be missing. -/
theorem accommodates_iff : storage.Accommodates keyType valueType size ↔
    (Layout.ideal keyType valueType size).total ≤ Size.largest ∧
      size * valueType.size + (Layout.ideal keyType valueType size).keyBytes ≤
        storage.length := by
  constructor
  · rintro ⟨layout, keys, values, found, -, granted⟩
    obtain ⟨rfl, small⟩ := Layout.ofSize_eq_ok_iff.mp found
    obtain ⟨⟨-, ends, -⟩, -⟩ := view_eq_ok_iff.mp granted
    exact ⟨small, ends⟩
  · rintro ⟨small, ends⟩
    have covered := Layout.values_le_total_ideal.trans small
    have before : size * keyType.size ≤
        size * valueType.size + (Layout.ideal keyType valueType size).keyBytes :=
      Layout.mul_size_le_keyBytes_ideal.trans (Nat.le_add_left _ _)
    have aligned : valueType.alignment ∣ (Layout.ideal keyType valueType size).keyBytes :=
      valueType.alignment_dvd_256.trans Layout.alignment_dvd_keyBytes_ideal
    exact ⟨_, _, _, Layout.ofSize_eq_ok_iff.mpr ⟨rfl, small⟩,
      view_eq_ok_iff.mpr ⟨⟨before.trans covered, before.trans ends, Nat.dvd_zero _⟩, rfl⟩,
      view_eq_ok_iff.mpr ⟨⟨covered, ends, aligned⟩, rfl⟩⟩

theorem accommodates_of_bytesNeeded
    (small : (Layout.ideal keyType valueType size).total ≤ Size.largest)
    (enough : (Layout.ideal keyType valueType size).bytesNeeded ≤ storage.length) :
    storage.Accommodates keyType valueType size :=
  accommodates_iff.mpr ⟨small,
    Layout.values_le_total_ideal.trans ((Layout.total_le_bytesNeeded _).trans enough)⟩

theorem Accommodates.mono (more : storage.Accommodates keyType valueType size)
    (few : fewer ≤ size) : storage.Accommodates keyType valueType fewer := by
  obtain ⟨small, ends⟩ := accommodates_iff.mp more
  have keys := Layout.roundUp_mul_mono few keyType.size
  exact accommodates_iff.mpr
    ⟨(Nat.add_le_add keys (Layout.roundUp_mul_mono few valueType.size)).trans small,
      (Nat.add_le_add (Nat.mul_le_mul_right _ few) keys).trans ends⟩

end Buffer

theorem SortRequest.accepts_iff {keyType valueType : ElementType}
    {request : SortRequest keyType valueType} {storage : Buffer .byte}
    (positive : 0 < request.blockSize) (room : request.target.HasRoom request.size) :
    (∃ layout scratch, request.layout = .ok layout ∧
        request.accept layout storage = .ok scratch) ↔
      storage.Accommodates keyType valueType request.size := by
  rw [Buffer.accommodates_iff]
  constructor
  · rintro ⟨layout, scratch, found, accepted⟩
    obtain ⟨rfl, small⟩ := Layout.ofSize_eq_ok_iff.mp found
    refine ⟨small, Nat.le_of_not_lt fun short => ?_⟩
    rw [Nat.add_comm] at short
    rw [accept_eq found, if_neg (Nat.ne_of_gt positive), if_neg (Nat.not_lt.mpr room.1),
      if_neg fun short => Nat.not_lt.mpr (room.2 short.1) short.2, if_pos short] at accepted
    cases accepted
  · rintro ⟨small, ends⟩
    have found : request.layout = .ok (Layout.ideal keyType valueType request.size) :=
      Layout.ofSize_eq_ok_iff.mpr ⟨rfl, small⟩
    rw [Nat.add_comm] at ends
    exact ⟨_, _, found, accept_eq_ok found positive room ends⟩

namespace Layout

/-- Each region is as long as the least multiple of the alignment that has room for its elements,
and a layout is refused only if the sum of these is not a word. The regions are apart and aligned
for every type, what is asked for is enough for both views, and what is enough for some elements
is enough for fewer. A type of bytes can be of any size, so the sizes of the two types are any. -/
theorem ofSize_exact (keyType valueType : ElementType) (size : Nat) :
    ∃ layout : Layout,
      IsLeast {bytes | 256 ∣ bytes ∧ size * keyType.size ≤ bytes} layout.keyBytes ∧
      IsLeast {bytes | 256 ∣ bytes ∧ size * valueType.size ≤ bytes} layout.valueBytes ∧
      (ofSize keyType valueType size =
        if Size.largest < layout.keyBytes + layout.valueBytes then
          .error (.invalidValue (.scratchOverflow size))
        else .ok layout) ∧
      (layout.bytesNeeded = if layout.keyBytes + layout.valueBytes = 0 then 4
        else layout.keyBytes + layout.valueBytes) ∧
      (∀ allocation,
        (layout.keyRegion allocation).Disjoint (layout.valueRegion allocation)) ∧
      (∀ alignment base, alignment ∣ 256 → 256 ∣ base →
        (base + 0) % alignment = 0 ∧ (base + layout.keyBytes) % alignment = 0) ∧
      ∀ storage : Buffer .byte,
        (∀ keys values, storage.view keyType 0 size = .ok keys →
          storage.view valueType layout.keyBytes size = .ok values →
            keys.extent.Within (layout.keyRegion storage.allocation) ∧
            values.extent.Within (layout.valueRegion storage.allocation)) ∧
        (ofSize keyType valueType size = .ok layout → layout.bytesNeeded ≤ storage.length →
          storage.Accommodates keyType valueType size) ∧
        (storage.Accommodates keyType valueType size → ∀ fewer ≤ size,
          storage.Accommodates keyType valueType fewer) ∧
        ∀ request : SortRequest keyType valueType, request.size = size →
          0 < request.blockSize → request.target.HasRoom size →
            ((∃ layout scratch, request.layout = .ok layout ∧
                request.accept layout storage = .ok scratch) ↔
              storage.Accommodates keyType valueType size) := by
  refine ⟨ideal keyType valueType size, Size.isLeast_roundUp _ (by decide),
    Size.isLeast_roundUp _ (by decide), ofSize_eq keyType valueType size, rfl,
    keyRegion_disjoint _, ?_, fun storage => ⟨?_, ?_, ?_, ?_⟩⟩
  · intro alignment base divides aligned
    have keys : 256 ∣ (ideal keyType valueType size).keyBytes := alignment_dvd_keyBytes_ideal
    exact ⟨Nat.mod_eq_zero_of_dvd (divides.trans aligned),
      Nat.mod_eq_zero_of_dvd (divides.trans (Nat.dvd_add aligned keys))⟩
  · intro keys values keysGranted valuesGranted
    obtain ⟨-, rfl⟩ := Buffer.view_eq_ok_iff.mp keysGranted
    obtain ⟨-, rfl⟩ := Buffer.view_eq_ok_iff.mp valuesGranted
    exact ⟨⟨rfl, Nat.le_refl _, Nat.add_le_add_left (Size.le_roundUp _ (by decide)) _⟩,
      ⟨rfl, Nat.le_refl _, Nat.add_le_add_left (Size.le_roundUp _ (by decide)) _⟩⟩
  · intro found enough
    exact Buffer.accommodates_of_bytesNeeded (ofSize_eq_ok_iff.mp found).2 enough
  · exact fun more fewer few => more.mono few
  · rintro request rfl positive room
    exact SortRequest.accepts_iff positive room

/-- Three pairs of a byte and a word of eight. -/
theorem ofSize_exact_small :
    ofSize .byte (.unsigned .w64) 3 = .ok ⟨256, 256⟩ ∧
      (⟨256, 256⟩ : Layout).bytesNeeded = 512 ∧
      (⟨0, 512⟩ : Buffer .byte).Accommodates .byte (.unsigned .w64) 3 ∧
      (⟨0, 512⟩ : Buffer .byte).Accommodates .byte (.unsigned .w64) 2 := by
  obtain ⟨⟨keyBytes, valueBytes⟩, keys, values, made, needed, -, -, grants⟩ :=
    ofSize_exact .byte (.unsigned .w64) 3
  obtain rfl : keyBytes = 256 :=
    keys.unique ⟨by decide, fun _ ⟨divides, covers⟩ =>
      Nat.le_of_dvd (Nat.lt_of_lt_of_le (by decide) covers) divides⟩
  obtain rfl : valueBytes = 256 :=
    values.unique ⟨by decide, fun _ ⟨divides, covers⟩ =>
      Nat.le_of_dvd (Nat.lt_of_lt_of_le (by decide) covers) divides⟩
  obtain ⟨-, enough, fewer, -⟩ := grants ⟨0, 512⟩
  have three := enough made (by decide)
  exact ⟨made, needed, three, fewer three 2 (by decide)⟩

/-- The bytes of the keys are a word, but not when they are padded. -/
example : ofSize .byte .nothing (Size.largest - 10) =
    .error (.invalidValue (.scratchOverflow (Size.largest - 10))) := rfl

end Layout

end GridSort
