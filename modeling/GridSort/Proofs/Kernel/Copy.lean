import GridSort.Kernel.Copy
import GridSort.Proofs.Kernel.Fills

namespace GridSort

namespace Copy

/-! What a copy does: each group copies its window, pair by pair. -/

variable {keyType valueType : ElementType} {copy : Copy keyType valueType}
  {content : Nat → Element keyType × Element valueType}

structure Sound (copy : Copy keyType valueType) : Prop where
  sourceRoom : copy.source.HasRoom copy.size
  targetRoom : copy.target.HasRoom copy.size
  apart : copy.source.Apart copy.target

theorem performs_copyLanes (sound : copy.Sound) {offset count lane : Nat}
    {readable : Region → Prop} (small : offset + lane + count ≤ Size.largest)
    (allowed : ∀ index, offset + lane ≤ index → index < offset + lane + count →
      index < copy.size → ∀ region ∈ copy.source.regions index, readable region)
    {memory : Memory} (found : ∀ index, index < copy.size →
      copy.source.get memory index = content index) :
    (copy.copyLanes offset count lane).Performs memory readable
      (copy.target.fill (List.range' (offset + lane)
        (min count (copy.size - (offset + lane)))) content) () := by
  induction count generalizing lane memory with
  | zero =>
      rw [copyLanes, Nat.zero_min, List.range'_zero]
      exact .done () memory readable
  | succ count ih =>
      rw [copyLanes]
      refine Program.Performs.lift_bind (Size.add_eq_ok (by omega)) ?_
      by_cases inside : offset + lane < copy.size
      · have moved := Pairs.performs_move sound.sourceRoom sound.targetRoom inside inside
          sound.apart.valuesKeys (allowed _ (Nat.le_refl _) (by omega) inside) memory
        rw [found _ inside] at moved
        have count_eq : min (count + 1) (copy.size - (offset + lane)) =
            min count (copy.size - (offset + (lane + 1))) + 1 := by omega
        rw [if_pos inside, count_eq, List.range'_succ]
        refine moved.bind (ih (by omega) ?_ ?_)
        · intro index low high
          exact allowed index (by omega) (by omega)
        · intro index hindex
          rw [sound.apart.get_storeAll_writes sound.sourceRoom sound.targetRoom hindex inside,
            found index hindex]
      · have empty : min (count + 1) (copy.size - (offset + lane)) = 0 := by omega
        rw [if_neg inside, empty, List.range'_zero]
        exact .done () memory readable

theorem fills (sound : copy.Sound) {lanes : Nat} (fits : Grid.Fits copy.size lanes)
    {memory : Memory} (found : ∀ index, index < copy.size →
      copy.source.get memory index = content index) :
    copy.kernel.Fills (Grid.covering copy.size lanes) memory copy.target copy.size
      (fun id region => ∃ index ∈ (⟨id, Grid.covering copy.size lanes⟩ : Group).window copy.size,
        region ∈ copy.source.regions index)
      content := by
  refine ⟨?_, ?_⟩
  · intro id inside
    have first := Grid.mul_lanes_lt fits.positive inside
    have small := fits.add_le
    have start : Size.mul id lanes = .ok (id * lanes) := Size.mul_eq_ok (by omega)
    have room : id * lanes + 0 + lanes ≤ Size.largest := by omega
    refine Program.Performs.lift_bind start (performs_copyLanes sound room ?_ found)
    intro index low high below region member
    refine ⟨index, Group.mem_window.mpr ⟨low, ?_, below⟩, member⟩
    rw [Nat.succ_mul]
    exact high
  · rintro reader writer - region ⟨origin, horigin, member⟩ index hindex other otherMember
    exact sound.apart.regions sound.sourceRoom sound.targetRoom
      (Group.lt_of_mem_window horigin) (Group.lt_of_mem_window hindex) member otherMember

end Copy

end GridSort
