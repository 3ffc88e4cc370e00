import GridSort.Proofs.Kernel.Conduct
import GridSort.Proofs.Kernel.Refusal

namespace GridSort

/-! Sums, differences and products of a kernel that are no words. A multiple rounded down, a place
halfway through a range and a difference behind its comparison cannot be; each other operation on
sizes saturates, or it is checked and faults. Only one check ever fails: where a merge pass
searches for the start of a window, it adds the diagonal to the start of the right run before it
takes anything away, and nothing keeps this sum among the words. -/

variable {keyType valueType : ElementType} {memory : Memory}

/-- The fault of an operation on sizes whose result is no word. -/
def Fault.IsOverflow (fault : Fault) : Prop := ∃ operation, fault = .overflow operation

theorem Input.Misses.not_isOverflow {type : ElementType} {input : Input type} {size : Nat}
    {fault : Fault} (missed : input.Misses size fault) : ¬fault.IsOverflow := by
  cases input with
  | slice source =>
      obtain ⟨index, -, -, rfl⟩ := missed
      rintro ⟨operation, equal⟩
      cases equal
  | counting start => exact missed.elim

theorem Source.Misses.not_isOverflow {source : Source keyType valueType} {size : Nat}
    {fault : Fault} (missed : source.Misses size fault) : ¬fault.IsOverflow :=
  missed.elim Input.Misses.not_isOverflow fun values => values.2.not_isOverflow

/-- The first candidate of a search is tested, if there is one. -/
theorem faultsAt_bisect {test : Nat → Program Bool} {low high : Nat} {fault : Fault}
    (ordered : low < high)
    (stops : ∀ candidate, candidate < high → (test candidate).FaultsAt memory fault) :
    (bisect test low high).FaultsAt memory fault := by
  rw [bisect, if_pos ordered]
  exact (stops _ (by omega)).bind _

/-- The keys of the left run can be read, whatever they are, and then the sum is no word. -/
theorem faultsAt_mergeSplit (less : Predicate (Element keyType)) {keys : Slice keyType}
    {base mid stop diagonal : Nat} (baseMid : base < mid) (midStop : mid < stop)
    (begun : 0 < diagonal) (inPair : base + diagonal < stop) (stopLe : stop ≤ keys.length)
    (word : stop ≤ Size.largest) (beyond : Size.largest < mid + diagonal) (memory : Memory) :
    (mergeSplit less keys ⟨base, mid⟩ ⟨mid, stop⟩ diagonal).FaultsAt memory
      (.overflow .add) := by
  refine faultsAt_bisect ?_ fun candidate high => ?_
  · dsimp only [Span.length]
    omega
  · dsimp only [Span.length] at high
    have reach : Size.add mid diagonal = .error (.overflow .add) :=
      if_neg (Nat.not_le.mpr beyond)
    have leftKey : (keys.read (base + candidate)).Performs memory (fun _ => True) [] _ :=
      Slice.performs_read (by omega) trivial memory
    refine .lift_bind ?_ (Size.add_eq_ok (show base + candidate ≤ Size.largest by omega))
    exact .bind_of_performs (Program.faultsAt_lift_bind reach _ _) leftKey

namespace RunMerge

open RunPair

variable {merge : RunMerge keyType valueType} {grid : Grid} {id place : Nat}
  (room : merge.size ≤ merge.source.keys.length) (small : merge.size ≤ Size.largest)
  (reaches : Overreaches merge.size merge.runWidth place) (inside : place < merge.size)
include room small reaches inside

theorem faultsAt_fillWindow_of_overreaches (last : Nat) (memory : Memory) :
    (merge.fillWindow (base merge.runWidth place) place last).FaultsAt memory
      (.overflow .add) := by
  obtain ⟨begun, merged, beyond⟩ := reaches
  have positive : 0 < merge.runWidth := by omega
  have beforeStop := lt_stop positive inside
  have stopLe := stop_le merge.size merge.runWidth place
  have middle : mid merge.size merge.runWidth place = base merge.runWidth place + merge.runWidth :=
    Nat.min_eq_left (Nat.le_of_lt merged)
  have midStop : mid merge.size merge.runWidth place < stop merge.size merge.runWidth place := by
    rw [middle, stop]
    omega
  rw [fillWindow, Size.min_clampedAdd _ small, Size.min_clampedAdd_double _ small]
  refine .lift_bind ?_ (Size.sub_eq_ok (Nat.le_of_lt begun))
  exact (faultsAt_mergeSplit merge.less (show base merge.runWidth place <
    mid merge.size merge.runWidth place by omega) midStop (by omega) (by omega)
    (Nat.le_trans stopLe room) (Nat.le_trans stopLe small) (by omega) memory).bind _

/-- A group whose block begins at such a place faults, whatever memory holds and whatever the
predicate answers. -/
theorem faultsAt_program_of_overreaches (lanes : 0 < grid.lanes) (begins : id * grid.lanes = place)
    (memory : Memory) : (merge.program ⟨id, grid⟩).FaultsAt memory (.overflow .add) := by
  have positive : 0 < merge.runWidth := by
    have beyond := reaches.beyond
    omega
  exact faultsAt_program_of_fillWindow positive small lanes begins inside
    fun last _ => faultsAt_fillWindow_of_overreaches room small reaches inside last memory

end RunMerge

end GridSort
