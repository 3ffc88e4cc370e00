import GridSort.Pairs
import GridSort.Proofs.Program.Footprint

namespace GridSort

/-! Pairs in memory: where they lie, what is found there, and what is left there when
pairs are stored one position after the other. -/

variable {type keyType valueType : ElementType}

theorem Slice.performs_read {slice : Slice type} {index : Nat}
    (inside : index < slice.length) {readable : Region → Prop}
    (allowed : readable (slice.region index)) (memory : Memory) :
    (slice.read index).Performs memory readable [] (slice.get memory index) := by
  rw [read, if_pos inside]
  refine ⟨rfl, rfl, ?_⟩
  intro region member
  rw [List.mem_singleton.mp member]
  exact allowed

theorem Slice.performs_write {slice : Slice type} {index : Nat}
    (inside : index < slice.length) (element : Element type) (memory : Memory)
    (readable : Region → Prop) :
    (slice.write index element).Performs memory readable
      [⟨slice.address index, element.encode⟩] () := by
  rw [write, if_pos inside]
  exact ⟨rfl, rfl, List.forall_mem_nil readable⟩

theorem Slice.get_eq_of_load {slice : Slice type} {memory other : Memory} {index : Nat}
    (same : memory.load (slice.region index) = other.load (slice.region index)) :
    slice.get memory index = slice.get other index :=
  congrArg Element.decode same

namespace Input

def regions : Input type → Nat → List Region
  | .slice source, index => [source.region index]
  | .counting _, _ => []

theorem performs_read {input : Input type} {size index : Nat}
    (covers : input.Covers size) (inside : index < size) {readable : Region → Prop}
    (allowed : ∀ region ∈ input.regions index, readable region) (memory : Memory) :
    (input.read index).Performs memory readable [] (input.get memory index) := by
  cases input with
  | slice source =>
      exact Slice.performs_read (Nat.lt_of_lt_of_le inside covers)
        (allowed _ List.mem_cons_self) memory
  | counting start => exact Program.Performs.done _ memory readable

theorem get_eq_of_load {input : Input type} {memory other : Memory} {index : Nat}
    (same : ∀ region ∈ input.regions index, memory.load region = other.load region) :
    input.get memory index = input.get other index := by
  cases input with
  | slice source => exact Slice.get_eq_of_load (same _ List.mem_cons_self)
  | counting start => rfl

end Input

namespace Source

def get (source : Source keyType valueType) (memory : Memory) (index : Nat) :
    Element keyType × Element valueType :=
  (source.keys.get memory index, source.values.get memory index)

def Covers (source : Source keyType valueType) (size : Nat) : Prop :=
  source.keys.Covers size ∧ (valueType.isStored = true → source.values.Covers size)

def regions (source : Source keyType valueType) (index : Nat) : List Region :=
  source.keys.regions index ++
    if valueType.isStored then source.values.regions index else []

theorem performs_read {source : Source keyType valueType} {size index : Nat}
    (covers : source.Covers size) (inside : index < size) {readable : Region → Prop}
    (allowed : ∀ region ∈ source.regions index, readable region) (memory : Memory) :
    (source.read index).Performs memory readable [] (source.get memory index) := by
  have key := Input.performs_read covers.1 inside
    (fun region member => allowed region (List.mem_append_left _ member)) memory
  refine key.bind ?_
  cases stored : valueType.isStored with
  | true =>
      rw [if_pos rfl]
      have value := Input.performs_read (covers.2 stored) inside
        (fun region member => allowed region (List.mem_append_right _ (by
          rw [stored]
          exact member))) memory
      exact value.bind (Program.Performs.done _ memory readable)
  | false =>
      rw [if_neg (by simp), get,
        Element.eq_of_not_isStored stored (source.values.get memory index) 0]
      exact Program.Performs.done _ memory readable

theorem get_eq_of_load {source : Source keyType valueType} {memory other : Memory}
    {index : Nat}
    (same : ∀ region ∈ source.regions index, memory.load region = other.load region) :
    source.get memory index = source.get other index := by
  have keys : source.keys.get memory index = source.keys.get other index :=
    Input.get_eq_of_load fun region member =>
      same region (List.mem_append_left _ member)
  have values : source.values.get memory index = source.values.get other index := by
    cases stored : valueType.isStored with
    | true =>
        refine Input.get_eq_of_load fun region member =>
          same region (List.mem_append_right _ ?_)
        rw [if_pos stored]
        exact member
    | false => exact Element.eq_of_not_isStored stored _ _
  rw [get, get, keys, values]

theorem get_storeAll {source : Source keyType valueType} {memory : Memory} {index : Nat}
    {writes : List Write}
    (apart : ∀ region ∈ source.regions index, ∀ write ∈ writes,
      region.Disjoint write.region) :
    source.get (memory.storeAll writes) index = source.get memory index :=
  get_eq_of_load fun region member =>
    Memory.load_storeAll_of_disjoint (apart region member)

end Source

namespace Pairs

def toSource (pairs : Pairs keyType valueType) : Source keyType valueType :=
  ⟨.slice pairs.keys, .slice pairs.values⟩

def get (pairs : Pairs keyType valueType) (memory : Memory) (index : Nat) :
    Element keyType × Element valueType :=
  (pairs.keys.get memory index, pairs.values.get memory index)

def HasRoom (pairs : Pairs keyType valueType) (size : Nat) : Prop :=
  size ≤ pairs.keys.length ∧ (valueType.isStored = true → size ≤ pairs.values.length)

def regions (pairs : Pairs keyType valueType) (index : Nat) : List Region :=
  pairs.keys.region index ::
    if valueType.isStored then [pairs.values.region index] else []

structure SoundIn (pairs : Pairs keyType valueType) (memory : Memory) : Prop where
  keys : memory.Contains pairs.keys.extent
  values : memory.Contains pairs.values.extent
  apart : pairs.keys.extent.Disjoint pairs.values.extent

def writes (pairs : Pairs keyType valueType) (index : Nat)
    (pair : Element keyType × Element valueType) : List Write :=
  ⟨pairs.keys.address index, pair.1.encode⟩ ::
    if valueType.isStored then [⟨pairs.values.address index, pair.2.encode⟩] else []

/-- The stores that put `content` at the positions, one after the other. -/
def fill (pairs : Pairs keyType valueType) (positions : List Nat)
    (content : Nat → Element keyType × Element valueType) : List Write :=
  positions.flatMap fun index => pairs.writes index (content index)

@[simp] theorem get_toSource (pairs : Pairs keyType valueType) (memory : Memory)
    (index : Nat) : pairs.toSource.get memory index = pairs.get memory index := rfl

theorem SoundIn.storeAll {pairs : Pairs keyType valueType} {memory : Memory}
    (sound : pairs.SoundIn memory) (writes : List Write) :
    pairs.SoundIn (memory.storeAll writes) :=
  ⟨sound.keys.storeAll writes, sound.values.storeAll writes, sound.apart⟩

theorem writes_of_stored (stored : valueType.isStored = true)
    (pairs : Pairs keyType valueType) (index : Nat)
    (pair : Element keyType × Element valueType) :
    pairs.writes index pair =
      [⟨pairs.keys.address index, pair.1.encode⟩,
        ⟨pairs.values.address index, pair.2.encode⟩] := by
  rw [writes, if_pos stored]

theorem writes_of_unstored (unstored : valueType.isStored = false)
    (pairs : Pairs keyType valueType) (index : Nat)
    (pair : Element keyType × Element valueType) :
    pairs.writes index pair = [⟨pairs.keys.address index, pair.1.encode⟩] := by
  rw [writes, unstored]
  rfl

theorem region_writes (pairs : Pairs keyType valueType) (index : Nat)
    (pair : Element keyType × Element valueType) :
    (pairs.writes index pair).map Write.region = pairs.regions index := by
  unfold writes regions
  cases valueType.isStored <;> simp [Write.region, Slice.region]

theorem region_fill (pairs : Pairs keyType valueType) (positions : List Nat)
    (content : Nat → Element keyType × Element valueType) :
    (pairs.fill positions content).map Write.region = positions.flatMap pairs.regions := by
  induction positions with
  | nil => rfl
  | cons index rest ih =>
      rw [fill, List.flatMap_cons, List.map_append, region_writes, List.flatMap_cons,
        ← ih, fill]

theorem region_mem_of_mem_writes {pairs : Pairs keyType valueType} {index : Nat}
    {pair : Element keyType × Element valueType} {write : Write}
    (member : write ∈ pairs.writes index pair) : write.region ∈ pairs.regions index := by
  rw [← region_writes pairs index pair]
  exact List.mem_map_of_mem member

theorem exists_of_mem_fill {pairs : Pairs keyType valueType} {positions : List Nat}
    {content : Nat → Element keyType × Element valueType} {write : Write}
    (member : write ∈ pairs.fill positions content) :
    ∃ index ∈ positions, write.region ∈ pairs.regions index := by
  obtain ⟨index, inside, written⟩ := List.mem_flatMap.mp member
  exact ⟨index, inside, region_mem_of_mem_writes written⟩

theorem fill_append (pairs : Pairs keyType valueType) (first second : List Nat)
    (content : Nat → Element keyType × Element valueType) :
    pairs.fill (first ++ second) content =
      pairs.fill first content ++ pairs.fill second content :=
  List.flatMap_append

theorem flatMap_fill (pairs : Pairs keyType valueType) (ids : List Nat)
    (positions : Nat → List Nat) (content : Nat → Element keyType × Element valueType) :
    (ids.flatMap fun id => pairs.fill (positions id) content) =
      pairs.fill (ids.flatMap positions) content :=
  List.flatMap_assoc.symm

theorem fill_congr {pairs : Pairs keyType valueType} {positions : List Nat}
    {content other : Nat → Element keyType × Element valueType}
    (same : ∀ index ∈ positions, content index = other index) :
    pairs.fill positions content = pairs.fill positions other :=
  congrArg List.flatten (List.map_congr_left fun index member => by rw [same index member])

/-! A region of pairs is a part of the keys or of the values. -/

theorem mem_regions {pairs : Pairs keyType valueType} {index : Nat} {region : Region} :
    region ∈ pairs.regions index ↔
      region = pairs.keys.region index ∨
        valueType.isStored = true ∧ region = pairs.values.region index := by
  unfold regions
  cases valueType.isStored <;> simp

theorem regions_disjoint {pairs : Pairs keyType valueType} {size first second : Nat}
    (room : pairs.HasRoom size) (apart : pairs.keys.extent.Disjoint pairs.values.extent)
    (hfirst : first < size) (hsecond : second < size) (distinct : first ≠ second)
    {region other : Region} (member : region ∈ pairs.regions first)
    (otherMember : other ∈ pairs.regions second) : region.Disjoint other := by
  have keyRoom := room.1
  rcases mem_regions.mp member with rfl | ⟨stored, rfl⟩ <;>
    rcases mem_regions.mp otherMember with rfl | ⟨otherStored, rfl⟩
  · exact Slice.region_disjoint distinct
  · have valueRoom := room.2 otherStored
    exact Slice.region_disjoint_of_extent apart (by omega) (by omega)
  · have valueRoom := room.2 stored
    exact (Slice.region_disjoint_of_extent apart (by omega) (by omega)).symm
  · exact Slice.region_disjoint distinct

theorem get_storeAll_writes {pairs : Pairs keyType valueType} {memory : Memory}
    {size index : Nat} (room : pairs.HasRoom size) (sound : pairs.SoundIn memory)
    (inside : index < size) (pair : Element keyType × Element valueType) :
    pairs.get (memory.storeAll (pairs.writes index pair)) index = pair := by
  have keyInside : index < pairs.keys.length := Nat.lt_of_lt_of_le inside room.1
  have keyStored := Slice.get_store_self (Slice.contains_region sound.keys keyInside) pair.1
  unfold get
  cases stored : valueType.isStored with
  | true =>
      have valueInside : index < pairs.values.length :=
        Nat.lt_of_lt_of_le inside (room.2 stored)
      rw [writes_of_stored stored, Memory.storeAll_cons, Memory.storeAll_cons,
        Memory.storeAll_nil, Slice.get_store_of_disjoint pair.2
          (Slice.region_disjoint_of_extent sound.apart keyInside valueInside), keyStored,
        Slice.get_store_self ?_ pair.2]
      exact (Slice.contains_region sound.values valueInside).store _ _
  | false =>
      rw [writes_of_unstored stored, Memory.storeAll_cons, Memory.storeAll_nil, keyStored]
      exact Prod.ext rfl (Element.eq_of_not_isStored stored _ _)

theorem get_storeAll_fill {pairs : Pairs keyType valueType} {memory : Memory}
    {size : Nat} (room : pairs.HasRoom size) (sound : pairs.SoundIn memory)
    {positions : List Nat} (nodup : positions.Nodup)
    (inside : ∀ index ∈ positions, index < size)
    (content : Nat → Element keyType × Element valueType) {index : Nat}
    (member : index ∈ positions) :
    pairs.get (memory.storeAll (pairs.fill positions content)) index = content index := by
  induction positions generalizing memory with
  | nil => nomatch member
  | cons first rest ih =>
      have unfolded : pairs.fill (first :: rest) content =
          pairs.writes first (content first) ++ pairs.fill rest content := rfl
      rw [unfolded, Memory.storeAll_append]
      rcases List.mem_cons.mp member with rfl | later
      · rw [← get_toSource, Source.get_storeAll, get_toSource,
          get_storeAll_writes room sound (inside index List.mem_cons_self)]
        intro region hregion write hwrite
        obtain ⟨other, hother, written⟩ := exists_of_mem_fill hwrite
        refine regions_disjoint room sound.apart (inside index List.mem_cons_self)
          (inside other (List.mem_cons_of_mem _ hother)) ?_ hregion written
        rintro rfl
        exact (List.nodup_cons.mp nodup).1 hother
      · exact ih (sound.storeAll _) (List.nodup_cons.mp nodup).2
          (fun other hother => inside other (List.mem_cons_of_mem _ hother)) later

/-! Programs that write and move pairs. -/

theorem performs_write {pairs : Pairs keyType valueType} {size index : Nat}
    (room : pairs.HasRoom size) (inside : index < size)
    (pair : Element keyType × Element valueType) (memory : Memory)
    (readable : Region → Prop) :
    (pairs.write index pair).Performs memory readable (pairs.writes index pair) () := by
  have key := Slice.performs_write (Nat.lt_of_lt_of_le inside room.1) pair.1 memory readable
  cases stored : valueType.isStored with
  | true =>
      simp only [write, stored, if_true, writes_of_stored stored]
      exact key.bind (Slice.performs_write (Nat.lt_of_lt_of_le inside (room.2 stored))
        pair.2 _ readable)
  | false =>
      simp only [write, stored, writes_of_unstored stored]
      exact key.bind (Program.Performs.done () _ readable)

/-- The value is read after the key is written, which changes nothing for it. -/
theorem performs_move {source target : Pairs keyType valueType}
    {size origin destination : Nat} (sourceRoom : source.HasRoom size)
    (targetRoom : target.HasRoom size) (horigin : origin < size)
    (hdestination : destination < size)
    (apart : source.values.extent.Disjoint target.keys.extent)
    {readable : Region → Prop}
    (allowed : ∀ region ∈ source.regions origin, readable region) (memory : Memory) :
    (source.move target origin destination).Performs memory readable
      (target.writes destination (source.get memory origin)) () := by
  have keyRead := Slice.performs_read (Nat.lt_of_lt_of_le horigin sourceRoom.1)
    (allowed _ (mem_regions.mpr (Or.inl rfl))) memory
  have keyWritten := Slice.performs_write (Nat.lt_of_lt_of_le hdestination targetRoom.1)
    (source.keys.get memory origin) memory readable
  cases stored : valueType.isStored with
  | true =>
      have inside := Nat.lt_of_lt_of_le horigin (sourceRoom.2 stored)
      have valueRead := Slice.performs_read inside
        (allowed _ (mem_regions.mpr (Or.inr ⟨stored, rfl⟩)))
        (memory.storeAll [⟨target.keys.address destination,
          (source.keys.get memory origin).encode⟩])
      rw [Memory.storeAll_cons, Memory.storeAll_nil, Slice.get_store_of_disjoint _
        (Slice.region_disjoint_of_extent apart inside
          (Nat.lt_of_lt_of_le hdestination targetRoom.1))] at valueRead
      have valueWritten := Slice.performs_write
        (Nat.lt_of_lt_of_le hdestination (targetRoom.2 stored))
        (source.values.get memory origin)
        (memory.storeAll [⟨target.keys.address destination,
          (source.keys.get memory origin).encode⟩]) readable
      simp only [move, stored, if_true, writes_of_stored stored]
      exact keyRead.bind (keyWritten.bind (valueRead.bind valueWritten))
  | false =>
      simp only [move, stored, writes_of_unstored stored]
      exact keyRead.bind (keyWritten.bind (Program.Performs.done () _ readable))

end Pairs

end GridSort
