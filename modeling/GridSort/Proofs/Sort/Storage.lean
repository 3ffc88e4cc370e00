import GridSort.Proofs.Layout
import GridSort.Proofs.Sort.Execute
import GridSort.Proofs.Sort.Pipeline

namespace GridSort

/-! What a call needs of its memory, and the room that it finds in its scratch memory. -/

/-- An input that starts where its own output does, or meets neither output. -/
def Input.Beside {type otherType : ElementType} (input : Input type) (own : Slice type)
    (other : Slice otherType) : Prop :=
  match input with
  | .slice source =>
      source.allocation = own.allocation ∧ source.offset = own.offset ∨
        source.extent.Disjoint own.extent ∧ source.extent.Disjoint other.extent
  | .counting _ => True

namespace Input.Beside

variable {type otherType : ElementType} {input : Input type} {own : Slice type}
  {other : Slice otherType} {size first second : Nat} {region : Region}

theorem regions_own (beside : input.Beside own other) (covers : input.Covers size)
    (hfirst : first < size) (hsecond : second < own.length) (distinct : first ≠ second)
    (member : region ∈ input.regions first) : region.Disjoint (own.region second) := by
  cases input with
  | counting start => nomatch member
  | slice source =>
      rw [List.mem_singleton.mp member]
      rcases beside with ⟨allocation, offset⟩ | ⟨apart, -⟩
      · rw [Slice.region_congr allocation offset]
        exact Slice.region_disjoint distinct
      · exact Slice.region_disjoint_of_extent apart (Nat.lt_of_lt_of_le hfirst covers) hsecond

theorem regions_other (beside : input.Beside own other)
    (ownApart : own.extent.Disjoint other.extent) (covers : input.Covers size)
    (hfirst : first < size) (ownFirst : first < own.length) (hsecond : second < other.length)
    (member : region ∈ input.regions first) :
    region.Disjoint (other.region second) := by
  cases input with
  | counting start => nomatch member
  | slice source =>
      rw [List.mem_singleton.mp member]
      rcases beside with ⟨allocation, offset⟩ | ⟨-, apart⟩
      · rw [Slice.region_congr allocation offset]
        exact Slice.region_disjoint_of_extent ownApart ownFirst hsecond
      · exact Slice.region_disjoint_of_extent apart (Nat.lt_of_lt_of_le hfirst covers) hsecond

end Input.Beside

namespace SortRequest

variable {keyType valueType : ElementType} {request : SortRequest keyType valueType}
  {storage : Buffer .byte} {memory : Memory}

/-- What a call is given holds what it sorts, and does not overlap; an input may be the
same slice as its output. -/
structure Placed (request : SortRequest keyType valueType) (storage : Buffer .byte)
    (memory : Memory) : Prop where
  fits : Grid.Fits request.size request.blockSize
  covers : request.source.Covers request.size
  room : request.target.HasRoom request.size
  keysHeld : memory.Contains request.target.keys.extent
  valuesHeld : memory.Contains request.target.values.extent
  storageHeld : memory.Contains storage.slice.extent
  outputsApart : request.target.keys.extent.Disjoint request.target.values.extent
  keysApart : request.target.keys.extent.Disjoint storage.slice.extent
  valuesApart : request.target.values.extent.Disjoint storage.slice.extent
  keysBeside : request.source.keys.Beside request.target.keys request.target.values
  valuesBeside : request.source.values.Beside request.target.values request.target.keys

/-- The scratch memory is large enough as well. -/
structure Admits (request : SortRequest keyType valueType) (storage : Buffer .byte)
    (memory : Memory) : Prop extends request.Placed storage memory where
  enough : ∃ layout, request.layout = .ok layout ∧
    layout.keyBytes + request.size * valueType.size ≤ storage.length

def scratchIn (request : SortRequest keyType valueType) (storage : Buffer .byte)
    (layout : Layout) : Pairs keyType valueType :=
  ⟨⟨storage.allocation, 0, request.size⟩,
    ⟨storage.allocation, layout.keyBytes, request.size⟩⟩

theorem Placed.separate (placed : request.Placed storage memory) :
    request.source.Separate request.target request.size := by
  intro first second hfirst hsecond distinct region member other otherMember
  have keysFirst := Nat.lt_of_lt_of_le hfirst placed.room.1
  have keysSecond := Nat.lt_of_lt_of_le hsecond placed.room.1
  rcases List.mem_append.mp member with ofKeys | ofValues
  · rcases Pairs.mem_regions.mp otherMember with rfl | ⟨stored, rfl⟩
    · exact placed.keysBeside.regions_own placed.covers.1 hfirst keysSecond distinct ofKeys
    · exact placed.keysBeside.regions_other placed.outputsApart placed.covers.1 hfirst keysFirst
        (Nat.lt_of_lt_of_le hsecond (placed.room.2 stored)) ofKeys
  · cases stored : valueType.isStored with
    | false =>
        rw [stored] at ofValues
        nomatch ofValues
    | true =>
        rw [if_pos stored] at ofValues
        have covers := placed.covers.2 stored
        have valuesFirst := Nat.lt_of_lt_of_le hfirst (placed.room.2 stored)
        have valuesSecond := Nat.lt_of_lt_of_le hsecond (placed.room.2 stored)
        rcases Pairs.mem_regions.mp otherMember with rfl | ⟨-, rfl⟩
        · exact placed.valuesBeside.regions_other placed.outputsApart.symm covers hfirst valuesFirst
            keysSecond ofValues
        · exact placed.valuesBeside.regions_own covers hfirst valuesSecond distinct ofValues

section Layout

variable {layout : Layout} (found : request.layout = .ok layout)
include found

theorem mul_size_le_keyBytes : request.size * keyType.size ≤ layout.keyBytes := by
  obtain ⟨rfl, -⟩ := Layout.ofSize_eq_ok_iff.mp found
  exact Size.le_roundUp _ (show 0 < Layout.alignment by decide)

theorem mul_size_le_valueBytes : request.size * valueType.size ≤ layout.valueBytes := by
  obtain ⟨rfl, -⟩ := Layout.ofSize_eq_ok_iff.mp found
  exact Size.le_roundUp _ (show 0 < Layout.alignment by decide)

/-- Which check is the first that fails. The view of the values covers that of the keys,
which are before them. -/
theorem accept_eq : request.accept layout storage =
    if request.blockSize = 0 then .error (.invalidValue .zeroBlockSize)
    else if request.target.keys.length < request.size then
      .error (.invalidValue (.shortOutput .keys request.target.keys.length request.size))
    else if valueType.isStored = true ∧ request.target.values.length < request.size then
      .error (.invalidValue (.shortOutput .values request.target.values.length request.size))
    else if storage.length < layout.keyBytes + request.size * valueType.size then
      .error (.invalidValue (.viewTooLong
        (if storage.length < request.size * keyType.size then request.size * keyType.size
          else request.size * valueType.size + layout.keyBytes) storage.length))
    else .ok (request.scratchIn storage layout) := by
  have keysRoom := mul_size_le_keyBytes found
  obtain ⟨made, small⟩ := Layout.ofSize_eq_ok_iff.mp found
  have valuesRoom := mul_size_le_valueBytes found
  rw [Layout.total] at small
  have aligned : valueType.alignment ∣ layout.keyBytes := by
    rw [made]
    exact valueType.alignment_dvd_256.trans (Size.dvd_roundUp _ _)
  have keys : storage.view keyType 0 request.size = _ :=
    Buffer.view_eq (by omega) (Nat.zero_mod _)
  have values : storage.view valueType layout.keyBytes request.size = _ :=
    Buffer.view_eq (by omega) (Nat.mod_eq_zero_of_dvd aligned)
  have views : (do
        let keys ← storage.view keyType 0 request.size
        let values ← storage.view valueType layout.keyBytes request.size
        pure ⟨keys, values⟩ : Except Failure (Pairs keyType valueType)) =
      if storage.length < layout.keyBytes + request.size * valueType.size then
        .error (.invalidValue (.viewTooLong
          (if storage.length < request.size * keyType.size then request.size * keyType.size
            else request.size * valueType.size + layout.keyBytes) storage.length))
      else .ok (request.scratchIn storage layout) := by
    rw [keys, values, Nat.add_zero]
    by_cases enough : layout.keyBytes + request.size * valueType.size ≤ storage.length
    · rw [if_pos (by omega), if_pos (by omega), if_neg (by omega)]
      rfl
    · have valuesShort : ¬request.size * valueType.size + layout.keyBytes ≤ storage.length := by
        omega
      rw [if_pos (Nat.lt_of_not_le enough)]
      by_cases keysFit : request.size * keyType.size ≤ storage.length
      · rw [if_pos keysFit, if_neg valuesShort, if_neg (Nat.not_lt.mpr keysFit)]
        rfl
      · rw [if_neg keysFit, if_pos (Nat.lt_of_not_le keysFit)]
        rfl
  rw [← views, accept, requireOutput, requireOutput]
  by_cases zero : request.blockSize = 0
  · rw [if_pos zero, if_pos zero]
  · rw [if_neg zero, if_neg zero]
    by_cases shortKeys : request.target.keys.length < request.size
    · rw [if_pos shortKeys, if_neg (Nat.not_le.mpr shortKeys)]
      rfl
    · rw [if_neg shortKeys, if_pos (Nat.not_lt.mp shortKeys)]
      cases stored : valueType.isStored with
      | false =>
          simp only [Bool.false_eq_true, false_and, if_false]
          rfl
      | true =>
          simp only [true_and, if_true]
          by_cases shortValues : request.target.values.length < request.size
          · rw [if_pos shortValues, if_neg (Nat.not_le.mpr shortValues)]
            rfl
          · rw [if_neg shortValues, if_pos (Nat.not_lt.mp shortValues)]
            rfl

theorem accept_eq_ok (positive : 0 < request.blockSize)
    (room : request.target.HasRoom request.size) (enough : layout.keyBytes +
      request.size * valueType.size ≤ storage.length) :
    request.accept layout storage = .ok (request.scratchIn storage layout) := by
  rw [accept_eq found, if_neg (Nat.ne_of_gt positive), if_neg (Nat.not_lt.mpr room.1),
    if_neg fun short => Nat.not_lt.mpr (room.2 short.1) short.2,
    if_neg (Nat.not_lt.mpr enough)]

theorem keys_scratchIn_within (enough : layout.keyBytes +
      request.size * valueType.size ≤ storage.length) :
    (request.scratchIn storage layout).keys.extent.Within storage.slice.extent := by
  have keysRoom := mul_size_le_keyBytes found
  refine ⟨rfl, Nat.zero_le _, ?_⟩
  change 0 + request.size * keyType.size ≤ 0 + storage.length * 1
  omega

end Layout

theorem values_scratchIn_within {layout : Layout} (enough : layout.keyBytes +
      request.size * valueType.size ≤ storage.length) :
    (request.scratchIn storage layout).values.extent.Within storage.slice.extent := by
  refine ⟨rfl, Nat.zero_le _, ?_⟩
  change layout.keyBytes + request.size * valueType.size ≤ 0 + storage.length * 1
  omega

theorem placed_keysOnly {keys : Input keyType} {output : Slice keyType} {size : Nat}
    (less : Predicate (Element keyType)) (small : size < 2 ^ 63) (covers : keys.Covers size)
    (room : size ≤ output.length) (held : memory.Contains output.extent)
    (storageHeld : memory.Contains storage.slice.extent)
    (apart : output.extent.Disjoint storage.slice.extent)
    (beside : keys.Beside output (.unbacked size : Slice .nothing)) :
    (keysOnly keys output size less).Placed storage memory := by
  have empty : (.unbacked size : Slice .nothing).extent.length = 0 := Nat.mul_zero size
  have positive : 0 < defaultBlockSize := by decide
  have few : defaultBlockSize ≤ Grid.maxLanes := by decide
  refine ⟨⟨small, positive, few⟩, ⟨covers, fun stored => by cases stored⟩,
    ⟨room, fun stored => by cases stored⟩, held, ?_, storageHeld, Or.inr (Or.inl empty), apart,
    Or.inl empty, beside, Or.inl ⟨rfl, rfl⟩⟩
  exact Nat.zero_le _

theorem Placed.admits (placed : request.Placed storage memory) {caller asked : Host}
    (asks : request.query.outcome caller = (.ok (), asked))
    (enough : asked.bytesNeeded ≤ storage.length) : request.Admits storage memory := by
  unfold query at asks
  cases found : request.layout with
  | error error =>
      rw [found] at asks
      cases asks
  | ok layout =>
      rw [found] at asks
      cases asks
      have total := Nat.le_trans layout.total_le_bytesNeeded enough
      have values := mul_size_le_valueBytes found
      rw [Layout.total] at total
      exact ⟨placed, layout, found, by omega⟩

theorem Admits.of_sameShape (admits : request.Admits storage memory) {other : Memory}
    (shape : memory.SameShape other) : request.Admits storage other :=
  { admits with
    keysHeld := shape.contains admits.keysHeld
    valuesHeld := shape.contains admits.valuesHeld
    storageHeld := shape.contains admits.storageHeld }

theorem Admits.exists_accepted (admits : request.Admits storage memory)
    (nonempty : request.size ≠ 0) :
    ∃ layout scratch, request.Accepted storage layout scratch ∧
      request.SoundIn scratch memory := by
  obtain ⟨layout, found, enough⟩ := admits.enough
  have keysWithin := keys_scratchIn_within found enough
  have valuesWithin : (request.scratchIn storage layout).values.extent.Within
      storage.slice.extent := values_scratchIn_within enough
  refine ⟨layout, request.scratchIn storage layout,
    ⟨nonempty, found, accept_eq_ok found admits.fits.positive admits.room enough⟩, ?_⟩
  have separate : (request.scratchIn storage layout).keys.extent.Disjoint
      (request.scratchIn storage layout).values.extent := by
    refine Or.inr (Or.inr (Or.inr (Or.inl ?_)))
    change 0 + request.size * keyType.size ≤ layout.keyBytes
    rw [Nat.zero_add]
    exact mul_size_le_keyBytes found
  refine ⟨⟨admits.fits, admits.covers, admits.room, ⟨Nat.le_refl _, fun _ => Nat.le_refl _⟩,
    admits.outputsApart, separate, ?_, admits.separate⟩,
    ⟨admits.keysHeld, admits.valuesHeld, admits.outputsApart⟩, ?_⟩
  · exact ⟨admits.keysApart.mono (.refl _) keysWithin,
      admits.keysApart.mono (.refl _) valuesWithin,
      admits.valuesApart.mono (.refl _) keysWithin,
      admits.valuesApart.mono (.refl _) valuesWithin⟩
  · exact ⟨admits.storageHeld.within keysWithin, admits.storageHeld.within valuesWithin,
      separate⟩

end SortRequest

/-! A small call: three bytes are sorted along with their positions, in groups of two. -/

namespace SmallCall

/-- Positions are counted in words of 32 bits. -/
abbrev indexType : ElementType := .unsigned .w32

def memory : Memory :=
  ⟨#[#[3, 1, 2], Array.replicate 3 0, Array.replicate 12 0, Array.replicate 512 165]⟩

def storage : Buffer .byte := ⟨3, 512⟩

def request : SortRequest .byte indexType :=
  { source := ⟨.slice ⟨0, 0, 3⟩, .counting 0⟩
    target := ⟨⟨1, 0, 3⟩, ⟨2, 0, 3⟩⟩
    size := 3
    less := .less
    blockSize := 2 }

/-- The input is too short by one. -/
def short : SortRequest .byte indexType :=
  { request with source := ⟨.slice ⟨0, 0, 2⟩, .counting 0⟩ }

/-- No device has groups that large. -/
def wide : SortRequest .byte indexType := { request with blockSize := 1025 }

def host : Host := { stream := .idle, device := ⟨memory, #[]⟩ }

theorem settles : host.Settles memory := Host.settles_of_idle rfl rfl rfl

theorem bounded : memory.Bounded := by
  intro allocation
  match allocation with
  | 0 | 1 | 2 => decide
  | 3 =>
      change (Array.replicate 512 (165 : UInt8)).size ≤ Memory.capacity
      rw [Array.size_replicate]
      decide
  | _ + 4 => exact Nat.zero_le Memory.capacity

theorem storage_held : memory.Contains storage.slice.extent := by
  change 0 + 512 * 1 ≤ (Array.replicate 512 (165 : UInt8)).size
  rw [Array.size_replicate]

theorem placed : request.Placed storage memory :=
  { fits := ⟨by decide, by decide, by decide⟩
    covers := ⟨Nat.le_refl 3, fun _ => trivial⟩
    room := ⟨Nat.le_refl 3, fun _ => Nat.le_refl 3⟩
    keysHeld := by decide
    valuesHeld := by decide
    storageHeld := storage_held
    outputsApart := by decide
    keysApart := by decide
    valuesApart := by decide
    keysBeside := Or.inr (by decide)
    valuesBeside := trivial }

theorem layout : request.layout = .ok ⟨256, 256⟩ := Layout.ofSize_eq_ok_iff.mpr (by decide)

theorem asks : request.query.outcome host = (.ok (), { host with bytesNeeded := 512 }) := by
  rw [SortRequest.query, layout]
  rfl

theorem admits : request.Admits storage memory := placed.admits asks (Nat.le_refl 512)

def keysAlone : SortRequest .byte .nothing :=
  .keysOnly (.slice ⟨0, 0, 3⟩) ⟨1, 0, 3⟩ 3 .less

theorem placed_keysAlone : keysAlone.Placed storage memory :=
  SortRequest.placed_keysOnly _ (by decide) (Nat.le_refl 3) (Nat.le_refl 3) (by decide)
    storage_held (by decide) (Or.inr (by decide))

theorem keysAlone_asks :
    keysAlone.query.outcome host = (.ok (), { host with bytesNeeded := 256 }) := by
  have layout : keysAlone.layout = .ok ⟨256, 0⟩ := Layout.ofSize_eq_ok_iff.mpr (by decide)
  rw [SortRequest.query, layout]
  rfl

end SmallCall

end GridSort
