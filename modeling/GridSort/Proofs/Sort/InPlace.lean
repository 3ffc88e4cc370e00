import GridSort.Proofs.Sort.Isolation
import GridSort.Proofs.Sort.Status

namespace GridSort

/-! Sorts whose output takes the place of the input. They come to what the same sorts come to
that have an output of their own. -/

namespace Input

variable {type otherType : ElementType} {input : Input type} {own : Slice type}

/-- The memory that an input takes. -/
def extents : Input type → List Region
  | .slice source => [source.extent]
  | .counting _ => []

/-- Where the output goes: to the input itself if that is a slice, or to its own place. -/
def place (input : Input type) (own : Slice type) (inPlace : Bool) : Slice type :=
  match input, inPlace with
  | .slice source, true => source
  | _, _ => own

theorem place_of (holds : Region → Prop) (atOwn : holds own.extent)
    (atInput : ∀ extent ∈ input.extents, holds extent) (inPlace : Bool) :
    holds (input.place own inPlace).extent := by
  cases input with
  | counting start => exact atOwn
  | slice source =>
      cases inPlace with
      | false => exact atOwn
      | true => exact atInput _ List.mem_cons_self

theorem le_length_place {size : Nat} (room : size ≤ own.length) (covers : input.Covers size)
    (inPlace : Bool) : size ≤ (input.place own inPlace).length := by
  cases input with
  | counting start => exact room
  | slice source =>
      cases inPlace with
      | false => exact room
      | true => exact covers

theorem beside_place {other : Slice otherType}
    (atOwn : ∀ extent ∈ input.extents, extent.Disjoint own.extent)
    (atOther : ∀ extent ∈ input.extents, extent.Disjoint other.extent) (inPlace : Bool) :
    input.Beside (input.place own inPlace) other := by
  cases input with
  | counting start => exact trivial
  | slice source =>
      cases inPlace with
      | false => exact Or.inr ⟨atOwn _ List.mem_cons_self, atOther _ List.mem_cons_self⟩
      | true => exact Or.inl ⟨rfl, rfl⟩

/-- The input is in memory, and meets neither the outputs nor the scratch memory. -/
structure Apart (input : Input type) (memory : Memory) (keys values scratch : Region) :
    Prop where
  held : ∀ extent ∈ input.extents, memory.Contains extent
  keys : ∀ extent ∈ input.extents, extent.Disjoint keys
  values : ∀ extent ∈ input.extents, extent.Disjoint values
  scratch : ∀ extent ∈ input.extents, extent.Disjoint scratch

end Input

namespace SortRequest

variable {keyType valueType : ElementType} {request : SortRequest keyType valueType}
  {storage : Buffer .byte} {memory final : Memory} {environment : Environment}
  {watched : Bool} {host after : Host} {test : Element keyType → Element keyType → Bool}

/-- The same sort with the keys, the values or both in the place of the input. -/
def inPlace (request : SortRequest keyType valueType) (keys values : Bool) :
    SortRequest keyType valueType :=
  { request with
    target := ⟨request.source.keys.place request.target.keys keys,
      request.source.values.place request.target.values values⟩ }

/-- The inputs of a call meet neither each other nor anything else that it is given. -/
structure InputsApart (request : SortRequest keyType valueType) (storage : Buffer .byte)
    (memory : Memory) : Prop where
  keys : request.source.keys.Apart memory request.target.keys.extent
    request.target.values.extent storage.slice.extent
  values : request.source.values.Apart memory request.target.keys.extent
    request.target.values.extent storage.slice.extent
  inputs : ∀ first ∈ request.source.keys.extents, ∀ second ∈ request.source.values.extents,
    first.Disjoint second

theorem Admits.inPlace (admits : request.Admits storage memory)
    (apart : request.InputsApart storage memory) (keys values : Bool) :
    (request.inPlace keys values).Admits storage memory where
  fits := admits.fits
  covers := admits.covers
  room := ⟨Input.le_length_place admits.room.1 admits.covers.1 keys, fun stored =>
    Input.le_length_place (admits.room.2 stored) (admits.covers.2 stored) values⟩
  keysHeld := Input.place_of memory.Contains admits.keysHeld apart.keys.held keys
  valuesHeld := Input.place_of memory.Contains admits.valuesHeld apart.values.held values
  storageHeld := admits.storageHeld
  outputsApart := by
    refine Input.place_of (·.Disjoint _) ?_ (fun first member => ?_) keys
    · exact Input.place_of (Region.Disjoint _) admits.outputsApart
        (fun extent member => (apart.values.keys extent member).symm) values
    · exact Input.place_of first.Disjoint (apart.keys.values first member)
        (apart.inputs first member) values
  keysApart := Input.place_of (·.Disjoint _) admits.keysApart apart.keys.scratch keys
  valuesApart := Input.place_of (·.Disjoint _) admits.valuesApart apart.values.scratch values
  keysBeside := by
    refine Input.beside_place apart.keys.keys (fun extent member => ?_) keys
    exact Input.place_of extent.Disjoint (apart.keys.values extent member)
      (apart.inputs extent member) values
  valuesBeside := by
    refine Input.beside_place apart.values.values (fun extent member => ?_) values
    exact Input.place_of extent.Disjoint (apart.values.keys extent member)
      (fun other also => (apart.inputs other also extent member).symm) keys
  enough := admits.enough

/-! What an output holds beyond the positions that are sorted. -/

theorem Admits.unchanged (admits : request.Admits storage memory)
    (total : request.less = .ofTest test) (calm : environment.Calm) (healthy : host.Settles memory)
    (succeeds : (request.execute environment watched storage).outcome host = (.ok (), after))
    (settles : after.Settles final) :
    memory.UnchangedOutside (request.Writable (request.scratchIn storage request.regions))
      final := by
  by_cases empty : request.size = 0
  · obtain ⟨-, rfl⟩ := Prod.mk.inj
      ((outcome_execute_of_empty empty environment watched host).symm.trans succeeds)
    obtain ⟨-, rfl⟩ := Prod.mk.inj (healthy.completes.symm.trans settles.completes)
    exact .refl _ _
  · obtain ⟨layout, found, enough⟩ := admits.enough
    have accepted : request.Accepted storage layout (request.scratchIn storage layout) :=
      ⟨empty, found, accept_eq_ok found admits.fits.positive admits.room enough⟩
    obtain ⟨rfl, -⟩ := Layout.ofSize_eq_ok_iff.mp found
    obtain ⟨other, outcome, -, last, settled, unchanged⟩ :=
      accepted.exists_execute_of_covers total admits.fits admits.room
        ⟨Nat.le_refl _, fun _ => Nat.le_refl _⟩ admits.covers calm healthy watched
    obtain ⟨-, rfl⟩ := Prod.mk.inj (outcome.symm.trans succeeds)
    obtain ⟨-, rfl⟩ := Prod.mk.inj (settled.completes.symm.trans settles.completes)
    exact unchanged

theorem Admits.scratch_disjoint (admits : request.Admits storage memory) {type : ElementType}
    {output : Slice type} (apart : output.extent.Disjoint storage.slice.extent) {position : Nat}
    (within : position < output.length) {index : Nat} (inside : index < request.size)
    {region : Region}
    (member : region ∈ (request.scratchIn storage request.regions).regions index) :
    (output.region position).Disjoint region := by
  obtain ⟨layout, found, enough⟩ := admits.enough
  obtain ⟨rfl, -⟩ := Layout.ofSize_eq_ok_iff.mp found
  have outer := Slice.region_within within
  rcases Pairs.mem_regions.mp member with rfl | ⟨-, rfl⟩
  · exact (apart.mono outer (keys_scratchIn_within found enough)).mono (.refl _)
      (Slice.region_within inside)
  · exact (apart.mono outer (values_scratchIn_within enough)).mono (.refl _)
      (Slice.region_within inside)

section Beyond

variable (admits : request.Admits storage memory) (unchanged : memory.UnchangedOutside
    (request.Writable (request.scratchIn storage request.regions)) final)
  {position : Nat} (beyond : request.size ≤ position)
include admits unchanged

theorem Admits.get_beyond {type : ElementType} {output : Slice type}
    (apart : output.extent.Disjoint storage.slice.extent) (within : position < output.length)
    (atKeys : ∀ index, index < request.size →
      (output.region position).Disjoint (request.target.keys.region index))
    (atValues : valueType.isStored = true → ∀ index, index < request.size →
      (output.region position).Disjoint (request.target.values.region index)) :
    output.get final position = output.get memory position := by
  refine Slice.get_eq_of_load (unchanged _ ?_)
  rintro region ⟨index, inside, inTarget | inScratch⟩
  · rcases Pairs.mem_regions.mp inTarget with rfl | ⟨stored, rfl⟩
    · exact atKeys index inside
    · exact atValues stored index inside
  · exact admits.scratch_disjoint apart within inside inScratch

include beyond

theorem Admits.keys_beyond (within : position < request.target.keys.length) :
    request.target.keys.get final position = request.target.keys.get memory position :=
  admits.get_beyond unchanged admits.keysApart within
    (fun _ inside => Slice.region_disjoint (Nat.ne_of_gt (Nat.lt_of_lt_of_le inside beyond)))
    fun stored _ inside => Slice.region_disjoint_of_extent admits.outputsApart within
      (Nat.lt_of_lt_of_le inside (admits.room.2 stored))

theorem Admits.values_beyond (within : position < request.target.values.length) :
    request.target.values.get final position = request.target.values.get memory position :=
  admits.get_beyond unchanged admits.valuesApart within
    (fun _ inside => Slice.region_disjoint_of_extent admits.outputsApart.symm within
      (Nat.lt_of_lt_of_le inside admits.room.1))
    fun _ _ inside => Slice.region_disjoint (Nat.ne_of_gt (Nat.lt_of_lt_of_le inside beyond))

end Beyond

/-- A sort in place of its keys, its values or both ends as the sort does that leaves its
input alone: with the same attempts and the same pairs. What its outputs hold beyond these
stays. -/
theorem inPlace_agrees (admits : request.Admits storage memory)
    (apart : request.InputsApart storage memory) (total : request.less = .ofTest test)
    {otherEnvironment : Environment} (calm : environment.Calm)
    (otherCalm : otherEnvironment.Calm) (healthy : host.Settles memory)
    (watched otherWatched keys values : Bool) :
    ∃ after placed rested placedRested : Host,
      (request.execute environment watched storage).outcome host = (.ok (), after) ∧
      ((request.inPlace keys values).execute otherEnvironment otherWatched storage).outcome host =
        (.ok (), placed) ∧
      placed.attempts = after.attempts ∧
      (HostM.synchronize environment).outcome after = (.ok (), rested) ∧
      (HostM.synchronize otherEnvironment).outcome placed = (.ok (), placedRested) ∧
      (∀ position, position < request.size →
        (request.inPlace keys values).target.get placedRested.device.memory position =
          request.target.get rested.device.memory position) ∧
      ∀ position, request.size ≤ position →
        (position < (request.inPlace keys values).target.keys.length →
          (request.inPlace keys values).target.keys.get placedRested.device.memory position =
            (request.inPlace keys values).target.keys.get memory position) ∧
        (position < (request.inPlace keys values).target.values.length →
          (request.inPlace keys values).target.values.get placedRested.device.memory position =
            (request.inPlace keys values).target.values.get memory position) := by
  have placedAdmits := admits.inPlace apart keys values
  obtain ⟨answered, answers⟩ : ∃ answered, request.Answers (request.source.get memory) answered :=
    ⟨_, answers_ofTest total⟩
  have placedAnswers : (request.inPlace keys values).Answers
      ((request.inPlace keys values).source.get memory) answered := answers
  obtain ⟨final, gathers, runs⟩ := admits.exists_final answers
  obtain ⟨placedFinal, placedGathers, placedRuns⟩ := placedAdmits.exists_final placedAnswers
  obtain ⟨after, succeeds, settles, attempted⟩ := runs environment watched host calm healthy
  obtain ⟨placed, placedSucceeds, placedSettles, placedAttempted⟩ :=
    placedRuns otherEnvironment otherWatched host otherCalm healthy
  obtain ⟨rested, waited, -, same, -⟩ := settles.synchronize environment
  obtain ⟨placedRested, placedWaited, -, placedSame, -⟩ :=
    placedSettles.synchronize otherEnvironment
  have unchanged := placedAdmits.unchanged total otherCalm healthy placedSucceeds placedSettles
  refine ⟨after, placed, rested, placedRested, succeeds, placedSucceeds,
    Array.toList_inj.mp (placedAttempted.trans attempted.symm), waited, placedWaited,
    fun position inside => ?_, fun position beyond => ⟨fun within => ?_, fun within => ?_⟩⟩
  · rw [same, placedSame]
    exact (placedGathers position inside).trans (gathers position inside).symm
  · rw [placedSame]
    exact placedAdmits.keys_beyond unchanged beyond within
  · rw [placedSame]
    exact placedAdmits.values_beyond unchanged beyond within

end SortRequest

/-! The first two of the three bytes are sorted, in groups of one. -/

namespace SmallCall

def part : SortRequest .byte indexType := { request with size := 2, blockSize := 1 }

theorem admits_part : part.Admits storage memory :=
  { placed with
    fits := ⟨by decide, by decide, by decide⟩
    covers := ⟨Nat.le_succ 2, fun _ => trivial⟩
    room := ⟨Nat.le_succ 2, fun _ => Nat.le_succ 2⟩
    enough := ⟨⟨256, 256⟩, Layout.ofSize_eq_ok_iff.mpr (by decide), by decide⟩ }

theorem inputsApart_part : part.InputsApart storage memory where
  keys := ⟨by decide, by decide, by decide, by decide⟩
  values := ⟨by decide, by decide, by decide, by decide⟩
  inputs := by decide

end SmallCall

namespace SortRequest

theorem inPlace_agrees_small :
    ∃ after placed rested placedRested : Host,
      (SmallCall.part.execute .prompt false SmallCall.storage).outcome SmallCall.host =
        (.ok (), after) ∧
      ((SmallCall.part.inPlace true true).execute .lazy true SmallCall.storage).outcome
        SmallCall.host = (.ok (), placed) ∧
      placed.attempts = after.attempts ∧
      (HostM.synchronize .prompt).outcome after = (.ok (), rested) ∧
      (HostM.synchronize .lazy).outcome placed = (.ok (), placedRested) ∧
      (∀ position, position < 2 →
        (SmallCall.part.inPlace true true).target.get placedRested.device.memory position =
          SmallCall.part.target.get rested.device.memory position) ∧
      (⟨0, 0, 3⟩ : Slice .byte).get placedRested.device.memory 2 = 2 := by
  obtain ⟨after, placed, rested, placedRested, succeeds, placedSucceeds, attempted, waited,
    placedWaited, same, beyond⟩ :=
      inPlace_agrees SmallCall.admits_part SmallCall.inputsApart_part
        (show _ = Predicate.ofTest Element.less from rfl) Environment.calm_prompt
        Environment.calm_lazy SmallCall.settles false true true true
  refine ⟨after, placed, rested, placedRested, succeeds, placedSucceeds, attempted, waited,
    placedWaited, same, ?_⟩
  exact ((beyond 2 (Nat.le_refl 2)).1 (Nat.lt_succ_self 2)).trans (by decide)

end SortRequest

end GridSort
