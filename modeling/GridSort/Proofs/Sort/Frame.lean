import GridSort.Proofs.Sort.Status
import GridSort.Proofs.Stream.Additions

namespace GridSort

/-! What a call leaves alone, however it ends. Its launches store to the positions that it
sorts, in the outputs and in scratch memory, and the caller's own steps store nothing. -/

theorem Memory.UnchangedOutside.byteAt {writable : Region → Prop} {memory after : Memory}
    (unchanged : memory.UnchangedOutside writable after) {address : Address}
    (apart : ∀ region, writable region → ¬region.Holds address) :
    after.byteAt address = memory.byteAt address :=
  Memory.load_eq_load_iff.mp
    (unchanged ⟨address, 1⟩ fun region allowed =>
      Region.disjoint_of_not_holds (apart region allowed)) 0 Nat.one_pos

namespace Slice

variable {type : ElementType}

/-- The memory of the first elements, or of all of them if there are fewer. -/
def front (slice : Slice type) (size : Nat) : Region :=
  ⟨slice.address 0, min size slice.length * type.size⟩

theorem region_within_front (slice : Slice type) {index size : Nat} (inside : index < size)
    (room : size ≤ slice.length) : (slice.region index).Within (slice.front size) := by
  have row := Nat.mul_le_mul_right type.size (Nat.succ_le_of_lt inside)
  rw [Nat.succ_mul] at row
  rw [front, Nat.min_eq_left room]
  refine ⟨rfl, ?_, ?_⟩
  · change slice.offset + 0 * type.size ≤ slice.offset + index * type.size
    omega
  · change slice.offset + index * type.size + type.size ≤
      slice.offset + 0 * type.size + size * type.size
    omega

end Slice

namespace Buffer

/-- So many bytes from an offset on, or those up to the end of the buffer. -/
def stretch (buffer : Buffer .byte) (offset length : Nat) : Region :=
  ⟨⟨buffer.allocation, offset⟩, min length (buffer.length - offset)⟩

theorem stretch_eq {buffer : Buffer .byte} {offset length : Nat}
    (room : offset + length ≤ buffer.length) :
    buffer.stretch offset length = ⟨⟨buffer.allocation, offset⟩, length⟩ := by
  rw [stretch, Nat.min_eq_left (Nat.le_sub_of_add_le' room)]

end Buffer

/-- Whatever the worker has got to after the steps, outside the regions each byte is as the
worker would have left it at some time without them. It has then come as far: if nothing
waits on the stream any more, what waited before the steps has been taken. -/
def HostM.StoresWithin (regions : List Region) (steps : HostM α) : Prop :=
  ∀ host later, ∃ earlier,
    (((steps.outcome host).2.advance later).stream.pending = [] →
        (host.advance earlier).stream.pending = []) ∧
      ∀ address, (∀ region ∈ regions, ¬region.Holds address) →
        ((steps.outcome host).2.advance later).device.memory.byteAt address =
          (host.advance earlier).device.memory.byteAt address

namespace Environment

/-- A disturbed kernel stores where the kernel would have stored, if anywhere. -/
def Contained (environment : Environment) : Prop :=
  ∀ (index : Nat) (kernel : Kernel) (writable : Region → Prop),
    (∀ group, (kernel.run group).Confined writable) →
      ∀ group, ((environment.disturb index kernel).run group).Confined writable

variable {environment : Environment}

theorem Calm.contained (calm : environment.Calm) : environment.Contained := by
  intro index kernel writable confined
  rwa [calm.disturb]

theorem Contained.refusing (contained : environment.Contained) (index : Nat) (error : Failure) :
    (environment.refusing index error).Contained := contained

/-- A group may fault in place of what it has to do. -/
theorem contained_breaking (index id : Nat) (fault : Fault) :
    (environment.breaking index id (.fail fault)).Contained := by
  intro other kernel writable confined group
  rw [disturb_breaking]
  split
  · change Program.Confined writable (if group.id = id then _ else _)
    split
    · exact .fail trivial
    · exact confined group
  · exact confined group

end Environment

namespace SortRequest

variable {keyType valueType : ElementType} {request : SortRequest keyType valueType}
  {scratch : Pairs keyType valueType} {storage : Buffer .byte} {layout : Layout}
  {environment : Environment} {watched : Bool} {host : Host}

/-- The memory of a call: what it sorts in its outputs, and room for as much in each part of
its scratch memory, but nothing that is not in these. -/
def footprint (request : SortRequest keyType valueType) (storage : Buffer .byte) : List Region :=
  [request.target.keys.front request.size,
    request.target.values.front request.size,
    storage.stretch 0 (request.size * keyType.size),
    storage.stretch request.regions.keyBytes (request.size * valueType.size)]

/-- A region of memory that is a part of the call's. -/
def Owns (request : SortRequest keyType valueType) (storage : Buffer .byte) (region : Region) :
    Prop :=
  ∃ outer ∈ request.footprint storage, region.Within outer

/-- There is room in the outputs and in scratch memory for what is sorted. -/
structure HasRoom (request : SortRequest keyType valueType) (storage : Buffer .byte) : Prop where
  keys : request.size ≤ request.target.keys.length
  values : valueType.isStored = true → request.size ≤ request.target.values.length
  keysScratch : request.size * keyType.size ≤ storage.length
  valuesScratch : request.regions.keyBytes + request.size * valueType.size ≤ storage.length

theorem hasRoom_of_accept (found : request.layout = .ok layout)
    (accepted : request.accept layout storage = .ok scratch) :
    request.HasRoom storage ∧ scratch = request.scratchIn storage request.regions := by
  have keysRoom := mul_size_le_keyBytes found
  obtain ⟨rfl, -⟩ := Layout.ofSize_eq_ok_iff.mp found
  rw [accept_eq found] at accepted
  split at accepted
  · cases accepted
  split at accepted
  · cases accepted
  have keysFit : request.size ≤ request.target.keys.length := Nat.le_of_not_lt ‹_›
  split at accepted
  · cases accepted
  have valuesFit : valueType.isStored = true → request.size ≤ request.target.values.length :=
    fun stored => Nat.le_of_not_lt fun short => ‹¬(_ ∧ _)› ⟨stored, short⟩
  split at accepted
  · cases accepted
  have enough : request.regions.keyBytes + request.size * valueType.size ≤ storage.length :=
    Nat.le_of_not_lt ‹_›
  cases accepted
  have start : request.size * keyType.size ≤ request.regions.keyBytes := keysRoom
  exact ⟨⟨keysFit, valuesFit, by omega, enough⟩, rfl⟩

theorem owns_of_writable (room : request.HasRoom storage) {region : Region}
    (writable : request.Writable (request.scratchIn storage request.regions) region) :
    request.Owns storage region := by
  obtain ⟨index, inside, inTarget | inScratch⟩ := writable
  · rcases Pairs.mem_regions.mp inTarget with rfl | ⟨stored, rfl⟩
    · exact ⟨_, .head _, Slice.region_within_front _ inside room.keys⟩
    · exact ⟨_, .tail _ (.head _), Slice.region_within_front _ inside (room.values stored)⟩
  · rcases Pairs.mem_regions.mp inScratch with rfl | ⟨-, rfl⟩
    · refine ⟨_, .tail _ (.tail _ (.head _)), ?_⟩
      rw [Buffer.stretch_eq ((Nat.zero_add _).le.trans room.keysScratch)]
      exact Slice.region_within inside
    · refine ⟨_, .tail _ (.tail _ (.tail _ (.head _))), ?_⟩
      rw [Buffer.stretch_eq room.valuesScratch]
      exact Slice.region_within inside

theorem confined_stage {stage : Stage} (member : stage ∈ (request.plan scratch).stages)
    (group : Group) : (stage.kernel.run group).Confined (request.Writable scratch) := by
  have intoTarget : ∀ index, index < request.size → ∀ region ∈ request.target.regions index,
      request.Writable scratch region := fun index inside _ listed => ⟨index, inside, .inl listed⟩
  rw [stages_plan] at member
  rcases List.mem_append.mp member with first | last
  · rcases List.mem_cons.mp first with rfl | pass
    · exact TileSort.confined_program intoTarget group
    · obtain ⟨index, inside, rfl⟩ := List.mem_mapIdx.mp pass
      exact RunMerge.confined_program (writable_active (index + 1)) group
  · split at last
    · nomatch last
    · rw [List.mem_singleton.mp last]
      exact Copy.confined_program intoTarget group

theorem outcome_query (request : SortRequest keyType valueType) (host : Host) :
    request.query.outcome host =
      if request.regions.total ≤ Size.largest then
        (.ok (), { host with bytesNeeded := request.regions.bytesNeeded })
      else (.error (.invalidValue (.scratchOverflow request.size)), host) := by
  rw [query]
  by_cases fits : request.regions.total ≤ Size.largest
  · have found : request.layout = .ok request.regions := Layout.ofSize_eq_ok_iff.mpr ⟨rfl, fits⟩
    rw [if_pos fits, found]
    rfl
  · have overflows : request.layout = _ := Layout.ofSize_eq_error (Nat.lt_of_not_le fits)
    rw [if_neg fits, overflows]
    rfl

theorem storesWithin_execute (contained : environment.Contained) (watched : Bool) :
    HostM.StoresWithin (request.footprint storage)
      (request.execute environment watched storage) := by
  intro host later
  have permitted : ∀ layout scratch, request.layout = .ok layout →
      request.accept layout storage = .ok scratch →
        ∀ stage ∈ (request.plan scratch).stages, ∀ index,
          (HostM.made environment index stage.kernel request.grid).Confined
            (request.Owns storage) := by
    intro layout scratch found accepted stage member index
    obtain ⟨room, rfl⟩ := hasRoom_of_accept found accepted
    exact contained index stage.kernel _ fun group =>
      (confined_stage member group).widen fun _ => owns_of_writable room
  have invariant := Stream.Extends.invariant host.stream host.device (request.Owns storage)
  have executed := maintains_execute invariant permitted watched host (.refl _ _ _)
  obtain ⟨earlier, rest, unchanged⟩ := (invariant.advance executed later).exists_reached
  refine ⟨earlier, rest, fun address outside => unchanged.byteAt ?_⟩
  rintro region ⟨outer, member, within⟩ held
  exact outside outer member (within.holds held)

/-- A call without scratch memory sets the number of bytes if there is one, and does nothing
else to the host, whatever has become of the stream. A call with scratch memory leaves that
number alone, and however it ends, all that it and its launches ever store is in its own
footprint. -/
theorem call_frame (contained : environment.Contained) (watched : Bool) :
    (∀ host, (request.call environment watched none).outcome host =
        if request.regions.total ≤ Size.largest then
          (.ok (), { host with bytesNeeded := request.regions.bytesNeeded })
        else (.error (.invalidValue (.scratchOverflow request.size)), host)) ∧
      ∀ storage,
        HostM.Retains Host.bytesNeeded (request.call environment watched (some storage)) ∧
          HostM.StoresWithin (request.footprint storage)
            (request.call environment watched (some storage)) := by
  refine ⟨outcome_query request, fun storage => ⟨?_, ?_⟩⟩
  · exact bytesNeeded_execute request storage environment watched
  · exact storesWithin_execute contained watched

/-- The merge pass of the call faults, and its copy is refused. The byte is between the two
parts of the scratch memory. -/
theorem call_frame_small :
    (SmallCall.request.call .lazy false none).outcome SmallCall.host =
        (.ok (), { SmallCall.host with bytesNeeded := 512 }) ∧
      ∀ later, (((SmallCall.request.call
        ((Environment.lazy.breaking 1 0 (.fail .divisionByZero)).refusing 2 (.outOfMemory 0))
          false (some SmallCall.storage)).outcome SmallCall.host).2.advance
            later).device.memory.byteAt ⟨3, 3⟩ = 165 := by
  obtain ⟨asks, -⟩ := call_frame Environment.calm_lazy.contained false
  have contained : (Environment.lazy.breaking 1 0 (.fail .divisionByZero)).Contained :=
    Environment.contained_breaking 1 0 _
  obtain ⟨-, leaves⟩ := call_frame (contained.refusing 2 (.outOfMemory 0)) false
  refine ⟨(asks SmallCall.host).trans (if_pos (by decide)), fun later => ?_⟩
  obtain ⟨earlier, -, same⟩ := (leaves SmallCall.storage).2 SmallCall.host later
  rw [same ⟨3, 3⟩ (by decide), Host.advance_of_rest rfl]
  change (Array.replicate 512 (165 : UInt8)).getD 3 0 = 165
  rw [Array.getD_eq_getD_getElem?, Array.getElem?_replicate]
  rfl

end SortRequest

end GridSort
