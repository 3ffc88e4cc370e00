import GridSort.Proofs.Host.Events
import GridSort.Proofs.Host.Sites
import GridSort.Proofs.Memory.Views
import GridSort.Release

namespace GridSort

/-! Transfers between the caller and a buffer. They wait for the stream and say what waiting says;
only if it says that all is well is anything copied. -/

namespace Memory

/-- A part of what was stored. -/
theorem load_store_within {memory : Memory} {target : Address} {bytes : List UInt8}
    {source : Region} (held : memory.Contains ⟨target, bytes.length⟩)
    (within : source.Within ⟨target, bytes.length⟩) :
    (memory.store target bytes).load source =
      (bytes.drop (source.offset - target.offset)).take source.length := by
  obtain ⟨same, low, high⟩ := within
  change target.offset ≤ source.offset at low
  change source.offset + source.length ≤ target.offset + bytes.length at high
  apply List.ext_getElem
  · rw [length_load, List.length_take, List.length_drop]
    omega
  · intro index inside _
    rw [length_load] at inside
    have place :
        target.offset + (source.offset - target.offset + index) = source.offset + index := by
      omega
    have stored := byteAt_store_inside held
      (show source.offset - target.offset + index < bytes.length by omega)
    rw [place] at stored
    rw [List.getElem_take, List.getElem_drop, ← stored, ← same]
    simp [load]

end Memory

namespace Element

variable {type : ElementType}

theorem length_encodeAll (elements : List (Element type)) :
    (elements.flatMap encode).length = elements.length * type.size := by
  induction elements with
  | nil => simp
  | cons element rest ih =>
      rw [List.flatMap_cons, List.length_append, ih, length_encode, List.length_cons,
        Nat.succ_mul, Nat.add_comm]

theorem take_drop_encodeAll {elements : List (Element type)} {index : Nat}
    (inside : index < elements.length) :
    ((elements.flatMap encode).drop (index * type.size)).take type.size =
      elements[index].encode := by
  induction elements generalizing index with
  | nil => exact absurd inside (Nat.not_lt_zero index)
  | cons element rest ih =>
      rw [List.flatMap_cons]
      cases index with
      | zero =>
          rw [Nat.zero_mul, List.drop_zero]
          exact List.take_left' (length_encode element)
      | succ index =>
          rw [Nat.succ_mul, Nat.add_comm, ← List.drop_drop, List.drop_left' (length_encode element)]
          exact ih (Nat.lt_of_succ_lt_succ inside)

end Element

namespace Buffer

variable {type sliceType : ElementType} {buffer : Buffer type} {slice : Slice sliceType}
  {memory : Memory} {elements : List (Element type)}

section Fill

variable (held : memory.Contains buffer.slice.extent) (fits : elements.length = buffer.length)
include held fits

theorem contains_filling :
    memory.Contains ⟨buffer.start, (elements.flatMap Element.encode).length⟩ := by
  rw [Element.length_encodeAll, fits]
  exact held

theorem get_fill (given : buffer.Gives slice) {index : Nat} (inside : index < slice.length) :
    slice.get (buffer.fill elements memory) index =
      Element.decode (((elements.flatMap Element.encode).drop
        (slice.offset + index * sliceType.size)).take sliceType.size) := by
  have within : (slice.region index).Within
      ⟨buffer.start, (elements.flatMap Element.encode).length⟩ := by
    rw [Element.length_encodeAll, fits]
    exact (Slice.region_within inside).trans given.within
  rw [Slice.get, fill, Memory.load_store_within (contains_filling held fits) within]
  rfl

theorem get_slice_fill {index : Nat} (inside : index < elements.length) :
    buffer.slice.get (buffer.fill elements memory) index = elements[index] := by
  have whole : index < buffer.slice.length := Nat.lt_of_lt_of_eq inside fits
  have place : buffer.slice.offset + index * type.size = index * type.size := Nat.zero_add _
  rw [get_fill held fits (.whole buffer) whole, place, Element.take_drop_encodeAll inside,
    Element.decode_encode]

theorem contents_fill : buffer.contents (buffer.fill elements memory) = elements := by
  apply List.ext_getElem
  · rw [contents, Slice.length_contents, fits]
    rfl
  · intro index _ inside
    rw [← get_slice_fill held fits inside]
    simp [contents, Slice.contents]

theorem contents_part_fill {start stop : Nat} {part : Slice type}
    (granted : buffer.part start stop = .ok part) :
    part.contents (buffer.fill elements memory) = (elements.drop start).take (stop - start) := by
  obtain ⟨⟨ordered, inside⟩, same⟩ := part_eq_ok_iff.mp granted
  have length : part.length = stop - start := congrArg Slice.length same
  apply List.ext_getElem
  · rw [Slice.length_contents, List.length_take, List.length_drop, length]
    omega
  · intro index bound _
    rw [Slice.length_contents, length] at bound
    rw [List.getElem_take, List.getElem_drop,
      ← get_slice_fill held fits (show start + index < elements.length by omega)]
    simp only [Slice.contents, List.getElem_map, List.getElem_range, Slice.get,
      region_part granted]

end Fill

/-- The buffer holds these elements, each range of it holds its part of them, and a view decodes
the bytes that they consist of. -/
structure Shows (buffer : Buffer type) (elements : List (Element type)) (memory : Memory) :
    Prop where
  contents : buffer.contents memory = elements
  parts : ∀ {start stop : Nat} {part : Slice type}, buffer.part start stop = .ok part →
    part.contents memory = (elements.drop start).take (stop - start)
  views : ∀ {sliceType : ElementType} {slice : Slice sliceType}, buffer.Gives slice →
    ∀ index < slice.length, slice.get memory index = Element.decode
      (((elements.flatMap Element.encode).drop (slice.offset + index * sliceType.size)).take
        sliceType.size)

theorem shows_fill (held : memory.Contains buffer.slice.extent)
    (fits : elements.length = buffer.length) :
    buffer.Shows elements (buffer.fill elements memory) where
  contents := contents_fill held fits
  parts := contents_part_fill held fits
  views := fun given _ inside => get_fill held fits given inside

theorem load_fill_of_disjoint (fits : elements.length = buffer.length) {region : Region}
    (apart : region.Disjoint buffer.slice.extent) :
    (buffer.fill elements memory).load region = memory.load region := by
  refine Memory.load_store_of_disjoint ?_
  rw [Element.length_encodeAll, fits]
  exact apart

end Buffer

namespace HostM

variable {environment : Environment} {host waited : Host} {status : Except Failure Unit}
  {type : ElementType} {buffer : Buffer type} {elements : List (Element type)}

theorem outcome_download
    (waits : (synchronize environment).outcome host = (status, waited)) :
    (download environment buffer).outcome host =
      (status.map fun _ => buffer.contents waited.device.memory, waited) := by
  rw [download, outcome_bind, waits]
  cases status with
  | ok _ => rfl
  | error error => rfl

theorem outcome_upload_of_ne (other : elements.length ≠ buffer.length) (host : Host) :
    (upload environment buffer elements).outcome host =
      (.error (.invalidValue (.lengthMismatch elements.length buffer.length)), host) := by
  rw [upload, if_neg other]
  rfl

theorem outcome_upload_of_error {error : Failure} (fits : elements.length = buffer.length)
    (waits : (synchronize environment).outcome host = (.error error, waited)) :
    (upload environment buffer elements).outcome host = (.error error, waited) := by
  rw [upload, if_pos fits, outcome_bind_of_error waits]

theorem outcome_upload_of_ok (fits : elements.length = buffer.length)
    (waits : (synchronize environment).outcome host = (.ok (), waited)) :
    (upload environment buffer elements).outcome host =
      (.ok (), { waited with device :=
        { waited.device with memory := buffer.fill elements waited.device.memory } }) := by
  rw [upload, if_pos fits, outcome_bind_of_ok waits]
  rfl

/-- What a caller knows who has waited and has been told that all is well. -/
theorem rest_of_synchronize (waits : (synchronize environment).outcome host = (.ok (), waited)) :
    waited = (host.proceed environment).drain ∧ waited.stream.alive = true ∧
      waited.stream.failure = none ∧ waited.stream.pending = [] := by
  have same := host_synchronize environment host
  rw [waits] at same
  rw [outcome_synchronize] at waits
  subst same
  refine ⟨rfl, ?_⟩
  split at waits
  · refine ⟨‹_›, ?_, Host.pending_drain _⟩
    have well : (host.proceed environment).drain.stream.status = .ok () := congrArg Prod.fst waits
    unfold Stream.status at well
    split at well
    · cases well
    · assumption
  · cases waits

end HostM

namespace Stream

theorem invariant_sameShape (memory : Memory) :
    Invariant (fun _ reached => memory.SameShape reached) (fun _ => True) where
  enqueue := fun held _ _ => held
  step := by
    intro stream device held
    have moved := stream.moves device
    generalize stream.step device = next at moved ⊢
    cases moved with
    | rests => exact held
    | leaves mute => exact held
    | skips answers => exact held
    | @completes launch rest alive memory answers ran =>
        have kept := launch.sameShape_run device.memory
        rw [ran] at kept
        exact held.trans kept
    | @faults launch rest alive memory cause answers ran =>
        have kept := launch.sameShape_run device.memory
        rw [ran] at kept
        exact held.trans kept

end Stream

namespace Host

variable {host waited : Host} {environment : Environment}

theorem sameShape_drain (environment : Environment) (host : Host) :
    host.device.memory.SameShape (host.proceed environment).drain.device.memory := by
  have invariant := Stream.invariant_sameShape host.device.memory
  have first : host.device.memory.SameShape (host.proceed environment).device.memory :=
    (invariant.advance (fun _ => rfl) _ : host.device.memory.SameShape
      (Stream.advance _ host.stream host.device).2.memory)
  exact invariant.advance first _

/-- Nothing changes while a caller waits for a stream that has an error, has lost its worker or
has nothing to do. -/
theorem memory_drain_of_still (sound : host.stream.Sound)
    (still : host.stream.failure ≠ none ∨ host.stream.alive = false ∨ host.stream.pending = []) :
    (host.proceed environment).drain.device.memory = host.device.memory := by
  have resting : host.stream.pending = [] →
      (host.proceed environment).drain.device.memory = host.device.memory := by
    intro rest
    have proceeded := proceed_of_rest rest environment
    have after : ({ host with clock := host.clock + 1 } : Host).drain = _ := drain_of_rest rest
    rw [proceeded, after]
  rcases still with failed | gone | rest
  · obtain ⟨error, recorded⟩ := Option.ne_none_iff_exists'.mp failed
    have later : (host.proceed environment).stream.failure = some error :=
      Stream.failure_advance recorded _ _
    exact (Stream.memory_advance later _ _).trans (Stream.memory_advance recorded _ _)
  · exact resting (sound gone)
  · exact resting rest

theorem device_drain (environment : Environment) (host : Host) :
    (host.proceed environment).drain.device = host.stream.close host.device :=
  congrArg Prod.snd (Stream.drain_advance _ host.stream host.device)

end Host

namespace Event

variable {mayPass : Write → Launch → Prop} {environment : Environment} {start waited : Host}
  {events : List Event}

/-- The launches that are in the queue at the start, and the deeds of the history. -/
def history (environment : Environment) (events : List Event) (start : Host) : List Deed :=
  start.stream.pending.map .launch ++ deedsAll environment events start

/-- What a caller finds who waits at the end of a history and is told that all is well. -/
theorem exists_done (permits : PermitsAll mayPass environment events start)
    (waits : (HostM.synchronize environment).outcome (performAll environment events start) =
      (.ok (), waited)) :
    ∃ done, Deed.Delays mayPass (history environment events start) done ∧
      waited.device.memory = Deed.actAll done start.device.memory := by
  obtain ⟨rfl, alive, healthy, rest⟩ := HostM.rest_of_synchronize waits
  have begun : Stream.Honours mayPass start.device.memory (start.stream.pending.map .launch)
      start.stream start.device.memory := fun _ _ => ⟨[], .refl, rfl⟩
  obtain ⟨count, stream, device⟩ := (performAll environment events start).exists_drain environment
  have honours : Stream.Honours mayPass start.device.memory (history environment events start)
      ((performAll environment events start).advance count).stream
      ((performAll environment events start).advance count).device.memory :=
    Stream.invariant_honours.advance (honours_performAll permits begun) count
  rw [stream] at alive healthy rest
  obtain ⟨done, delays, same⟩ := honours healthy alive
  rw [rest, List.map_nil, List.append_nil] at delays
  exact ⟨done, delays, (congrArg Device.memory device).trans same⟩

/-- Transfers in whatever state a history has led to. A list of the wrong length is refused at
once. Otherwise a transfer says what waiting says, and if that is an error, leaves what waiting
leaves. An upload that succeeds puts its elements into the buffer and changes nothing else. A
download that succeeds gives what all launches and writes lead to, in the order of the caller's
program except that launches may come later; the caller does not notice that, if nothing was
written where a launch was at work. Buffers and streams that are dropped take nothing away. -/
theorem transfers_performAll {type : ElementType} (environment : Environment) (start : Host)
    (sound : start.stream.Sound) (events : List Event) {reached : Host}
    (reaches : performAll environment events start = reached) (buffer : Buffer type)
    (held : reached.device.memory.Contains buffer.slice.extent) (elements : List (Element type)) :
    ∃ status waited, (HostM.synchronize environment).outcome reached = (status, waited) ∧
      (reached.stream.failure ≠ none ∨ reached.stream.alive = false ∨
          reached.stream.pending = [] → waited.device.memory = reached.device.memory) ∧
      (elements.length ≠ buffer.length →
        (HostM.upload environment buffer elements).outcome reached =
          (.error (.invalidValue (.lengthMismatch elements.length buffer.length)), reached)) ∧
      (∀ error, status = .error error →
        (elements.length = buffer.length →
          (HostM.upload environment buffer elements).outcome reached = (.error error, waited)) ∧
        (HostM.download environment buffer).outcome reached = (.error error, waited)) ∧
      (status = .ok () →
        (elements.length = buffer.length → ∃ after,
          (HostM.upload environment buffer elements).outcome reached = (.ok (), after) ∧
          after.stream = waited.stream ∧
          buffer.Shows elements after.device.memory ∧
          ∀ region, region.Disjoint buffer.slice.extent →
            after.device.memory.load region = waited.device.memory.load region) ∧
        (∃ done, Deed.Delays (fun _ _ => True) (history environment events start) done ∧
          (HostM.download environment buffer).outcome reached =
            (.ok (buffer.contents (Deed.actAll done start.device.memory)), waited)) ∧
        (RaceFree environment events start →
          (HostM.download environment buffer).outcome reached =
            (.ok (buffer.contents (Deed.actAll (history environment events start)
              start.device.memory)), waited))) ∧
      reached.stream.close reached.device = waited.device ∧
      ∀ (leftover : Nat → Array UInt8) (handles dropped : List Nat) {sliceType : ElementType}
        (slice : Slice sliceType),
        slice.allocation ∈
          (Holdings.dropAll leftover dropped ⟨reached.device.memory, handles⟩).handles ∨
            sliceType.isStored = false →
        ∀ index, slice.get
          (Holdings.dropAll leftover dropped ⟨reached.device.memory, handles⟩).memory index =
            slice.get reached.device.memory index := by
  have soundReached : reached.stream.Sound := reaches ▸ sound_performAll sound
  have drained := HostM.host_synchronize environment reached
  cases waits : (HostM.synchronize environment).outcome reached with
  | mk status waited =>
      rw [waits] at drained
      change waited = (reached.proceed environment).drain at drained
      refine ⟨status, waited, rfl, ?_, fun other => HostM.outcome_upload_of_ne other reached,
        ?_, ?_, ?_, ?_⟩
      · intro still
        rw [drained]
        exact Host.memory_drain_of_still soundReached still
      · rintro error rfl
        exact ⟨fun fits => HostM.outcome_upload_of_error fits waits,
          HostM.outcome_download waits⟩
      · rintro rfl
        refine ⟨fun fits => ⟨_, HostM.outcome_upload_of_ok fits waits, rfl, ?_,
          fun region apart => Buffer.load_fill_of_disjoint fits apart⟩, ?_, ?_⟩
        · refine Buffer.shows_fill ?_ fits
          rw [drained]
          exact (Host.sameShape_drain environment reached).contains held
        · obtain ⟨done, delays, memory⟩ :=
            exists_done (permitsAll_true environment events start) (reaches ▸ waits)
          refine ⟨done, delays, ?_⟩
          rw [← memory]
          exact HostM.outcome_download waits
        · intro raceFree
          obtain ⟨done, delays, memory⟩ := exists_done raceFree (reaches ▸ waits)
          rw [← delays.actAll_eq (fun _ _ passes => passes), ← memory]
          exact HostM.outcome_download waits
      · rw [drained]
        exact (Host.device_drain environment reached).symm
      · rintro leftover handles dropped sliceType slice (kept | empty) index
        · exact Holdings.get_dropAll dropped kept index
        · exact Element.eq_of_not_isStored empty _ _

end Event

/-! Half of a buffer is filled by a launch that the worker is in no hurry to take, and meanwhile
the caller writes to the other half. On another stream the worker is lost. -/

namespace SmallTransfers

def memory : Memory := ⟨#[#[1, 2, 3, 4], #[5, 6]]⟩

def buffer : Buffer .byte := ⟨0, 4⟩

def start : Host := { stream := .idle, device := ⟨memory, #[]⟩ }

def filled : Slice .byte := ⟨0, 0, 2⟩

def written : Slice .byte := ⟨0, 2, 2⟩

def events : List Event :=
  [.operation (.step (.launch (.fill filled 7 none) ⟨1, 2⟩)), .write written 1 9]

def reached : Host := Event.performAll .lazy events start

def lost : Host := Event.performAll .lazy [.operation (.step (.launch .mute ⟨1, 1⟩))] start

/-- A launch that faults beyond its slice, still in the queue. -/
def overrun : Host :=
  Event.performAll .lazy [.operation (.step (.launch (.fill filled 7 none) ⟨1, 3⟩))] start

/-- A write where the launch before it is still to come. -/
def overtaking : List Event :=
  [.operation (.step (.launch (.fill filled 7 none) ⟨1, 2⟩)), .write filled 0 9]

/-- The first of two streams, after a launch on the second. -/
def beside : Host :=
  let launch : Visit := ⟨1, .launch (.fill filled 7 none) ⟨1, 2⟩, List.range, fun _ _ => 0⟩
  let site := (launch.perform ⟨fun _ => .idle, start.device⟩).2
  { stream := site.stream 0, device := site.device }

theorem raceFree : Event.RaceFree .lazy events start := by
  refine ⟨trivial, ?_, trivial⟩
  intro launch pending
  obtain rfl := List.mem_singleton.mp pending
  exact Kernel.avoids_fill (by decide) 7 none ⟨1, 2⟩ _

end SmallTransfers

theorem Event.transfers_performAll_small :
    ((HostM.download .lazy SmallTransfers.buffer).outcome SmallTransfers.reached).1 =
        .ok [7, 7, 3, 9] ∧
      (HostM.upload .lazy SmallTransfers.buffer [1, 2]).outcome SmallTransfers.reached =
        (.error (.invalidValue (.lengthMismatch 2 4)), SmallTransfers.reached) ∧
      (∃ after, (HostM.upload .lazy SmallTransfers.buffer [6, 7, 8, 9]).outcome
          SmallTransfers.reached = (.ok (), after) ∧
        SmallTransfers.written.contents after.device.memory = [8, 9]) ∧
      ((HostM.download .lazy SmallTransfers.buffer).outcome SmallTransfers.lost).1 =
        .error (Stream.gone "<synchronize>") := by
  have sound : SmallTransfers.start.stream.Sound := fun _ => rfl
  obtain ⟨-, -, -, -, refused, -⟩ := Event.transfers_performAll .lazy SmallTransfers.start sound
    SmallTransfers.events (show _ = SmallTransfers.reached from rfl) SmallTransfers.buffer
    (by decide) [1, 2]
  obtain ⟨status, waited, waits, -, -, -, succeeds, -⟩ :=
    Event.transfers_performAll .lazy SmallTransfers.start sound SmallTransfers.events
      (show _ = SmallTransfers.reached from rfl) SmallTransfers.buffer (by decide) [6, 7, 8, 9]
  obtain rfl : status = .ok () := (congrArg Prod.fst waits).symm
  obtain ⟨uploads, -, inOrder⟩ := succeeds rfl
  obtain ⟨after, uploaded, -, shows, -⟩ := uploads rfl
  obtain ⟨lostStatus, lostWaited, lostWaits, -, -, fails, -⟩ :=
    Event.transfers_performAll .lazy SmallTransfers.start sound _
      (show _ = SmallTransfers.lost from rfl) SmallTransfers.buffer (by decide) []
  have gone := (fails (Stream.gone "<synchronize>") (congrArg Prod.fst lostWaits).symm).2
  refine ⟨?_, refused (by decide), ⟨after, uploaded, ?_⟩, congrArg Prod.fst gone⟩
  · rw [inOrder SmallTransfers.raceFree]
    rfl
  · exact shows.parts (show SmallTransfers.buffer.part 2 4 = .ok SmallTransfers.written from rfl)

/-- Where launches are in the queue or on another stream, more is seen than what the stream and the
writes have done in program order: a transfer that fails has let a launch store its bytes, a write
is undone by the launch before it, closing the stream changes what a slice reads, and a stream
without any launch shows what another one did. -/
theorem Event.transfers_show_pending :
    (SmallTransfers.buffer.contents SmallTransfers.overrun.device.memory = [1, 2, 3, 4] ∧
      ∃ after, (HostM.upload .lazy SmallTransfers.buffer [6, 7, 8, 9]).outcome
          SmallTransfers.overrun = (.error (.kernelFault "fill" (.writeOutOfBounds 2 2)), after) ∧
        SmallTransfers.buffer.contents after.device.memory = [7, 7, 3, 4]) ∧
      (SmallTransfers.buffer.contents (Deed.actAll
          (Event.history .lazy SmallTransfers.overtaking SmallTransfers.start)
            SmallTransfers.memory) = [9, 7, 3, 4] ∧
        ((HostM.download .lazy SmallTransfers.buffer).outcome
          (Event.performAll .lazy SmallTransfers.overtaking SmallTransfers.start)).1 =
            .ok [7, 7, 3, 4]) ∧
      (SmallTransfers.filled.contents SmallTransfers.overrun.device.memory = [1, 2] ∧
        SmallTransfers.filled.contents
          (SmallTransfers.overrun.stream.close SmallTransfers.overrun.device).memory = [7, 7]) ∧
      SmallTransfers.beside.stream = .idle ∧
        ((HostM.download .lazy SmallTransfers.buffer).outcome SmallTransfers.beside).1 =
          .ok [7, 7, 3, 4] :=
  ⟨⟨rfl, _, rfl, rfl⟩, ⟨rfl, rfl⟩, ⟨rfl, rfl⟩, rfl, rfl⟩

end GridSort
