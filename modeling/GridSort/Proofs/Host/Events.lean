import GridSort.Proofs.Host.Departure
import GridSort.Proofs.Program.Avoidance

namespace GridSort

/-! Histories of a caller who uses a stream, and who writes through slices besides. Launches are
done later than they are made, writes at once. As long as the stream is healthy, memory is what
all of them lead to, in an order that differs from the caller's in that alone. -/

/-- What has an effect on memory. -/
inductive Deed
  | launch (given : Launch)
  | write (made : Write)

namespace Deed

def act : Deed → Memory → Memory
  | .launch given, memory => (given.run memory).2
  | .write made, memory => memory.store made.target made.bytes

def actAll (deeds : List Deed) (memory : Memory) : Memory :=
  deeds.foldl (fun memory deed => deed.act memory) memory

@[simp] theorem actAll_cons (deed : Deed) (rest : List Deed) (memory : Memory) :
    actAll (deed :: rest) memory = actAll rest (deed.act memory) := rfl

@[simp] theorem actAll_append (first second : List Deed) (memory : Memory) :
    actAll (first ++ second) memory = actAll second (actAll first memory) :=
  List.foldl_append

/-- The same deeds, except that launches may come later: a write overtakes a launch that was made
before it, if it may overtake that launch. -/
inductive Delays (mayPass : Write → Launch → Prop) (deeds : List Deed) : List Deed → Prop
  | refl : Delays mayPass deeds deeds
  | swap {earlier later : List Deed} {launch : Launch} {write : Write}
      (delays : Delays mayPass deeds (earlier ++ .launch launch :: .write write :: later))
      (passes : mayPass write launch) :
      Delays mayPass deeds (earlier ++ .write write :: .launch launch :: later)

namespace Delays

variable {mayPass : Write → Launch → Prop} {deeds done : List Deed} {pending : List Launch}
  {write : Write}

theorem append (delays : Delays mayPass deeds done) (more : List Deed) :
    Delays mayPass (deeds ++ more) (done ++ more) := by
  induction delays with
  | refl => exact .refl
  | @swap earlier later launch write _ passes ih =>
      rw [List.append_assoc] at ih ⊢
      exact ih.swap passes

/-- A write that comes last overtakes all the launches before it. -/
theorem overtake (delays : Delays mayPass deeds (done ++ pending.map .launch))
    (passes : ∀ launch ∈ pending, mayPass write launch) :
    Delays mayPass (deeds ++ [.write write]) (done ++ .write write :: pending.map .launch) := by
  have last := delays.append [.write write]
  generalize deeds ++ [Deed.write write] = whole at last ⊢
  clear delays
  induction pending generalizing done with
  | nil => simpa using last
  | cons launch rest ih =>
      obtain ⟨first, others⟩ := List.forall_mem_cons.mp passes
      have later : Delays mayPass whole
          ((done ++ [.launch launch]) ++ rest.map .launch ++ [.write write]) := by
        simpa using last
      have moved := ih others later
      rw [List.append_assoc] at moved
      exact moved.swap first

/-- Writes that only overtake launches which keep away from them leave the same memory. -/
theorem actAll_eq (delays : Delays mayPass deeds done)
    (apart : ∀ write launch, mayPass write launch → launch.Avoids write.region)
    (memory : Memory) : actAll done memory = actAll deeds memory := by
  induction delays with
  | refl => rfl
  | @swap earlier later launch write _ passes ih =>
      have swapped : (Deed.launch launch).act ((Deed.write write).act (actAll earlier memory)) =
          (Deed.write write).act ((Deed.launch launch).act (actAll earlier memory)) :=
        (apart write launch passes).run_store (actAll earlier memory)
      rw [← ih, actAll_append, actAll_append, actAll_cons, actAll_cons, actAll_cons, actAll_cons,
        swapped]

end Delays

end Deed

theorem HostM.host_discard (steps : HostM α) (host : Host) :
    ((steps >>= fun _ => pure ()).outcome host).2 = (steps.outcome host).2 := by
  rw [outcome_bind]
  cases steps.outcome host with
  | mk result after =>
      cases result with
      | ok _ => rfl
      | error _ => rfl

/-- The elements, as they are written over a buffer. -/
def Buffer.filling {type : ElementType} (buffer : Buffer type) (elements : List (Element type)) :
    Write :=
  ⟨buffer.start, elements.flatMap Element.encode⟩

/-- An operation on the stream, or a write through a slice, which waits for nothing. What another
stream stores is such a write too, at the moment when it is stored. -/
inductive Event
  | operation (next : Operation)
  | write {type : ElementType} (slice : Slice type) (index : Nat) (element : Element type)

namespace Event

def perform (environment : Environment) : Event → Host → Host
  | .operation next, host => ((next.perform environment).outcome host).2
  | .write slice index element, host =>
      let host := host.proceed environment
      { host with device :=
          { host.device with memory := ((slice.write index element).run host.device.memory).2 } }

def performAll (environment : Environment) (events : List Event) (host : Host) : Host :=
  events.foldl (fun host event => event.perform environment host) host

/-- An accepted launch, the elements of an upload that succeeds, or those of a write inside its
slice. -/
def deeds (environment : Environment) (host : Host) : Event → List Deed
  | .operation (.step next) => ((Operation.step next).accepted environment host).map .launch
  | .operation (.download _) => []
  | .operation (.upload buffer elements) =>
      match ((HostM.upload environment buffer elements).outcome host).1 with
      | .ok _ => [.write (buffer.filling elements)]
      | .error _ => []
  | .write slice index element =>
      if index < slice.length then [.write ⟨slice.address index, element.encode⟩] else []

/-- The deeds of a history in the order of its events. -/
def deedsAll (environment : Environment) : List Event → Host → List Deed
  | [], _ => []
  | event :: rest, host =>
      event.deeds environment host ++ deedsAll environment rest (event.perform environment host)

/-- When an element is written, the write may overtake the launches that are not yet done. -/
def Permits (mayPass : Write → Launch → Prop) (environment : Environment) (host : Host) :
    Event → Prop
  | .operation _ => True
  | .write slice index element =>
      ∀ launch ∈ (host.proceed environment).stream.pending,
        mayPass ⟨slice.address index, element.encode⟩ launch

def PermitsAll (mayPass : Write → Launch → Prop) (environment : Environment) :
    List Event → Host → Prop
  | [], _ => True
  | event :: rest, host => event.Permits mayPass environment host ∧
      PermitsAll mayPass environment rest (event.perform environment host)

/-- Nothing is written where a launch that is not yet done loads or stores. Who writes through a
slice has to see to it. -/
abbrev RaceFree : Environment → List Event → Host → Prop :=
  PermitsAll fun write launch => launch.Avoids write.region

theorem permitsAll_true (environment : Environment) (events : List Event) (host : Host) :
    PermitsAll (fun _ _ => True) environment events host := by
  induction events generalizing host with
  | nil => trivial
  | cons event rest ih =>
      refine ⟨?_, ih _⟩
      cases event with
      | operation next => trivial
      | write slice index element => exact fun _ _ => trivial

/-- What an event does besides letting the worker go on: nothing, a launch is given to the worker,
or something is written. -/
inductive Turn (mayPass : Write → Launch → Prop) (host : Host) :
    List Deed → Stream → Memory → Prop
  | rests : Turn mayPass host [] host.stream host.device.memory
  | launches (launch : Launch) (alive : host.stream.alive = true) :
      Turn mayPass host [.launch launch] (host.stream.enqueue launch) host.device.memory
  | writes (write : Write) (passes : ∀ launch ∈ host.stream.pending, mayPass write launch) :
      Turn mayPass host [.write write] host.stream
        (host.device.memory.store write.target write.bytes)

variable {mayPass : Write → Launch → Prop} {environment : Environment} {host : Host}

theorem exists_turn_launch (kernel : Kernel) (grid : Grid) :
    ∃ count, Turn mayPass (host.advance count)
      (deeds environment host (.operation (.step (.launch kernel grid))))
      (perform environment (.operation (.step (.launch kernel grid))) host).stream
      (perform environment (.operation (.step (.launch kernel grid))) host).device.memory := by
  refine ⟨environment.pace host.clock host.stream.pending.length, ?_⟩
  rw [deeds, Operation.accepted, perform, Operation.perform, CallerStep.perform]
  cases refusal : environment.refusal host.attempts.size kernel with
  | some error =>
      rw [HostM.outcome_launch_of_refusal refusal]
      exact .rests
  | none =>
      cases valid : grid.isValid with
      | false =>
          rw [HostM.outcome_launch_of_invalid refusal valid]
          exact .rests
      | true =>
          cases alive : (host.proceed environment).stream.alive with
          | false =>
              rw [HostM.outcome_launch_of_gone refusal valid alive]
              exact .rests
          | true =>
              rw [HostM.outcome_launch_of_valid refusal valid alive]
              exact .launches _ alive

theorem exists_turn_upload {type : ElementType} (buffer : Buffer type)
    (elements : List (Element type)) :
    ∃ count, Turn mayPass (host.advance count)
      (deeds environment host (.operation (.upload buffer elements)))
      (perform environment (.operation (.upload buffer elements)) host).stream
      (perform environment (.operation (.upload buffer elements)) host).device.memory := by
  rw [deeds, perform, Operation.perform, HostM.upload]
  by_cases same : elements.length = buffer.length
  · obtain ⟨count, stream, device⟩ := host.exists_drain environment
    refine ⟨count, ?_⟩
    have waited := HostM.host_synchronize environment host
    rw [if_pos same, HostM.outcome_bind]
    cases found : (HostM.synchronize environment).outcome host with
    | mk result after =>
        rw [found] at waited
        subst waited
        cases result with
        | error error =>
            dsimp only
            rw [stream, device]
            exact .rests
        | ok _ =>
            have rest : (host.advance count).stream.pending = [] := by
              rw [← stream]
              exact Host.pending_drain _
            have turn : Turn mayPass (host.advance count) _ _ _ :=
              .writes (buffer.filling elements) (by rw [rest]; exact List.forall_mem_nil _)
            rw [← stream, ← device] at turn
            exact turn
  · refine ⟨0, ?_⟩
    rw [if_neg same]
    exact .rests

/-- The one lemma that looks into the operations. -/
theorem exists_turn {event : Event} (permits : event.Permits mayPass environment host) :
    ∃ count, Turn mayPass (host.advance count) (event.deeds environment host)
      (event.perform environment host).stream (event.perform environment host).device.memory := by
  cases event with
  | operation next =>
      cases next with
      | step next =>
          cases next with
          | launch kernel grid => exact exists_turn_launch kernel grid
          | peek =>
              refine ⟨environment.pace host.clock host.stream.pending.length, ?_⟩
              rw [perform, Operation.perform, CallerStep.perform, HostM.outcome_peek]
              exact .rests
          | synchronize =>
              obtain ⟨count, stream, device⟩ := host.exists_drain environment
              refine ⟨count, ?_⟩
              rw [perform, Operation.perform, CallerStep.perform, HostM.host_synchronize, stream,
                device]
              exact .rests
      | download buffer =>
          obtain ⟨count, stream, device⟩ := host.exists_drain environment
          refine ⟨count, ?_⟩
          rw [perform, Operation.perform, HostM.host_discard, HostM.host_download, stream, device]
          exact .rests
      | upload buffer elements => exact exists_turn_upload buffer elements
  | write slice index element =>
      refine ⟨environment.pace host.clock host.stream.pending.length, ?_⟩
      rw [deeds, perform]
      by_cases inside : index < slice.length
      · rw [if_pos inside, Slice.run_write inside]
        exact .writes ⟨slice.address index, element.encode⟩ permits
      · rw [if_neg inside, Slice.run_write_outside (Nat.not_lt.mp inside)]
        exact .rests

end Event

namespace Stream

/-- If the worker is gone, so is the queue. -/
def Sound (stream : Stream) : Prop := stream.alive = false → stream.pending = []

theorem invariant_sound : Invariant (fun stream _ => stream.Sound) (fun _ => True) where
  enqueue := fun _ alive _ gone => nomatch alive.symm.trans gone
  step := by
    intro stream device sound
    have moved := stream.moves device
    generalize stream.step device = next at moved ⊢
    cases moved with
    | rests => exact fun _ => rfl
    | leaves mute => exact fun _ => rfl
    | skips answers => exact fun gone => nomatch sound gone
    | completes answers ran => exact fun gone => nomatch sound gone
    | faults answers ran => exact fun gone => nomatch sound gone

theorem Sound.turn {mayPass : Write → Launch → Prop} {host : Host} {deeds : List Deed}
    {stream : Stream} {memory : Memory} (sound : host.stream.Sound)
    (turn : Event.Turn mayPass host deeds stream memory) : stream.Sound := by
  cases turn with
  | rests => exact sound
  | launches launch alive => exact fun gone => nomatch alive.symm.trans gone
  | writes write passes => exact sound

/-- Unless the stream has an error or has lost its worker, memory is what some deeds lead to.
These, followed by the launches in the queue, are the given ones with some launches delayed. -/
def Honours (mayPass : Write → Launch → Prop) (start : Memory) (deeds : List Deed)
    (stream : Stream) (memory : Memory) : Prop :=
  stream.failure = none → stream.alive = true →
    ∃ done, Deed.Delays mayPass deeds (done ++ stream.pending.map .launch) ∧
      memory = Deed.actAll done start

variable {mayPass : Write → Launch → Prop} {start : Memory} {deeds : List Deed}

theorem invariant_honours :
    Invariant (Honours mayPass start deeds) (fun _ => False) where
  enqueue := fun _ _ impossible => impossible.elim
  step := by
    intro stream device honours
    have moved := stream.moves device
    generalize stream.step device = next at moved ⊢
    cases moved with
    | rests => exact honours
    | leaves mute => exact fun _ alive => nomatch alive
    | skips answers => exact fun healthy => nomatch healthy
    | @completes launch rest alive memory answers ran =>
        intro healthy living
        obtain ⟨done, delays, same⟩ := honours healthy living
        refine ⟨done ++ [.launch launch], by simpa using delays, ?_⟩
        rw [Deed.actAll_append, ← same]
        exact (congrArg Prod.snd ran).symm
    | faults answers ran => exact fun healthy => nomatch healthy

theorem Honours.turn {host : Host} {more : List Deed} {stream : Stream} {memory : Memory}
    (honours : Honours mayPass start deeds host.stream host.device.memory)
    (turn : Event.Turn mayPass host more stream memory) :
    Honours mayPass start (deeds ++ more) stream memory := by
  cases turn with
  | rests => rwa [List.append_nil]
  | launches launch alive =>
      intro healthy living
      obtain ⟨done, delays, same⟩ := honours healthy living
      refine ⟨done, ?_, same⟩
      rw [enqueue, List.map_append, ← List.append_assoc]
      exact delays.append _
  | writes write passes =>
      intro healthy living
      obtain ⟨done, delays, same⟩ := honours healthy living
      refine ⟨done ++ [.write write], ?_, ?_⟩
      · rw [List.append_assoc]
        exact delays.overtake passes
      · rw [Deed.actAll_append, ← same]
        rfl

end Stream

namespace Event

variable {mayPass : Write → Launch → Prop} {environment : Environment} {events : List Event}
  {host : Host} {start : Memory} {given : List Deed}

theorem sound_advance (sound : host.stream.Sound) (count : Nat) :
    (host.advance count).stream.Sound :=
  (Stream.invariant_sound.advance sound count : (Stream.advance count _ host.device).1.Sound)

theorem sound_performAll (sound : host.stream.Sound) :
    (performAll environment events host).stream.Sound := by
  induction events generalizing host with
  | nil => exact sound
  | cons event rest ih =>
      obtain ⟨count, turn⟩ := exists_turn (permitsAll_true environment [event] host).1
      exact ih ((sound_advance sound count).turn turn)

theorem honours_performAll (permits : PermitsAll mayPass environment events host)
    (honours : Stream.Honours mayPass start given host.stream host.device.memory) :
    Stream.Honours mayPass start (given ++ deedsAll environment events host)
      (performAll environment events host).stream
      (performAll environment events host).device.memory := by
  induction events generalizing host given with
  | nil => rwa [deedsAll, List.append_nil]
  | cons event rest ih =>
      obtain ⟨count, turn⟩ := exists_turn permits.1
      have advanced : Stream.Honours mayPass start given (host.advance count).stream
          (host.advance count).device.memory := Stream.invariant_honours.advance honours count
      rw [deedsAll, ← List.append_assoc]
      exact ih permits.2 (advanced.turn turn)

end Event

end GridSort
