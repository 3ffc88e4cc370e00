import GridSort.Proofs.Host.Rest

namespace GridSort

/-! Several streams over one memory, and what a caller finds who goes from one to the other
and waits each time. The first launch that faults leaves its error on its own stream. After
that every launch there is skipped, and nothing on the other streams changes. -/

/-- A live stream that has nothing to do. -/
def Stream.atRest (recorded : Option Failure) : Stream := ⟨[], recorded, true⟩

structure Site where
  stream : Nat → Stream
  device : Device

namespace Site

def put (site : Site) (id : Nat) (stream : Stream) (device : Device) : Site :=
  ⟨fun other => if other = id then stream else site.stream other, device⟩

@[simp] theorem stream_put_self (site : Site) (id : Nat) (stream : Stream) (device : Device) :
    (site.put id stream device).stream id = stream := if_pos rfl

theorem stream_put_of_ne (site : Site) {id other : Nat} (h : other ≠ id) (stream : Stream)
    (device : Device) : (site.put id stream device).stream other = site.stream other :=
  if_neg h

@[simp] theorem put_self (site : Site) (id : Nat) :
    site.put id (site.stream id) site.device = site := by
  obtain ⟨stream, device⟩ := site
  refine congrArg (Site.mk · device) (funext fun other => ?_)
  by_cases same : other = id
  · rw [if_pos same, same]
  · rw [if_neg same]

end Site

/-- One step of a caller on the stream with the number. -/
structure Visit where
  id : Nat
  step : CallerStep
  order : Nat → List Nat
  pace : Nat → Nat → Nat

namespace Visit

/-- Each group of a launch runs once. -/
def Fair (visit : Visit) : Prop :=
  ∀ groups, (visit.order groups).Perm (List.range groups)

def environment (visit : Visit) : Environment :=
  { order := fun _ => visit.order, pace := visit.pace }

def host (visit : Visit) (site : Site) : Host :=
  { stream := site.stream visit.id, device := site.device }

/-- Takes the step, and waits until the stream has come to rest. -/
def perform (visit : Visit) (site : Site) : Except Failure Unit × Site :=
  let (result, host) := (visit.step.perform visit.environment).outcome (visit.host site)
  let (_, rested) := (HostM.synchronize visit.environment).outcome host
  (result, site.put visit.id rested.stream rested.device)

end Visit

namespace HostM

theorem stream_synchronize (environment : Environment) (host : Host) :
    (((synchronize environment).outcome host).2.stream,
      ((synchronize environment).outcome host).2.device) = host.stream.drain host.device := by
  rw [host_synchronize]
  exact Stream.drain_advance _ host.stream host.device

end HostM

/-- These groups run one after the other, each to its end, from one memory to another. -/
inductive Kernel.Completes (kernel : Kernel) (grid : Grid) : List Nat → Memory → Memory → Prop
  | nil {memory : Memory} : Completes kernel grid [] memory memory
  | cons {id : Nat} {rest : List Nat} {before middle after : Memory}
      (ran : (kernel.run ⟨id, grid⟩).run before = (.ok (), middle))
      (later : Completes kernel grid rest middle after) :
      Completes kernel grid (id :: rest) before after

namespace Launch

variable {kernel : Kernel} {grid : Grid} {ids : List Nat} {before after : Memory}

theorem runGroups_eq_none_iff :
    runGroups kernel grid ids before = (none, after) ↔ kernel.Completes grid ids before after := by
  induction ids generalizing before with
  | nil =>
      constructor
      · rintro ⟨⟩
        exact .nil
      · rintro ⟨⟩
        rfl
  | cons id rest ih =>
      rw [runGroups]
      cases ran : (kernel.run ⟨id, grid⟩).run before with
      | mk result middle =>
          cases result with
          | ok =>
              refine ih.trans ⟨.cons ran, fun completes => ?_⟩
              cases completes with
              | cons other later =>
                  cases ran.symm.trans other
                  exact later
          | error fault =>
              refine ⟨fun same => (nomatch same), fun completes => ?_⟩
              cases completes with
              | cons other later => cases ran.symm.trans other

/-- Groups after the first that faults do not run. -/
theorem runGroups_eq_some_iff {cause : Fault} :
    runGroups kernel grid ids before = (some cause, after) ↔
      ∃ finished id skipped middle, ids = finished ++ id :: skipped ∧
        kernel.Completes grid finished before middle ∧
        (kernel.run ⟨id, grid⟩).run middle = (.error cause, after) := by
  induction ids generalizing before with
  | nil =>
      refine ⟨fun same => (nomatch same), ?_⟩
      rintro ⟨finished, id, skipped, -, split, -⟩
      exact absurd split.symm (by simp)
  | cons first rest ih =>
      rw [runGroups]
      cases ran : (kernel.run ⟨first, grid⟩).run before with
      | mk result middle =>
          cases result with
          | ok =>
              refine ih.trans ⟨?_, ?_⟩
              · rintro ⟨finished, id, skipped, last, rfl, completes, stops⟩
                exact ⟨first :: finished, id, skipped, last, rfl, .cons ran completes, stops⟩
              · rintro ⟨finished, id, skipped, last, split, completes, stops⟩
                cases completes with
                | nil =>
                    cases split
                    cases ran.symm.trans stops
                | cons other later =>
                    cases split
                    cases ran.symm.trans other
                    exact ⟨_, id, skipped, last, rfl, later, stops⟩
          | error fault =>
              constructor
              · rintro ⟨⟩
                exact ⟨[], first, rest, before, rfl, .nil, ran⟩
              · rintro ⟨finished, id, skipped, last, split, completes, stops⟩
                cases completes with
                | nil =>
                    cases split
                    cases ran.symm.trans stops
                    rfl
                | cons other later =>
                    cases split
                    cases ran.symm.trans other

end Launch

/-- The fault of a launch on a memory, if it is a launch and if it is accepted. -/
def CallerStep.fault? (order : Nat → List Nat) (memory : Memory) : CallerStep → Option Failure
  | .launch kernel grid =>
      if grid.isValid then
        ((⟨kernel, grid, order⟩ : Launch).run memory).1.map
          (⟨kernel, grid, order⟩ : Launch).fault
      else none
  | .peek => none
  | .synchronize => none

/-- What a step does on a stream with this recorded error: what it returns, and what it
leaves behind. A launch that is run has each of its groups run once, to its end, or up to the
first one that faults. -/
inductive Effect (site : Site) (id : Nat) (order : Nat → List Nat) :
    Option Failure → CallerStep → Except Failure Unit → Site → Prop
  | refused {recorded : Option Failure} {kernel : Kernel} {grid : Grid}
      (invalid : ¬(1 ≤ grid.groups ∧ 1 ≤ grid.lanes ∧ grid.lanes ≤ Grid.maxLanes)) :
      Effect site id order recorded (.launch kernel grid)
        (.error (.invalidConfiguration kernel.name grid)) site
  | completed {kernel : Kernel} {grid : Grid} {memory : Memory}
      (valid : 1 ≤ grid.groups ∧ 1 ≤ grid.lanes ∧ grid.lanes ≤ Grid.maxLanes)
      (each : (order grid.groups).Perm (List.range grid.groups))
      (ran : kernel.Completes grid (order grid.groups) site.device.memory memory) :
      Effect site id order none (.launch kernel grid) (.ok ())
        (site.put id (.atRest none)
          ⟨memory, site.device.log.push (⟨kernel, grid, order⟩ : Launch).enqueuedLine⟩)
  | faulted {kernel : Kernel} {grid : Grid} {finished skipped : List Nat} {group : Nat}
      {middle memory : Memory} {cause : Fault}
      (valid : 1 ≤ grid.groups ∧ 1 ≤ grid.lanes ∧ grid.lanes ≤ Grid.maxLanes)
      (each : (order grid.groups).Perm (List.range grid.groups))
      (split : order grid.groups = finished ++ group :: skipped)
      (ran : kernel.Completes grid finished site.device.memory middle)
      (stopped : (kernel.run ⟨group, grid⟩).run middle = (.error cause, memory)) :
      Effect site id order none (.launch kernel grid) (.ok ())
        (site.put id (.atRest (some (.kernelFault kernel.name cause)))
          ⟨memory, (site.device.log.push (⟨kernel, grid, order⟩ : Launch).enqueuedLine).push
            ⟨.error, (Failure.kernelFault kernel.name cause).message⟩⟩)
  | skipped {error : Failure} {kernel : Kernel} {grid : Grid}
      (valid : 1 ≤ grid.groups ∧ 1 ≤ grid.lanes ∧ grid.lanes ≤ Grid.maxLanes) :
      Effect site id order (some error) (.launch kernel grid) (.ok ())
        (site.put id (.atRest (some error)) ⟨site.device.memory,
          (site.device.log.push (⟨kernel, grid, order⟩ : Launch).enqueuedLine).push
            (⟨kernel, grid, order⟩ : Launch).skippedLine⟩)
  | peeked {recorded : Option Failure} :
      Effect site id order recorded .peek (Stream.atRest recorded).status site
  | waited {recorded : Option Failure} :
      Effect site id order recorded .synchronize (Stream.atRest recorded).status site

namespace Visit

variable {visit : Visit} {site : Site} {recorded : Option Failure}

theorem perform_eq {result : Except Failure Unit} {host : Host} {stream : Stream}
    {device : Device}
    (stepped : (visit.step.perform visit.environment).outcome (visit.host site) =
      (result, host))
    (drained : host.stream.drain host.device = (stream, device)) :
    visit.perform site = (result, site.put visit.id stream device) := by
  have waited := HostM.stream_synchronize visit.environment host
  rw [drained] at waited
  obtain ⟨rfl, rfl⟩ := Prod.mk.inj waited
  rw [perform, stepped]

theorem proceed_host (rests : site.stream visit.id = .atRest recorded) :
    ((visit.host site).proceed visit.environment).stream = .atRest recorded ∧
      ((visit.host site).proceed visit.environment).device = site.device := by
  have quiet : (visit.host site).stream.pending = [] := by
    change (site.stream visit.id).pending = []
    rw [rests]
    rfl
  have still := Stream.advance_of_pending_eq_nil quiet
    (visit.environment.pace 0 (visit.host site).stream.pending.length) site.device
  exact ⟨(congrArg Prod.fst still).trans rests, congrArg Prod.snd still⟩

/-- A step after which the stream is as it was leaves the whole site as it was. -/
theorem perform_of_still (rests : site.stream visit.id = .atRest recorded)
    {result : Except Failure Unit} {host : Host}
    (stepped : (visit.step.perform visit.environment).outcome (visit.host site) =
      (result, host))
    (stream : host.stream = .atRest recorded) (device : host.device = site.device) :
    visit.perform site = (result, site) := by
  have drained : host.stream.drain host.device = (.atRest recorded, site.device) := by
    rw [stream, device]
    rfl
  rw [perform_eq stepped drained, ← rests, Site.put_self]

theorem perform_launch {kernel : Kernel} {grid : Grid} (valid : grid.isValid = true)
    (step : visit.step = .launch kernel grid)
    (rests : site.stream visit.id = .atRest recorded) {after : Stream} {device : Device}
    (taken : Stream.step ⟨[⟨kernel, grid, visit.order⟩], recorded, true⟩
      ⟨site.device.memory, site.device.log.push
        (⟨kernel, grid, visit.order⟩ : Launch).enqueuedLine⟩ = (after, device)) :
    visit.perform site = (.ok (), site.put visit.id after device) := by
  obtain ⟨still, same⟩ := proceed_host rests
  have alive : ((visit.host site).proceed visit.environment).stream.alive = true := by
    rw [still]
    rfl
  have stepped : (visit.step.perform visit.environment).outcome (visit.host site) =
      (.ok (), ((visit.host site).attempt visit.environment kernel grid).enqueue
        ⟨kernel, grid, visit.order⟩) := by
    rw [step]
    exact HostM.outcome_launch_of_valid rfl valid alive
  refine perform_eq stepped ?_
  change (((visit.host site).proceed visit.environment).stream.enqueue _).drain
    (((visit.host site).proceed visit.environment).device.note _ _) = _
  rw [still, same]
  exact taken

/-- A step on a live stream at rest does one of six things, as long as the worker lives. -/
theorem effect (fair : visit.Fair) (rests : site.stream visit.id = .atRest recorded)
    (alive : ((visit.perform site).2.stream visit.id).alive = true) :
    Effect site visit.id visit.order recorded visit.step (visit.perform site).1
      (visit.perform site).2 := by
  obtain ⟨still, same⟩ := proceed_host rests
  cases step : visit.step with
  | launch kernel grid =>
      cases valid : grid.isValid with
      | false =>
          have invalid : ¬(1 ≤ grid.groups ∧ 1 ≤ grid.lanes ∧ grid.lanes ≤ Grid.maxLanes) := by
            rw [← grid.isValid_iff, valid]
            exact Bool.false_ne_true
          have stepped : (visit.step.perform visit.environment).outcome (visit.host site) =
              (.error (.invalidConfiguration kernel.name grid),
                (visit.host site).attempt visit.environment kernel grid) := by
            rw [step]
            exact HostM.outcome_launch_of_invalid rfl valid
          rw [perform_of_still rests stepped still same]
          exact .refused invalid
      | true =>
          have inside := grid.isValid_iff.mp valid
          cases answers : kernel.answersWorker with
          | false =>
              rw [perform_launch valid step rests (Stream.step_of_mute answers recorded),
                Site.stream_put_self] at alive
              cases alive
          | true =>
              cases recorded with
              | some error =>
                  rw [perform_launch valid step rests (Stream.step_of_failed answers)]
                  exact .skipped inside
              | none =>
                  cases ran : (⟨kernel, grid, visit.order⟩ : Launch).run
                      site.device.memory with
                  | mk cause memory =>
                      cases cause with
                      | none =>
                          rw [perform_launch valid step rests
                            (Stream.step_of_completes answers ran)]
                          exact .completed inside (fair grid.groups)
                            (Launch.runGroups_eq_none_iff.mp ran)
                      | some cause =>
                          rw [perform_launch valid step rests
                            (Stream.step_of_faults answers ran)]
                          obtain ⟨finished, group, skipped, middle, split, completes, stops⟩ :=
                            Launch.runGroups_eq_some_iff.mp ran
                          exact .faulted inside (fair grid.groups) split completes stops
  | peek =>
      have stepped : (visit.step.perform visit.environment).outcome (visit.host site) =
          ((Stream.atRest recorded).status, (visit.host site).proceed visit.environment) := by
        rw [step, ← still]
        exact HostM.outcome_peek (visit.host site)
      rw [perform_of_still rests stepped still same]
      exact .peeked
  | synchronize =>
      have drained : (((visit.host site).proceed visit.environment).stream.drain
          ((visit.host site).proceed visit.environment).device) =
            (.atRest recorded, site.device) := by
        rw [still, same]
        rfl
      have stream : ((visit.host site).proceed visit.environment).drain.stream =
          .atRest recorded := congrArg Prod.fst drained
      have living : ((visit.host site).proceed visit.environment).drain.stream.alive = true := by
        rw [stream]
        rfl
      have stepped : (visit.step.perform visit.environment).outcome (visit.host site) =
          ((Stream.atRest recorded).status,
            ((visit.host site).proceed visit.environment).drain) := by
        rw [step, ← stream]
        exact HostM.outcome_synchronize_of_alive living
      rw [perform_of_still rests stepped stream (congrArg Prod.snd drained)]
      exact .waited

theorem stream_of_ne {id : Nat} (other : id ≠ visit.id) :
    (visit.perform site).2.stream id = site.stream id :=
  Site.stream_put_of_ne _ other _ _

theorem alive_of_perform {id : Nat}
    (alive : ((visit.perform site).2.stream id).alive = true) :
    (site.stream id).alive = true := by
  by_cases same : id = visit.id
  · subst same
    rw [perform, Site.stream_put_self] at alive
    have waited : ((CallerStep.synchronize.perform visit.environment).outcome
        ((visit.step.perform visit.environment).outcome
          (visit.host site)).2).2.stream.alive = true := alive
    exact CallerStep.alive_of_perform (CallerStep.alive_of_perform waited)
  · rwa [stream_of_ne same] at alive

end Visit

end GridSort
