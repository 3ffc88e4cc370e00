import GridSort.Kernel.Probe
import GridSort.Proofs.Host.Sites

namespace GridSort

/-! Whole histories of a site. What a stream has recorded is the fault of its first launch
that has one, at each point of the history, and decides what becomes of the next step. -/

/-- A step that was taken, with the site before and after. -/
structure Record where
  visit : Visit
  before : Site
  result : Except Failure Unit
  after : Site

namespace Record

/-- The fault of the launch, run on what memory held. -/
def fault? (record : Record) : Option Failure :=
  record.visit.step.fault? record.visit.order record.before.device.memory

/-- The errors that were logged. -/
def errors (record : Record) : List LogLine :=
  (record.after.device.log.toList.drop record.before.device.log.size).filter
    (·.level = .error)

/-- The fault of the first launch on the stream that has one. -/
def firstFault? (id : Nat) (records : List Record) : Option Failure :=
  (records.filter (·.visit.id = id)).findSome? fault?

def errorLine (error : Failure) : LogLine := ⟨.error, error.message⟩

/-- The errors that are logged when a fault is found, if none is recorded so far. -/
def newErrors (recorded found : Option Failure) : List LogLine :=
  match recorded with
  | none => found.toList.map errorLine
  | some _ => []

theorem newErrors_none (recorded : Option Failure) : newErrors recorded none = [] := by
  cases recorded <;> rfl

theorem newErrors_or (recorded first second : Option Failure) :
    newErrors recorded (first.or second) =
      newErrors recorded first ++ newErrors (recorded.or first) second := by
  cases recorded <;> cases first <;> rfl

theorem firstFault?_append (id : Nat) (first second : List Record) :
    firstFault? id (first ++ second) = (firstFault? id first).or (firstFault? id second) := by
  rw [firstFault?, List.filter_append, List.findSome?_append]
  rfl

theorem firstFault?_cons (id : Nat) (record : Record) (rest : List Record) :
    firstFault? id (record :: rest) =
      (firstFault? id [record]).or (firstFault? id rest) :=
  firstFault?_append id [record] rest

theorem firstFault?_self (record : Record) :
    firstFault? record.visit.id [record] = record.fault? := by
  simp [firstFault?]

theorem firstFault?_of_ne {id : Nat} {record : Record} (other : record.visit.id ≠ id) :
    firstFault? id [record] = none := by
  simp [firstFault?, other]

end Record

namespace Effect

variable {site after : Site} {id : Nat} {order : Nat → List Nat}
  {recorded : Option Failure} {step : CallerStep} {result : Except Failure Unit}

theorem fault?_of_invalid {kernel : Kernel} {grid : Grid} (memory : Memory)
    (invalid : ¬(1 ≤ grid.groups ∧ 1 ≤ grid.lanes ∧ grid.lanes ≤ Grid.maxLanes)) :
    (CallerStep.launch kernel grid).fault? order memory = none := by
  rw [← grid.isValid_iff] at invalid
  exact if_neg invalid

theorem fault?_of_valid {kernel : Kernel} {grid : Grid} {memory next : Memory}
    {cause : Option Fault}
    (valid : 1 ≤ grid.groups ∧ 1 ≤ grid.lanes ∧ grid.lanes ≤ Grid.maxLanes)
    (ran : Launch.runGroups kernel grid (order grid.groups) memory = (cause, next)) :
    (CallerStep.launch kernel grid).fault? order memory =
      cause.map (Failure.kernelFault kernel.name) := by
  rw [← grid.isValid_iff] at valid
  rw [CallerStep.fault?, if_pos valid, Launch.run, ran]
  rfl

/-- What a stream has recorded stays, and otherwise the fault of the launch is recorded. -/
theorem stream_after (effect : Effect site id order recorded step result after)
    (rests : site.stream id = .atRest recorded) :
    after.stream id = .atRest (recorded.or (step.fault? order site.device.memory)) := by
  cases effect with
  | refused invalid => rw [fault?_of_invalid _ invalid, Option.or_none, rests]
  | completed valid each ran =>
      rw [fault?_of_valid valid (Launch.runGroups_eq_none_iff.mpr ran), Site.stream_put_self]
      rfl
  | faulted valid each split ran stopped =>
      have faults := Launch.runGroups_eq_some_iff.mpr ⟨_, _, _, _, split, ran, stopped⟩
      rw [fault?_of_valid valid faults, Site.stream_put_self]
      rfl
  | skipped valid => rw [Site.stream_put_self, Option.some_or]
  | peeked => rw [CallerStep.fault?, Option.or_none, rests]
  | waited => rw [CallerStep.fault?, Option.or_none, rests]

/-- The lines that a step adds to the log. -/
theorem drop_log (log : Array LogLine) (lines : List LogLine) :
    (log.toList ++ lines).drop log.size = lines := by
  rw [← Array.length_toList, List.drop_left]

theorem errors (effect : Effect site id order recorded step result after) :
    (after.device.log.toList.drop site.device.log.size).filter (·.level = .error) =
      Record.newErrors recorded (step.fault? order site.device.memory) := by
  have still : (site.device.log.toList.drop site.device.log.size).filter (·.level = .error) =
      Record.newErrors recorded none := by
    have nothing := drop_log site.device.log []
    rw [List.append_nil] at nothing
    rw [nothing, Record.newErrors_none]
    rfl
  cases effect with
  | refused invalid => rw [fault?_of_invalid _ invalid, still]
  | completed valid each ran =>
      rw [fault?_of_valid valid (Launch.runGroups_eq_none_iff.mpr ran), Site.put,
        Array.toList_push, drop_log]
      rfl
  | faulted valid each split ran stopped =>
      have faults := Launch.runGroups_eq_some_iff.mpr ⟨_, _, _, _, split, ran, stopped⟩
      rw [fault?_of_valid valid faults, Site.put, Array.toList_push, Array.toList_push,
        List.append_assoc, drop_log]
      rfl
  | skipped valid =>
      rw [Site.put, Array.toList_push, Array.toList_push, List.append_assoc, drop_log]
      rfl
  | peeked => exact still
  | waited => exact still

end Effect

namespace Site

def history : List Visit → Site → List Record
  | [], _ => []
  | visit :: rest, site =>
      ⟨visit, site, (visit.perform site).1, (visit.perform site).2⟩ ::
        history rest (visit.perform site).2

def after : List Visit → Site → Site
  | [], site => site
  | visit :: rest, site => after rest (visit.perform site).2

variable {site : Site} {visit : Visit} {visits : List Visit} {id : Nat}
  {recorded : Option Failure}

theorem alive_of_after (alive : ((after visits site).stream id).alive = true) :
    (site.stream id).alive = true := by
  induction visits generalizing site with
  | nil => exact alive
  | cons visit rest ih => exact Visit.alive_of_perform (ih alive)

theorem stream_perform (fair : visit.Fair) (rests : site.stream id = .atRest recorded)
    (alive : ((visit.perform site).2.stream id).alive = true) :
    (visit.perform site).2.stream id = .atRest (recorded.or (Record.firstFault? id
      [⟨visit, site, (visit.perform site).1, (visit.perform site).2⟩])) := by
  by_cases same : visit.id = id
  · subst same
    have first := Record.firstFault?_self
      ⟨visit, site, (visit.perform site).1, (visit.perform site).2⟩
    rw [first]
    exact (visit.effect fair rests alive).stream_after rests
  · rw [Record.firstFault?_of_ne same, Option.or_none, Visit.stream_of_ne (Ne.symm same), rests]

theorem stream_after (fair : ∀ visit ∈ visits, visit.Fair)
    (rests : site.stream id = .atRest recorded)
    (alive : ((after visits site).stream id).alive = true) :
    (after visits site).stream id =
      .atRest (recorded.or (Record.firstFault? id (history visits site))) := by
  induction visits generalizing site recorded with
  | nil =>
      have empty : Record.firstFault? id [] = none := rfl
      rw [history, empty, Option.or_none]
      exact rests
  | cons visit rest ih =>
      obtain ⟨fairFirst, restFair⟩ := List.forall_mem_cons.mp fair
      have next := stream_perform fairFirst rests (alive_of_after alive)
      rw [history, Record.firstFault?_cons, ← Option.or_assoc]
      exact ih restFair next alive

/-- At each point of a history, what the stream has recorded is the first fault so far. A
step on it has the effect that goes with this, and a step elsewhere does not touch it. -/
theorem effect_of_split (fair : ∀ visit ∈ visits, visit.Fair)
    (rests : site.stream id = .atRest recorded)
    (alive : ((after visits site).stream id).alive = true) {earlier later : List Record}
    {record : Record} (split : history visits site = earlier ++ record :: later) :
    record.before.stream id = .atRest (recorded.or (Record.firstFault? id earlier)) ∧
      (record.visit.id = id →
        Effect record.before id record.visit.order
          (recorded.or (Record.firstFault? id earlier)) record.visit.step record.result
          record.after) ∧
      (record.visit.id ≠ id → record.after.stream id = record.before.stream id) := by
  induction visits generalizing site recorded earlier with
  | nil => exact absurd split (List.append_ne_nil_of_right_ne_nil earlier (by simp)).symm
  | cons visit rest ih =>
      obtain ⟨fairFirst, restFair⟩ := List.forall_mem_cons.mp fair
      have aliveNext : ((visit.perform site).2.stream id).alive = true := alive_of_after alive
      have next := stream_perform fairFirst rests aliveNext
      cases earlier with
      | nil =>
          obtain ⟨rfl, -⟩ := List.cons.inj split
          have empty : Record.firstFault? id [] = none := rfl
          rw [empty, Option.or_none]
          refine ⟨rests, ?_, fun other => Visit.stream_of_ne (Ne.symm other)⟩
          rintro rfl
          exact visit.effect fairFirst rests aliveNext
      | cons first earlier =>
          obtain ⟨rfl, restSplit⟩ := List.cons.inj split
          rw [Record.firstFault?_cons, ← Option.or_assoc]
          exact ih restFair next alive restSplit

theorem errors_history (fair : ∀ visit ∈ visits, visit.Fair)
    (rests : site.stream id = .atRest recorded)
    (alive : ((after visits site).stream id).alive = true) :
    ((history visits site).filter (·.visit.id = id)).flatMap Record.errors =
      Record.newErrors recorded (Record.firstFault? id (history visits site)) := by
  induction visits generalizing site recorded with
  | nil => exact (Record.newErrors_none recorded).symm
  | cons visit rest ih =>
      obtain ⟨fairFirst, restFair⟩ := List.forall_mem_cons.mp fair
      have aliveNext : ((visit.perform site).2.stream id).alive = true := alive_of_after alive
      have next := stream_perform fairFirst rests aliveNext
      have tail := ih restFair next alive
      rw [history, Record.firstFault?_cons, Record.newErrors_or, ← tail]
      by_cases same : visit.id = id
      · subst same
        have first := Record.firstFault?_self
          ⟨visit, site, (visit.perform site).1, (visit.perform site).2⟩
        rw [List.filter_cons_of_pos (by simp), List.flatMap_cons, first]
        exact congrArg (· ++ _) (visit.effect fairFirst rests aliveNext).errors
      · rw [List.filter_cons_of_neg (by simpa using same), Record.firstFault?_of_ne same,
          Record.newErrors_none, List.nil_append]

/-- As long as its worker lives, a stream has recorded the fault of its first launch that has
one, and logs it once. Before that every launch runs each of its groups once, one after the other,
and memory is what the last one left; afterwards none is run. A launch that is not accepted changes
nothing, and neither does a step on another stream. -/
theorem first_fault_sticks (fair : ∀ visit ∈ visits, visit.Fair)
    (idle : site.stream id = .idle) (alive : ((after visits site).stream id).alive = true) :
    ((after visits site).stream id).failure = Record.firstFault? id (history visits site) ∧
      ((history visits site).filter (·.visit.id = id)).flatMap Record.errors =
        (Record.firstFault? id (history visits site)).toList.map Record.errorLine ∧
      ∀ earlier record later, history visits site = earlier ++ record :: later →
        record.before.stream id = .atRest (Record.firstFault? id earlier) ∧
          (record.visit.id = id →
            Effect record.before id record.visit.order (Record.firstFault? id earlier)
              record.visit.step record.result record.after) ∧
          (record.visit.id ≠ id → record.after.stream id = record.before.stream id) := by
  have rests : site.stream id = .atRest none := idle
  refine ⟨?_, errors_history fair rests alive, fun earlier record later split => ?_⟩
  · rw [stream_after fair rests alive]
    rfl
  · exact effect_of_split fair rests alive split

end Site

/-! A short history on two bytes. A launch fills them, the next one fills them again and faults
beyond them, the one after it is skipped, another stream goes on, and a last one is not even
accepted. -/

namespace SmallSite

def bytes : Slice .byte := ⟨0, 0, 2⟩

def visit (id : Nat) (step : CallerStep) : Visit := ⟨id, step, List.range, fun _ _ => 0⟩

def fill (id : Nat) (element : Element .byte) (grid : Grid) : Visit :=
  visit id (.launch (.fill bytes element none) grid)

def visits : List Visit :=
  [fill 0 7 ⟨2, 1⟩, fill 0 8 ⟨3, 1⟩, fill 0 9 ⟨2, 1⟩, fill 1 5 ⟨1, 1⟩, fill 0 6 ⟨0, 1⟩,
    visit 0 .synchronize]

def site : Site := ⟨fun _ => .idle, ⟨⟨#[#[0, 0]]⟩, #[]⟩⟩

theorem fair : ∀ visit ∈ visits, visit.Fair := by
  simp [visits, fill, visit, Visit.Fair]

end SmallSite

theorem Site.first_fault_sticks_small :
    ((Site.after SmallSite.visits SmallSite.site).stream 0).failure =
        some (.kernelFault "fill" (.writeOutOfBounds 2 2)) ∧
      ((Site.after SmallSite.visits SmallSite.site).stream 1).failure = none ∧
      ((Site.history SmallSite.visits SmallSite.site).filter
          (·.visit.id = 0)).flatMap Record.errors =
        [Record.errorLine (.kernelFault "fill" (.writeOutOfBounds 2 2))] ∧
      (Site.history SmallSite.visits SmallSite.site).map (·.after.device.memory) =
        [⟨#[#[7, 7]]⟩, ⟨#[#[8, 8]]⟩, ⟨#[#[8, 8]]⟩, ⟨#[#[5, 8]]⟩, ⟨#[#[5, 8]]⟩, ⟨#[#[5, 8]]⟩] ∧
      ∀ first ∈ (Site.history SmallSite.visits SmallSite.site).head?,
        Effect SmallSite.site 0 List.range none first.visit.step (.ok ()) first.after := by
  obtain ⟨failure, errors, each⟩ := Site.first_fault_sticks SmallSite.fair
    (show SmallSite.site.stream 0 = .idle from rfl) rfl
  obtain ⟨otherFailure, -⟩ := Site.first_fault_sticks SmallSite.fair
    (show SmallSite.site.stream 1 = .idle from rfl) rfl
  refine ⟨failure, otherFailure, errors, rfl, ?_⟩
  rintro first ⟨⟩
  obtain ⟨-, effect, -⟩ := each [] _ _ rfl
  exact effect rfl

end GridSort
