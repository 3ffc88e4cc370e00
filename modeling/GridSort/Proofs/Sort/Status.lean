import GridSort.Proofs.Sort.Conduct

namespace GridSort

/-! What a call comes to. It is decided by what the call is given, before anything runs: the
checks have an order, and the first one that fails is what the caller is told of. -/

instance Input.decidableCovers {type : ElementType} (input : Input type) (size : Nat) :
    Decidable (input.Covers size) :=
  match input with
  | .slice source => inferInstanceAs (Decidable (size ≤ source.length))
  | .counting _ => inferInstanceAs (Decidable True)

instance Source.decidableCovers {keyType valueType : ElementType}
    (source : Source keyType valueType) (size : Nat) : Decidable (source.Covers size) :=
  inferInstanceAs (Decidable (source.keys.Covers size ∧
    (valueType.isStored = true → source.values.Covers size)))

inductive Verdict
  | rejected (cause : InvalidValue)
  | nothingToDo
  | refused
  | faulted
  | sorted
  deriving DecidableEq, Repr

namespace SortRequest

variable {keyType valueType : ElementType} {request : SortRequest keyType valueType}
  {scratch : Pairs keyType valueType} {storage : Buffer .byte} {layout : Layout}
  {environment : Environment} {watched : Bool} {host : Host} {memory : Memory}
  {test : Element keyType → Element keyType → Bool}

/-- How a call divides its scratch memory, if sizes do not overflow. -/
def regions (request : SortRequest keyType valueType) : Layout :=
  .ideal keyType valueType request.size

def verdict (request : SortRequest keyType valueType) (storage : Buffer .byte) : Verdict :=
  if Size.largest < request.regions.total then .rejected (.scratchOverflow request.size)
  else if request.size = 0 then .nothingToDo
  else if request.blockSize = 0 then .rejected .zeroBlockSize
  else if request.target.keys.length < request.size then
    .rejected (.shortOutput .keys request.target.keys.length request.size)
  else if valueType.isStored = true ∧ request.target.values.length < request.size then
    .rejected (.shortOutput .values request.target.values.length request.size)
  else if storage.length < request.regions.keyBytes + request.size * valueType.size then
    .rejected (.viewTooLong
      (if storage.length < request.size * keyType.size then request.size * keyType.size
        else request.size * valueType.size + request.regions.keyBytes) storage.length)
  else if Grid.maxLanes < request.blockSize then .refused
  else if request.source.Covers request.size then .sorted
  else .faulted

/-- How a call ends on which there is this verdict: its result, and the host it leaves.
Memory is as given once the earlier launches on the stream are done. -/
def EndsAs (request : SortRequest keyType valueType) (storage : Buffer .byte)
    (memory : Memory) (host : Host) (ended : Except Failure Unit × Host) : Verdict → Prop
  | .rejected cause => ended = (.error (.invalidValue cause), host)
  | .nothingToDo => ended = (.ok (), host)
  | .refused =>
      ∃ after, ended = (.error (.invalidConfiguration "block_sort" request.grid), after) ∧
        after.attempts.toList = host.attempts.toList ++ [⟨"block_sort", request.grid⟩] ∧
        after.Settles memory
  | .faulted =>
      ∃ fault after, ended = (.error (.kernelFault "block_sort" fault), after) ∧
        request.source.Misses request.size fault ∧
        after.attempts.toList = host.attempts.toList ++ [⟨"block_sort", request.grid⟩] ∧
        after.Failed (.kernelFault "block_sort" fault) ∧
        memory.UnchangedOutside
          (request.Writable (request.scratchIn storage request.regions)) after.device.memory
  | .sorted =>
      ∃ after, ended = (.ok (), after) ∧
        after.attempts.toList =
          host.attempts.toList ++ scheduled request.size request.blockSize ∧
        ∃ final, after.Settles final ∧
          memory.UnchangedOutside
            (request.Writable (request.scratchIn storage request.regions)) final

/-- A grid that no device accepts ends the call at its first launch. -/
theorem Accepted.exists_execute_of_invalid
    (accepted : request.Accepted storage layout scratch)
    (invalid : request.grid.isValid = false) (calm : environment.Calm)
    (healthy : host.Settles memory) (watched : Bool) :
    ∃ after, (request.execute environment watched storage).outcome host =
        (.error (.invalidConfiguration "block_sort" request.grid), after) ∧
      after.attempts.toList = host.attempts.toList ++ [⟨"block_sort", request.grid⟩] ∧
      after.Settles memory := by
  have announced : (host.announce watched request.grid).Settles memory ∧
      (host.announce watched request.grid).attempts = host.attempts := by
    cases watched with
    | false => exact ⟨healthy, rfl⟩
    | true => exact ⟨(healthy.print _).print _, rfl⟩
  obtain ⟨settles, same⟩ := announced
  have refused : (HostM.launch environment request.tileSort.kernel request.grid).outcome
      (host.announce watched request.grid) = _ :=
    HostM.outcome_launch_of_invalid (calm.refusal _ _) invalid
  rw [calm.disturb] at refused
  have attempted := settles.follows.attempt environment request.tileSort.kernel request.grid
  refine ⟨_, ?_, ?_, attempted.settles settles.completes⟩
  · rw [accepted.outcome_execute]
    exact SortPlan.outcome_run_of_error (HostM.outcome_bind_of_error refused _)
  · rw [← same]
    exact Array.toList_push

/-- Input that ends too early ends the call at its first launch, if that is waited for. -/
theorem Accepted.exists_execute_of_not_covers
    (accepted : request.Accepted storage layout scratch) (total : request.less = .ofTest test)
    (fits : Grid.Fits request.size request.blockSize)
    (room : request.target.HasRoom request.size)
    (short : ¬request.source.Covers request.size) (calm : environment.Calm)
    (waits : environment.Waits watched) (healthy : host.Settles memory) :
    ∃ fault after, (request.execute environment watched storage).outcome host =
        (.error (.kernelFault "block_sort" fault), after) ∧
      request.source.Misses request.size fault ∧
      after.attempts.toList = host.attempts.toList ++ [⟨"block_sort", request.grid⟩] ∧
      after.Failed (.kernelFault "block_sort" fault) ∧
      memory.UnchangedOutside (request.Writable scratch) after.device.memory := by
  have valid := isValid_grid (Nat.pos_of_ne_zero accepted.nonempty) accepted.positive
    fits.lanes_le
  obtain ⟨fault, partially, ran, missed, unchanged⟩ := exists_run_of_not_covers total fits room
    accepted.nonempty short (calm.order host.attempts.size request.grid.groups) memory
  have made : HostM.made environment host.attempts.size request.tileSort.kernel request.grid =
      ⟨request.tileSort.kernel, request.grid, environment.order host.attempts.size⟩ := by
    rw [HostM.made, calm.disturb]
  have reached : Launch.runAll
      ((request.launches environment host.attempts.size scratch).take 0) memory =
        (none, memory) := rfl
  have faults : Launch.runAll ((request.launches environment host.attempts.size scratch).take
      (0 + 1)) memory = (some (.kernelFault "block_sort" fault), partially) := by
    change Launch.runAll [HostM.made environment host.attempts.size request.tileSort.kernel
      request.grid] memory = _
    rw [made]
    exact Launch.runAll_cons_of_some ran []
  obtain ⟨after, outcome, failed, attempted, rfl⟩ :=
    accepted.exists_execute_of_fault valid calm waits healthy reached faults
  exact ⟨fault, after, outcome, missed, attempted, failed, unchanged⟩

/-- A call that nothing is wrong with stores its results, and nothing elsewhere, whether or
not its inputs, outputs and scratch memory overlap. -/
theorem Accepted.exists_execute_of_covers
    (accepted : request.Accepted storage layout scratch) (total : request.less = .ofTest test)
    (fits : Grid.Fits request.size request.blockSize)
    (room : request.target.HasRoom request.size) (scratchRoom : scratch.HasRoom request.size)
    (covers : request.source.Covers request.size) (calm : environment.Calm)
    (healthy : host.Settles memory) (watched : Bool) :
    ∃ after, (request.execute environment watched storage).outcome host = (.ok (), after) ∧
      after.attempts.toList =
        host.attempts.toList ++ scheduled request.size request.blockSize ∧
      ∃ final, after.Settles final ∧
        memory.UnchangedOutside (request.Writable scratch) final := by
  have valid := isValid_grid (Nat.pos_of_ne_zero accepted.nonempty) accepted.positive
    fits.lanes_le
  obtain ⟨final, runs, unchanged⟩ := exists_runAll_of_covers total fits room scratchRoom covers
    calm host.attempts.size memory
  obtain ⟨after, outcome, settles, attempted⟩ :=
    accepted.exists_execute valid calm healthy runs watched
  exact ⟨after, outcome, attempted, final, settles, unchanged⟩

theorem endsAs_of_accepted
    (accepted : request.Accepted storage request.regions
      (request.scratchIn storage request.regions))
    (total : request.less = .ofTest test) (small : request.size < 2 ^ 63)
    (room : request.target.HasRoom request.size) (calm : environment.Calm)
    (waits : environment.Waits watched) (healthy : host.Settles memory) :
    request.EndsAs storage memory host
      ((request.execute environment watched storage).outcome host)
      (if Grid.maxLanes < request.blockSize then .refused
        else if request.source.Covers request.size then .sorted
        else .faulted) := by
  by_cases many : Grid.maxLanes < request.blockSize
  · have invalid : request.grid.isValid = false := by
      rw [← Bool.not_eq_true, Grid.isValid_iff]
      exact fun valid => Nat.not_lt.mpr valid.2.2 many
    rw [if_pos many]
    exact accepted.exists_execute_of_invalid invalid calm healthy watched
  · have fits : Grid.Fits request.size request.blockSize :=
      ⟨small, accepted.positive, Nat.not_lt.mp many⟩
    rw [if_neg many]
    by_cases covers : request.source.Covers request.size
    · rw [if_pos covers]
      exact accepted.exists_execute_of_covers total fits room
        ⟨Nat.le_refl _, fun _ => Nat.le_refl _⟩ covers calm healthy watched
    · rw [if_neg covers]
      exact accepted.exists_execute_of_not_covers total fits room covers calm waits healthy

/-- The verdict on a call tells how it ends. A call that is rejected, or has nothing to do,
launches nothing and leaves the host as it was; one that is refused, or faults, makes one
launch. The stream stays healthy unless there is a fault. Whatever the verdict, nothing is
stored but at the positions to sort, in the outputs and in scratch memory, and the caller is
not told of scratch memory. -/
theorem execute_status (total : request.less = .ofTest test)
    (small : request.regions.total ≤ Size.largest → request.size < 2 ^ 63)
    (calm : environment.Calm) (waits : environment.Waits watched)
    (healthy : host.Settles memory) :
    ((request.execute environment watched storage).outcome host).2.bytesNeeded =
        host.bytesNeeded ∧
      request.EndsAs storage memory host
        ((request.execute environment watched storage).outcome host)
        (request.verdict storage) := by
  refine ⟨bytesNeeded_execute request storage environment watched host, ?_⟩
  rw [verdict]
  by_cases overflows : Size.largest < request.regions.total
  · have layout : request.layout = _ := Layout.ofSize_eq_error overflows
    rw [if_pos overflows, outcome_execute, layout]
    rfl
  have bounded := Nat.not_lt.mp overflows
  have found : request.layout = .ok request.regions :=
    Layout.ofSize_eq_ok_iff.mpr ⟨rfl, bounded⟩
  rw [if_neg overflows]
  by_cases empty : request.size = 0
  · rw [if_pos empty]
    exact outcome_execute_of_empty empty environment watched host
  rw [if_neg empty]
  have rejects : ∀ cause,
      request.accept request.regions storage = .error (.invalidValue cause) →
        request.EndsAs storage memory host
          ((request.execute environment watched storage).outcome host) (.rejected cause) :=
    fun _ rejected => outcome_execute_of_rejected found empty rejected environment watched host
  -- The checks of the call and those of the verdict come in the same order.
  have checks : request.accept request.regions storage = _ := accept_eq found
  by_cases zero : request.blockSize = 0
  · rw [if_pos zero] at checks ⊢
    exact rejects _ checks
  rw [if_neg zero] at checks ⊢
  by_cases shortKeys : request.target.keys.length < request.size
  · rw [if_pos shortKeys] at checks ⊢
    exact rejects _ checks
  rw [if_neg shortKeys] at checks ⊢
  by_cases shortValues : valueType.isStored = true ∧ request.target.values.length < request.size
  · rw [if_pos shortValues] at checks ⊢
    exact rejects _ checks
  rw [if_neg shortValues] at checks ⊢
  by_cases tooLong : storage.length < request.regions.keyBytes + request.size * valueType.size
  · rw [if_pos tooLong] at checks ⊢
    exact rejects _ checks
  rw [if_neg tooLong] at checks ⊢
  have room : request.target.HasRoom request.size :=
    ⟨Nat.not_lt.mp shortKeys, fun stored =>
      Nat.not_lt.mp fun shorter => shortValues ⟨stored, shorter⟩⟩
  exact endsAs_of_accepted ⟨empty, found, checks⟩ total (small bounded) room calm waits healthy

theorem execute_status_small :
    (∃ after, (SmallCall.request.execute .prompt true SmallCall.storage).outcome
        SmallCall.host = (.ok (), after) ∧
      after.attempts.toList = scheduled 3 2) ∧
    (∃ fault after, (SmallCall.short.execute .prompt true SmallCall.storage).outcome
        SmallCall.host = (.error (.kernelFault "block_sort" fault), after) ∧
      after.attempts.toList = [⟨"block_sort", ⟨2, 2⟩⟩]) ∧
    ∃ after, (SmallCall.wide.execute .prompt true SmallCall.storage).outcome
        SmallCall.host = (.error (.invalidConfiguration "block_sort" ⟨1, 1025⟩), after) ∧
      after.attempts.toList = [⟨"block_sort", ⟨1, 1025⟩⟩] := by
  have each : ∀ request : SortRequest .byte SmallCall.indexType,
      request.less = .ofTest Element.less → request.size < 2 ^ 63 →
        request.EndsAs SmallCall.storage SmallCall.memory SmallCall.host
          ((request.execute .prompt true SmallCall.storage).outcome SmallCall.host)
          (request.verdict SmallCall.storage) :=
    fun request total small => (execute_status total (fun _ => small) Environment.calm_prompt
      (Or.inl rfl) SmallCall.settles).2
  refine ⟨?_, ?_, ?_⟩
  · have sorted : SmallCall.request.verdict SmallCall.storage = .sorted := by decide
    obtain ⟨after, outcome, attempted, -⟩ := sorted ▸ each SmallCall.request rfl (by decide)
    exact ⟨after, outcome, attempted⟩
  · have faulted : SmallCall.short.verdict SmallCall.storage = .faulted := by decide
    obtain ⟨fault, after, outcome, -, attempted, -⟩ :=
      faulted ▸ each SmallCall.short rfl (by decide)
    exact ⟨fault, after, outcome, attempted⟩
  · have refused : SmallCall.wide.verdict SmallCall.storage = .refused := by decide
    obtain ⟨after, outcome, attempted, -⟩ := refused ▸ each SmallCall.wide rfl (by decide)
    exact ⟨after, outcome, attempted⟩

end SortRequest

end GridSort
