import GridSort.Proofs.Sort.Run

namespace GridSort

/-! What a caller can learn from a sort. The pairs that go in decide the ones that come out,
and so nothing is told of what was in the scratch memory or in the output before. -/

namespace SortRequest

variable {keyType valueType : ElementType} {request other : SortRequest keyType valueType}
  {storage otherStorage : Buffer .byte} {memory otherMemory : Memory}

/-- Two calls that are given the same to sort, each where its own memory has it. -/
structure Alike (request : SortRequest keyType valueType) (memory : Memory)
    (other : SortRequest keyType valueType) (otherMemory : Memory) : Prop where
  size : other.size = request.size
  blockSize : other.blockSize = request.blockSize
  less : other.less = request.less
  pairs : ∀ position, position < request.size →
    other.source.get otherMemory position = request.source.get memory position

theorem Alike.answers (alike : request.Alike memory other otherMemory)
    {test : Nat → Nat → Bool} (answers : request.Answers (request.source.get memory) test) :
    other.Answers (other.source.get otherMemory) test := by
  intro first second hfirst hsecond
  rw [alike.size] at hfirst hsecond
  rw [alike.pairs first hfirst, alike.pairs second hsecond, alike.less]
  exact answers first second hfirst hsecond

/-- Calls that are given the same to sort end alike. Neither the bytes in their scratch
memory nor its length matters, nor what their outputs held. -/
theorem execute_tells_input_only (alike : request.Alike memory other otherMemory)
    (admits : request.Admits storage memory) (otherAdmits : other.Admits otherStorage otherMemory)
    {test : Element keyType → Element keyType → Bool} (total : request.less = .ofTest test)
    {environment otherEnvironment : Environment} (calm : environment.Calm)
    (otherCalm : otherEnvironment.Calm) {watched otherWatched : Bool} {host otherHost : Host}
    (healthy : host.Settles memory) (otherHealthy : otherHost.Settles otherMemory) :
    ∃ (attempts : List Attempt) (after otherAfter rested otherRested : Host),
      (request.execute environment watched storage).outcome host = (.ok (), after) ∧
      (other.execute otherEnvironment otherWatched otherStorage).outcome otherHost =
        (.ok (), otherAfter) ∧
      after.attempts.toList = host.attempts.toList ++ attempts ∧
      otherAfter.attempts.toList = otherHost.attempts.toList ++ attempts ∧
      (HostM.synchronize environment).outcome after = (.ok (), rested) ∧
      (HostM.synchronize otherEnvironment).outcome otherAfter = (.ok (), otherRested) ∧
      ∀ position, position < request.size →
        other.target.get otherRested.device.memory position =
          request.target.get rested.device.memory position := by
  obtain ⟨answered, answers⟩ : ∃ answered, request.Answers (request.source.get memory) answered :=
    ⟨_, answers_ofTest total⟩
  obtain ⟨final, gathers, runs⟩ := admits.exists_final answers
  obtain ⟨otherFinal, otherGathers, otherRuns⟩ := otherAdmits.exists_final (alike.answers answers)
  obtain ⟨after, succeeds, settles, attempted⟩ := runs environment watched host calm healthy
  obtain ⟨otherAfter, otherSucceeds, otherSettles, otherAttempted⟩ :=
    otherRuns otherEnvironment otherWatched otherHost otherCalm otherHealthy
  obtain ⟨rested, waited, -, same, -⟩ := settles.synchronize environment
  obtain ⟨otherRested, otherWaited, -, otherSame, -⟩ := otherSettles.synchronize otherEnvironment
  rw [alike.size, alike.blockSize] at otherAttempted
  refine ⟨scheduled request.size request.blockSize, after, otherAfter, rested, otherRested,
    succeeds, otherSucceeds, attempted, otherAttempted, waited, otherWaited,
    fun position inside => ?_⟩
  have origin : sortedFrom answered request.size request.blockSize position < request.size :=
    sortedFrom_lt admits.fits inside
  rw [same, otherSame, gathers position inside, ← alike.pairs _ origin,
    otherGathers position (by rwa [alike.size]), alike.size, alike.blockSize]

end SortRequest

/-! The small call once more, with less scratch memory and with other bytes left over. -/

namespace SmallCall

def usedMemory : Memory :=
  ⟨#[#[3, 1, 2], Array.replicate 3 7, Array.replicate 12 9, Array.replicate 268 90]⟩

def usedStorage : Buffer .byte := ⟨3, 268⟩

def usedHost : Host := { stream := .idle, device := ⟨usedMemory, #[]⟩ }

theorem settles_usedHost : usedHost.Settles usedMemory := Host.settles_of_idle rfl rfl rfl

theorem usedStorage_held : usedMemory.Contains usedStorage.slice.extent := by
  change 0 + 268 * 1 ≤ (Array.replicate 268 (90 : UInt8)).size
  rw [Array.size_replicate]

theorem admits_used : request.Admits usedStorage usedMemory :=
  { fits := placed.fits
    covers := placed.covers
    room := placed.room
    keysHeld := by decide
    valuesHeld := by decide
    storageHeld := usedStorage_held
    outputsApart := placed.outputsApart
    keysApart := by decide
    valuesApart := by decide
    keysBeside := placed.keysBeside
    valuesBeside := trivial
    enough := ⟨⟨256, 256⟩, layout, by decide⟩ }

theorem alike_used : request.Alike memory request usedMemory :=
  ⟨rfl, rfl, rfl, fun _ _ => rfl⟩

end SmallCall

namespace SortRequest

theorem execute_tells_input_only_small :
    ∃ after otherAfter rested otherRested : Host,
      (SmallCall.request.execute .prompt false SmallCall.storage).outcome SmallCall.host =
        (.ok (), after) ∧
      (SmallCall.request.execute .lazy true SmallCall.usedStorage).outcome SmallCall.usedHost =
        (.ok (), otherAfter) ∧
      after.attempts = otherAfter.attempts ∧
      (HostM.synchronize .prompt).outcome after = (.ok (), rested) ∧
      (HostM.synchronize .lazy).outcome otherAfter = (.ok (), otherRested) ∧
      ∀ position, position < 3 →
        SmallCall.request.target.get otherRested.device.memory position =
          SmallCall.request.target.get rested.device.memory position := by
  obtain ⟨attempts, after, otherAfter, rested, otherRested, succeeds, otherSucceeds, attempted,
    otherAttempted, waited, otherWaited, same⟩ :=
      execute_tells_input_only SmallCall.alike_used SmallCall.admits SmallCall.admits_used
        (show _ = Predicate.ofTest Element.less from rfl) Environment.calm_prompt
        Environment.calm_lazy SmallCall.settles SmallCall.settles_usedHost
  exact ⟨after, otherAfter, rested, otherRested, succeeds, otherSucceeds,
    Array.toList_inj.mp (attempted.trans otherAttempted.symm), waited, otherWaited, same⟩

end SortRequest

end GridSort
