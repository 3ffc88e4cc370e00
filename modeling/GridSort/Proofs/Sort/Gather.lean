import GridSort.Proofs.Sort.Run

namespace GridSort

/-! A sort moves pairs as a whole. Which pair goes where depends on the answers of the
predicate for the keys, and those may be any answers: no launch faults, and none is made
that an order would not make. -/

namespace SortRequest

variable {keyType : ElementType}

/-- Whatever a test answers, a call succeeds, with the launches that the sizes give it.
The keys, the test and the block size decide where each pair goes. -/
theorem exists_gather {lanes : Nat} (test : Element keyType → Element keyType → Bool)
    (keys : List (Element keyType)) (fits : Grid.Fits keys.length lanes) :
    ∃ origin : Nat → Nat, (∀ position, position < keys.length →
        origin position < keys.length) ∧
      ∀ (valueType : ElementType) (request : SortRequest keyType valueType)
        (storage : Buffer .byte) (memory : Memory), request.Admits storage memory →
        request.less = .ofTest test → request.blockSize = lanes →
        (List.range request.size).map (request.source.keys.get memory) = keys →
        ∀ (environment : Environment) (watched : Bool) (host : Host),
          environment.Calm → host.Settles memory →
          ∃ after rested, (request.execute environment watched storage).outcome host =
              (.ok (), after) ∧
            after.attempts.toList = host.attempts.toList ++ scheduled keys.length lanes ∧
            (HostM.synchronize environment).outcome after = (.ok (), rested) ∧
            ∀ position, position < keys.length →
              keys[origin position]? =
                  some (request.target.keys.get rested.device.memory position) ∧
                request.target.values.get rested.device.memory position =
                  request.source.values.get memory (origin position) ∧
                ∀ start, request.source.values = .counting start →
                  request.target.values.get rested.device.memory position =
                    start + BitVec.ofNat (8 * valueType.size) (origin position) := by
  refine ⟨sortedFrom (answersOf test keys) keys.length lanes,
    fun position inside => sortedFrom_lt fits inside, ?_⟩
  rintro valueType request storage memory admits total rfl rfl environment watched host calm
    healthy
  rw [List.length_map, List.length_range]
  obtain ⟨final, gathers, runs⟩ := admits.exists_final (answers_ofTest total)
  obtain ⟨after, succeeds, settles, attempted⟩ := runs environment watched host calm healthy
  obtain ⟨rested, waited, -, same, -⟩ := settles.synchronize environment
  refine ⟨after, rested, succeeds, attempted, waited, fun position inside => ?_⟩
  have moved := gathers position inside
  have keyMoved := congrArg Prod.fst moved
  have valueMoved := congrArg Prod.snd moved
  rw [same]
  refine ⟨?_, valueMoved, ?_⟩
  · rw [getElem?_keys (sortedFrom_lt admits.fits inside), ← moved]
    rfl
  · intro start counting
    rw [show request.target.values.get final position = _ from valueMoved, Source.get, counting]
    rfl

theorem exists_gather_small :
    ∃ (origin : Nat → Nat) (after rested : Host),
      (SmallCall.request.execute .prompt false SmallCall.storage).outcome SmallCall.host =
        (.ok (), after) ∧
      (HostM.synchronize .prompt).outcome after = (.ok (), rested) ∧
      ∀ position, position < 3 → origin position < 3 ∧
        ([3, 1, 2] : List (Element .byte))[origin position]? =
          some (SmallCall.request.target.keys.get rested.device.memory position) ∧
        SmallCall.request.target.values.get rested.device.memory position =
          (0 : Element SmallCall.indexType) +
            BitVec.ofNat (8 * SmallCall.indexType.size) (origin position) := by
  obtain ⟨origin, below, gathers⟩ := exists_gather Element.less ([3, 1, 2] : List (Element .byte))
    (⟨by decide, by decide, by decide⟩ : Grid.Fits 3 2)
  obtain ⟨after, rested, succeeds, -, waited, gathered⟩ := gathers SmallCall.indexType
    SmallCall.request SmallCall.storage SmallCall.memory SmallCall.admits rfl rfl rfl .prompt false
    SmallCall.host Environment.calm_prompt SmallCall.settles
  refine ⟨origin, after, rested, succeeds, waited, fun position inside => ?_⟩
  obtain ⟨key, -, value⟩ := gathered position inside
  exact ⟨below position inside, key, value 0 rfl⟩

end SortRequest

end GridSort
