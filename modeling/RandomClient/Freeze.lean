import RandomClient.Sightings

/-!
# When a chain freezes

A status observation takes a planning slot to Restarting exactly when it is the
third of three sightings of its chain that count in a row. No other operation
does, and the acknowledgement watermark of a chain never decreases.
-/

namespace RandomClient

variable {cfg : Config}

/-! ## Only observations freeze -/

/-- `matches!(state, Restarting { .. })`. -/
def SlotState.isRestarting : SlotState → Bool
  | .restarting _ _ _ _ => true
  | _ => false

theorem SlotStep.restarting {slot slot' : ManagedSlot} {u : List Effect}
    (h : SlotStep cfg slot u slot') (hrestarting : slot'.state.isRestarting = true) :
    slot.state.isRestarting = true ∨ ∃ tail restarting, Effect.froze tail restarting ∈ u := by
  cases h with
  | note | harvest | expire | dispatch | prune | extend => exact .inl hrestarting
  | watch hstate _ hnext =>
    rcases hnext with rfl | rfl
    · exact .inl hrestarting
    · cases hrestarting
  | freeze => exact .inr ⟨_, _, List.mem_singleton_self _⟩
  | hold hstate => exact .inl (by rw [hstate]; rfl)
  | reset | start | close | exhaust | wait | lose | settle | rest | abandon => cases hrestarting

theorem SlotRun.restarting {slot slot' : ManagedSlot} {u : List Effect}
    (h : SlotRun cfg slot u slot') (hstart : slot.state.isRestarting = false)
    (hrestarting : slot'.state.isRestarting = true) :
    ∃ tail restarting, Effect.froze tail restarting ∈ u := by
  have hinv := h.invariant (t := []) (fun slot t => slot.state.isRestarting = true →
    ∃ tail restarting, Effect.froze tail restarting ∈ t) ?_ (by simp [hstart])
  · simpa using hinv hrestarting
  · intro s t u s' ih hstep hs'
    rcases hstep.restarting hs' with hs | ⟨tail, restarting, hmem⟩
    · obtain ⟨tail, restarting, hmem⟩ := ih hs
      exact ⟨tail, restarting, List.mem_append_left _ hmem⟩
    · exact ⟨tail, restarting, List.mem_append_right _ hmem⟩

/-- From a planning slot only an observation leads to Restarting. -/
theorem SlotOp.restarting {op : SlotOp} {slot : ManagedSlot} (hstream : slot.key.stream < streamCount)
    (hplanning : slot.state.isPlanning = true)
    (hrestarting : (op.run cfg slot).slot.state.isRestarting = true) :
    ∃ observation, op = .applyStatus observation := by
  have hstart : slot.state.isRestarting = false := by
    cases hstate : slot.state <;> simp_all [SlotState.isPlanning, SlotState.isRestarting]
  obtain ⟨tail, restarting, hmem⟩ := SlotRun.restarting (op.steps hstream) hstart hrestarting
  rcases SlotOp.emits hmem with hnote | hemits
  · cases hnote
  · cases hemits with
    | froze => exact ⟨_, rfl⟩

/-! ## The watermark -/

/-- The watermark of the later chain is not below that of the earlier one. -/
def WatermarkLe (chain chain' : Chain) : Prop :=
  ∀ confirmed, chain.confirmedThrough = some confirmed →
    ∃ confirmed', chain'.confirmedThrough = some confirmed' ∧ confirmed ≤ confirmed'

theorem WatermarkLe.of_eq {chain chain' : Chain}
    (h : chain'.confirmedThrough = chain.confirmedThrough) : WatermarkLe chain chain' :=
  fun confirmed hconfirmed => ⟨confirmed, h.trans hconfirmed, le_rfl⟩

theorem WatermarkLe.trans {a b c : Chain} (hab : WatermarkLe a b) (hbc : WatermarkLe b c) :
    WatermarkLe a c := by
  intro confirmed hconfirmed
  obtain ⟨confirmed', hconfirmed', hle⟩ := hab confirmed hconfirmed
  obtain ⟨confirmed'', hconfirmed'', hle'⟩ := hbc confirmed' hconfirmed'
  exact ⟨confirmed'', hconfirmed'', hle.trans hle'⟩

theorem Chain.acknowledge_watermark {confirmedTick requestedTick : Nat} {chain chain' : Chain}
    (h : chain.acknowledge confirmedTick requestedTick = .settled chain' ∨
      ∃ target, chain.acknowledge confirmedTick requestedTick = .missing chain' target) :
    WatermarkLe chain chain' := by
  unfold Chain.acknowledge at h
  split at h
  · rcases h with h | ⟨_, h⟩ <;> cases h
  · rename_i hbelow
    dsimp only at h
    split at h
    · rcases h with h | ⟨_, h⟩ <;> cases h
    · -- the chain whose due target is looked for has the watermark already
      have hdue : ∀ {chain₁ : Chain}, chain₁.acknowledgeDue confirmedTick requestedTick =
            .settled chain' ∨ (∃ target, chain₁.acknowledgeDue confirmedTick requestedTick =
              .missing chain' target) → chain'.confirmedThrough = chain₁.confirmedThrough := by
        intro chain₁ hdue
        unfold Chain.acknowledgeDue at hdue
        repeat' split at hdue
        all_goals
          rcases hdue with hdue | ⟨_, hdue⟩
          all_goals cases hdue
          all_goals rfl
      have hconfirmed := hdue h
      split at hconfirmed
      · intro confirmed hsome
        refine ⟨confirmedTick, hconfirmed, ?_⟩
        simpa [hsome] using hbelow
      · exact .of_eq hconfirmed

theorem beginStatusRestart_chain {after : Nat} {observed : Bool} {slot : ManagedSlot}
    {chain' : Chain} (h : (beginStatusRestart after observed slot).slot.chain = some chain') :
    slot.chain = some chain' := by
  unfold beginStatusRestart at h
  split at h
  · exact h
  · split at h
    · cases h
    · exact h

theorem observeStatusEvidence_watermark {evidence : StatusEvidence} {requestedTick : Nat}
    {slot : ManagedSlot} {chain chain' : Chain} (hchain : slot.chain = some chain)
    (h : (observeStatusEvidence evidence requestedTick slot).slot.chain = some chain') :
    WatermarkLe chain chain' := by
  simp only [observeStatusEvidence, hchain] at h
  split at h
  · obtain rfl := Option.some.inj (hchain.symm.trans h)
    exact .of_eq rfl
  · split at h
    · cases beginStatusRestart_chain h
      exact .of_eq rfl
    · cases h
      exact .of_eq rfl

theorem applyConfirmationWatermark_watermark {confirmedTick requestedTick : Nat}
    {slot : ManagedSlot} {chain chain' : Chain} (hchain : slot.chain = some chain)
    (h : (applyConfirmationWatermark confirmedTick requestedTick slot).slot.chain = some chain') :
    WatermarkLe chain chain' := by
  simp only [applyConfirmationWatermark, hchain] at h
  cases hack : chain.acknowledge confirmedTick requestedTick with
  | ignored =>
    rw [hack] at h
    obtain rfl := Option.some.inj (hchain.symm.trans h)
    exact .of_eq rfl
  | settled chain₁ =>
    rw [hack] at h
    cases h
    exact Chain.acknowledge_watermark (.inl hack)
  | missing chain₁ target =>
    rw [hack] at h
    exact (Chain.acknowledge_watermark (.inr ⟨target, hack⟩)).trans
      (observeStatusEvidence_watermark rfl h)

/-- No observation lowers the watermark. -/
theorem applyStatus_watermark {observation : StatusObservation} {slot : ManagedSlot}
    {chain chain' : Chain} (hchain : slot.chain = some chain)
    (h : (applyStatus observation slot).slot.chain = some chain') : WatermarkLe chain chain' := by
  have hsame : slot.chain = some chain' → WatermarkLe chain chain' := by
    intro h
    obtain rfl := Option.some.inj (hchain.symm.trans h)
    exact .of_eq rfl
  unfold applyStatus at h
  dsimp only at h
  repeat' split at h
  all_goals
    first
    | exact hsame h
    | exact observeStatusEvidence_watermark hchain h
    | exact applyConfirmationWatermark_watermark hchain h
    | exact @applyConfirmationWatermark_watermark _ _ { slot with state := .active } _ _ hchain h

/-- A report a starting slot ignores changes nothing. -/
theorem applyStatus_early {observation : StatusObservation} {slot : ManagedSlot} {chain : Chain}
    {first : Nat} (hchain : slot.chain = some chain) (hstate : slot.state = .starting first)
    (hearly : observation.requestedTick ≤ first)
    (howns : (observation.observedTarget slot.key).any chain.ownsTarget = false) :
    (sightingOf slot.key slot.state chain observation).reading = .silent ∧
      (applyStatus observation slot).slot = slot := by
  have htoo : slot.state.tooEarly observation.requestedTick = true := by
    simpa [hstate, SlotState.tooEarly] using hearly
  cases hobserved : observation.observedTarget slot.key with
  | none =>
    refine ⟨by simp [Sighting.reading, sightingOf, readingOf, hobserved, htoo], ?_⟩
    simp [applyStatus, hstate, hobserved, Nat.not_lt.2 hearly]
  | some target =>
    rw [hobserved] at howns
    have hnot : chain.ownsTarget target = false := howns
    refine ⟨by simp [Sighting.reading, sightingOf, readingOf, hobserved, htoo, hnot], ?_⟩
    simp [applyStatus, hstate, hobserved, Nat.not_lt.2 hearly, chainOwnsTarget, hchain, hnot]

/-! ## The freeze -/

/-- Whatever operations a slot has performed, from a planning slot only a status
observation leads to Restarting, exactly one that is the third of three sightings of the chain that count in a row; it
keeps the tail as the frozen one, or drains the slot when no restart tick is
left. A starting slot ignores absent and unowned reports requested up to its
first target. The watermark of the chain never decreases. -/
theorem freeze_iff_third_of_three (i : Fin 3) (ops : List SlotOp) (op : SlotOp)
    (hplanning : ((slotMachine cfg).state (slot₀ cfg i) ops).state.isPlanning = true) :
    let slot := (slotMachine cfg).state (slot₀ cfg i) ops
    let slot' := (op.run cfg slot).slot
    ∃ chain, slot.chain = some chain ∧
      (∀ target, chain.ownsTarget target = true ↔
        ∃ signed ∈ currentChain ((slotMachine cfg).trace (slot₀ cfg i) ops),
          signed.targetTick = target) ∧
      (∀ observation, op = .applyStatus observation →
        let x := sightingOf slot.key slot.state chain observation
        (slot'.state.isPlanning = false ↔ ThirdOfThree chain (sightings cfg i ops) x) ∧
        (slot'.state.isPlanning = false → Froze chain.lastTarget slot'.state) ∧
        ∀ first, slot.state = .starting first → observation.requestedTick ≤ first →
          (observation.observedTarget slot.key).any chain.ownsTarget = false →
            x.reading = .silent ∧ slot' = slot) ∧
      (slot'.state.isRestarting = true → ∃ observation, op = .applyStatus observation) ∧
      ∀ chain', slot'.chain = some chain' →
        slot'.state.isPlanning = true ∨ (∃ observation, op = .applyStatus observation) →
          WatermarkLe chain chain' := by
  intro slot slot'
  obtain ⟨chain, hchain, -⟩ := slotMachine_chain i ops hplanning
  have hwatch : ChainWatch chain (sightings cfg i ops) := watchInv i ops hplanning chain hchain
  refine ⟨chain, hchain, ownsTarget_iff_signed i ops hplanning hchain, ?_, ?_, ?_⟩
  · rintro observation rfl x
    have hx : SeenBy chain x := ⟨rfl, le_rfl⟩
    have hstep : (watchRules.series (sightings cfg i ops ++ [x])).length = 3 ↔
        ThirdOfThree chain (sightings cfg i ops) x := by
      rw [thirdOfThree_iff hwatch.seen hx]
      exact Confirmation.Rules.thirdInRow_iff hwatch.short x
    rw [Confirmation.Rules.series_snoc] at hstep
    have happlied := applyStatus_watched hplanning hchain (slotMachine_regular i ops hchain)
      hwatch.suspicion hwatch.short observation
    have hactive := stateAfter_planning hplanning chain x.observed
    refine ⟨?_, ?_, ?_⟩
    · rw [← hstep]
      rcases happlied with ⟨hthree, hfroze⟩ | ⟨hshort, suspicion, -, heq⟩
      · exact ⟨fun _ => hthree, fun _ => hfroze.not_planning⟩
      · constructor
        · intro hfrozen
          change (applyStatus observation slot).slot.state.isPlanning = false at hfrozen
          rw [heq] at hfrozen
          change (stateAfter slot.state chain x.observed).isPlanning = false at hfrozen
          rw [hactive] at hfrozen
          cases hfrozen
        · intro hthree
          exact absurd hthree hshort.ne
    · intro hfrozen
      rcases happlied with ⟨-, hfroze⟩ | ⟨-, suspicion, -, heq⟩
      · exact hfroze
      · change (applyStatus observation slot).slot.state.isPlanning = false at hfrozen
        rw [heq] at hfrozen
        change (stateAfter slot.state chain x.observed).isPlanning = false at hfrozen
        rw [hactive] at hfrozen
        cases hfrozen
    · intro first hstate hearly howns
      exact applyStatus_early hchain hstate hearly howns
  · intro hrestarting
    refine SlotOp.restarting ?_ hplanning hrestarting
    rw [slotMachine_key]
    exact i.isLt
  · intro chain' hchain' hkind
    by_cases hstatus : ∃ observation, op = .applyStatus observation
    · obtain ⟨observation, rfl⟩ := hstatus
      exact applyStatus_watermark hchain hchain'
    · have hplanning' := hkind.resolve_right hstatus
      push Not at hstatus
      rcases op.keeps hstatus slot hplanning' chain' hchain' with
        ⟨-, chain₁, hchain₁, hkeeps⟩ | ⟨hnot, -⟩
      · obtain rfl := Option.some.inj (hchain.symm.trans hchain₁)
        exact .of_eq hkeeps.confirmed
      · rw [show slot.state.isPlanning = true from hplanning] at hnot
        cases hnot

/-- In a run with no report of stream 1 the absence requested at tick 10 is the
third that counts, and freezes the chain with its tail at 16. -/
theorem freeze_at_third_absence :
    let ops := (history sampleConfig sampleEngine
      (steadyRun [0, 1, 2, 3, 4, 5, 6, 7, 8, 9, 10, 11]) 1).take 100
    let slot := (slotMachine sampleConfig).state (slot₀ sampleConfig 1) ops
    ∃ observation chain, slot.chain = some chain ∧ chain.lastTarget = 16 ∧
      ((SlotOp.applyStatus observation).run sampleConfig slot).slot.state =
        .restarting 16 10 true none ∧
      ThirdOfThree chain (sightings sampleConfig 1 ops)
        (sightingOf slot.key slot.state chain observation) := by
  intro ops slot
  obtain ⟨op, hop, hstate⟩ : ∃ op ∈ (history sampleConfig sampleEngine
      (steadyRun [0, 1, 2, 3, 4, 5, 6, 7, 8, 9, 10, 11]) 1)[100]?,
        (op.run sampleConfig slot).slot.state = .restarting 16 10 true none := by
    decide +kernel
  have hplanning : slot.state.isPlanning = true := by decide +kernel
  obtain ⟨chain, hchain, -, hobserve, honly, -⟩ := @freeze_iff_third_of_three sampleConfig 1
    ops op hplanning
  obtain ⟨observation, rfl⟩ := honly (by rw [hstate]; rfl)
  obtain ⟨hiff, hfroze, -⟩ := hobserve observation rfl
  have htail : slot.chain.map Chain.lastTarget = some 16 := by decide +kernel
  rw [hchain] at htail
  have hthird := hiff.1 (by rw [hstate]; rfl)
  exact ⟨observation, chain, hchain, Option.some.inj htail, hstate, hthird⟩

end RandomClient
