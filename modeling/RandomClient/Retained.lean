import RandomClient.Erasure
import RandomClient.Run

/-!
# Retained calls are inert

Two engines that differ in the calls their slots retain from older chains, and
in counters and monitoring, and that see the same cycles but for the results of
retained calls, stay that way for ever (`run_alike`): the current parts of their
slots and the effects of their current calls are the same.
-/

namespace RandomClient

variable {cfg : Config}

/-! ## Engines and inputs -/

/-- The engines differ in retained calls, counters and monitoring only: every
slot has the same state, restart tick, chain fields and current calls. -/
structure Engine.Alike (e e' : Engine) : Prop where
  slots : ∀ i, (e'.slots i).current = (e.slots i).current
  phase : e'.epochPhase = e.epochPhase
  query : e'.statusQuery = e.statusQuery
  nextQuery : e'.nextStatusQueryAt = e.nextStatusQueryAt

theorem Engine.Alike.refl (e : Engine) : e.Alike e := ⟨fun _ => rfl, rfl, rfl, rfl⟩

/-- The inputs are the same but for the results of calls that the slots of the
engine retain, and for the result of the tick check. -/
def SameButRetained (e : Engine) : EngineInput → EngineInput → Prop
  | .cycle input, .cycle input' =>
    input' = { input with
      broadcastResults := input'.broadcastResults
      tickCheckResult := input'.tickCheckResult } ∧
    ∀ i target, isCurrent (e.slots i).first target = true →
      input'.broadcastResults i target = input.broadcastResults i target
  | .shutdown env, .shutdown env' => env' = env
  | _, _ => False

/-- Two runs with the same inputs but for the results of retained calls, at every
step those of the engine the first run has reached. -/
inductive SameRun (cfg : Config) : Engine → List EngineInput → List EngineInput → Prop where
  | nil (e : Engine) : SameRun cfg e [] []
  | cons {e : Engine} {input input' : EngineInput} {inputs inputs' : List EngineInput}
      (hinput : SameButRetained e input input')
      (hrest : SameRun cfg (engineStep cfg input e).engine inputs inputs') :
      SameRun cfg e (input :: inputs) (input' :: inputs')

/-- The slot as a machine that shows the effects of its current calls only. -/
def currentMachine (cfg : Config) : Machine ManagedSlot SlotOp Effect where
  step op slot := ((op.run cfg slot).slot, currentEffects slot.first (op.run cfg slot).effects)

/-- The effects of a run on a stream but for those of retained calls. -/
def currentTrace (cfg : Config) (e : Engine) (inputs : List EngineInput) (i : Fin 3) :
    List Effect :=
  (currentMachine cfg).trace (e.slots i) (history cfg e inputs i)

theorem currentMachine_state (slot : ManagedSlot) (ops : List SlotOp) :
    (currentMachine cfg).state slot ops = (slotMachine cfg).state slot ops := by
  induction ops generalizing slot with
  | nil => rfl
  | cons op ops ih => exact ih _

/-! ## One operation -/

/-- The operations are the same but for the results of retained calls. -/
inductive SameOp (slot : ManagedSlot) : SlotOp → SlotOp → Prop where
  | refl (op : SlotOp) : SameOp slot op op
  | harvest {results results' : Nat → Option Delivery}
      (h : ∀ target, isCurrent slot.first target = true → results' target = results target) :
      SameOp slot (.harvestBroadcasts results) (.harvestBroadcasts results')

theorem ManagedSlot.first_current (slot : ManagedSlot) : slot.current.first = slot.first := by
  cases h : slot.chain with
  | none => rw [ManagedSlot.current_none h]
  | some chain => rw [ManagedSlot.first_some h, ManagedSlot.first_some (ManagedSlot.current_some h)]; rfl

theorem first_of_current {slot slot' : ManagedSlot} (h : slot'.current = slot.current) :
    slot'.first = slot.first := by
  rw [← ManagedSlot.first_current slot', h, ManagedSlot.first_current]

/-- Slots with the same current part have the same current results. -/
theorem SlotOp.run_alike {slot slot' : ManagedSlot} {op op' : SlotOp} (h : Erasable slot)
    (h' : Erasable slot') (hsame : slot'.current = slot.current) (hop : SameOp slot op op') :
    (op'.run cfg slot').current slot.first = (op.run cfg slot).current slot.first := by
  have hleft := @SlotOp.run_current cfg op' slot' h'
  have hright := @SlotOp.run_current cfg op slot h
  rw [hsame, first_of_current hsame] at hleft
  rw [hleft, hright]
  cases hop with
  | refl => rfl
  | harvest hresults =>
    show (RandomClient.harvestBroadcasts _ slot.current).current _ =
      (RandomClient.harvestBroadcasts _ slot.current).current _
    rw [harvestBroadcasts_results hresults]

/-! ## A cycle in progress -/

/-- The slots of some history of their streams. -/
def Reached (cfg : Config) (slots : Fin 3 → ManagedSlot) : Prop :=
  ∀ i, ∃ ops, slots i = (slotMachine cfg).state (slot₀ cfg i) ops

/-- Two cycles in progress on engines that are alike: so far they did the same,
but for the effects of retained calls. -/
structure Exec.Alike (cfg : Config) (before before' : Fin 3 → ManagedSlot) (x x' : Exec) : Prop where
  engine : x.engine.Alike x'.engine
  error : x'.error = x.error
  clean : x.Clean cfg before
  clean' : x'.Clean cfg before'
  effects : ∀ i, (currentMachine cfg).trace (before' i) (slotLog i x'.log) =
    (currentMachine cfg).trace (before i) (slotLog i x.log)

section Exec

variable {before before' : Fin 3 → ManagedSlot} {x x' : Exec}

theorem Exec.Clean.erasable (h : x.Clean cfg before) (hreached : Reached cfg before) (i : Fin 3) :
    Erasable (x.engine.slots i) := by
  rcases hreached i with ⟨ops, hops⟩
  rw [h.slots, hops, ← Machine.state_append]
  exact RandomClient.erasable i _

variable (hreached : Reached cfg before) (hreached' : Reached cfg before')
include hreached hreached'

theorem Exec.Alike.perform (h : x.Alike cfg before before' x') (i : Fin 3) {op op' : SlotOp}
    (hop : SameOp (x.engine.slots i) op op') :
    (x.perform cfg i op).Alike cfg before before' (x'.perform cfg i op') := by
  have hclean := h.clean.perform i op
  have hclean' := h.clean'.perform i op'
  have hslots := h.clean.slots i
  have hslots' := h.clean'.slots i
  have hrun := SlotResult.ext_iff.1 (@SlotOp.run_alike cfg _ _ _ _ (h.clean.erasable hreached i)
    (h.clean'.erasable hreached' i) (h.engine.slots i) hop)
  have hfirst := first_of_current (h.engine.slots i)
  unfold Exec.perform at hclean hclean' ⊢
  rw [h.error] at hclean' ⊢
  by_cases herror : x.error.isSome = true
  · rw [if_pos herror, if_pos herror]
    exact h
  · rw [if_neg herror] at hclean hclean' ⊢
    rw [if_neg herror]
    refine ⟨⟨?_, h.engine.phase, h.engine.query, h.engine.nextQuery⟩, hrun.2.2, hclean, hclean', ?_⟩
    · intro j
      by_cases hj : j = i
      · subst hj
        show (Function.update x'.engine.slots j _ j).current =
          (Function.update x.engine.slots j _ j).current
        rw [Function.update_self, Function.update_self]
        exact hrun.1
      · show (Function.update x'.engine.slots i _ j).current =
          (Function.update x.engine.slots i _ j).current
        rw [Function.update_of_ne hj, Function.update_of_ne hj]
        exact h.engine.slots j
    · intro j
      by_cases hj : i = j
      · subst hj
        show (currentMachine cfg).trace (before' i) (slotLog i (x'.log ++ [(i, op')])) =
          (currentMachine cfg).trace (before i) (slotLog i (x.log ++ [(i, op)]))
        rw [slotLog_append, slotLog_append, slotLog_self, slotLog_self, Machine.trace_snoc,
          Machine.trace_snoc, h.effects i, currentMachine_state, currentMachine_state, ← hslots,
          ← hslots']
        show _ ++ currentEffects (x'.engine.slots i).first _ = _ ++ currentEffects _ _
        rw [hfirst]
        exact congrArg _ hrun.2.1
      · show (currentMachine cfg).trace (before' j) (slotLog j (x'.log ++ [(i, op')])) =
          (currentMachine cfg).trace (before j) (slotLog j (x.log ++ [(i, op)]))
        rw [slotLog_append, slotLog_append, slotLog_other hj, slotLog_other hj, List.append_nil,
          List.append_nil]
        exact h.effects j

theorem Exec.Alike.performAll (h : x.Alike cfg before before' x') (i : Fin 3) (ops : List SlotOp) :
    (x.performAll cfg i ops).Alike cfg before before' (x'.performAll cfg i ops) := by
  induction ops generalizing x x' with
  | nil => exact h
  | cons op ops ih => exact ih (h.perform hreached hreached' i (.refl op))

theorem Exec.Alike.forSlots (h : x.Alike cfg before before' x') (ops : Fin 3 → List SlotOp) :
    (x.forSlots cfg ops).Alike cfg before before' (x'.forSlots cfg ops) :=
  ((h.performAll hreached hreached' 0 _).performAll hreached hreached' 1 _).performAll
    hreached hreached' 2 _

/-- The harvest loop, with other results for retained calls. -/
theorem Exec.Alike.harvest (h : x.Alike cfg before before' x')
    {results results' : Fin 3 → Nat → Option Delivery}
    (hresults : ∀ i target, isCurrent (x.engine.slots i).first target = true →
      results' i target = results i target) :
    (x.forSlots cfg fun i => [.harvestBroadcasts (results i)]).Alike cfg before before'
      (x'.forSlots cfg fun i => [.harvestBroadcasts (results' i)]) := by
  -- harvesting a slot leaves the slots of the streams after it
  have hother : ∀ (y : Exec) (i j : Fin 3) (op : SlotOp), j ≠ i →
      (y.perform cfg i op).engine.slots j = y.engine.slots j := by
    intro y i j op hj
    unfold Exec.perform
    split
    · rfl
    · exact Function.update_of_ne hj _ _
  have hfirst := h.perform hreached hreached' 0 (.harvest (hresults 0))
  have hsecond := hfirst.perform hreached hreached' 1 (@SameOp.harvest _ (results 1) (results' 1) (by
    rw [hother x 0 1 _ (by decide)]
    exact hresults 1))
  exact hsecond.perform hreached hreached' 2 (.harvest (by
    rw [hother _ 1 2 _ (by decide), hother x 0 2 _ (by decide)]
    exact hresults 2))

omit hreached hreached' in
theorem Exec.Alike.modify (h : x.Alike cfg before before' x') {f f' : Engine → Engine}
    (hf : x.engine.Alike x'.engine → (f x.engine).Alike (f' x'.engine))
    (hslots : ∀ e, (f e).slots = e.slots) (hslots' : ∀ e, (f' e).slots = e.slots) :
    (x.modify f).Alike cfg before before' (x'.modify f') := by
  have hclean := h.clean.modify hslots
  have hclean' := h.clean'.modify hslots'
  unfold Exec.modify at hclean hclean' ⊢
  rw [h.error] at hclean' ⊢
  by_cases herror : x.error.isSome = true
  · rw [if_pos herror, if_pos herror]
    exact h
  · rw [if_neg herror] at hclean hclean' ⊢
    rw [if_neg herror]
    exact ⟨hf h.engine, rfl, hclean, hclean', h.effects⟩

end Exec

/-! ## One step -/

section Step

variable {e e' : Engine} (hreached : Reached cfg e.slots) (hreached' : Reached cfg e'.slots)
include hreached hreached'

theorem updateEpochPhase_alike (h : e.Alike e') (tick : TickInfo) (input : CycleInput) :
    (updateEpochPhase cfg tick input (Exec.start e)).Alike cfg e.slots e'.slots
      (updateEpochPhase cfg tick input (Exec.start e')) := by
  have hstart : (Exec.start e).Alike cfg e.slots e'.slots (Exec.start e') :=
    ⟨h, rfl, .start e, .start e', fun _ => rfl⟩
  unfold updateEpochPhase
  rw [show (Exec.start e').engine.epochPhase = (Exec.start e).engine.epochPhase from h.phase]
  split
  · apply hstart.modify
    · intro hengine
      exact ⟨hengine.slots, congrArg (Option.map (advancePhase cfg tick input.now)) hengine.phase,
        hengine.query, hengine.nextQuery⟩
    · intro e
      rfl
    · intro e
      rfl
  · have hreset : ((Exec.start e).modify (resetEngine input.clock)).Alike cfg e.slots e'.slots
        ((Exec.start e').modify (resetEngine input.clock)) := by
      apply hstart.modify
      · intro hengine
        exact ⟨hengine.slots, hengine.phase, rfl, rfl⟩
      · intro e
        rfl
      · intro e
        rfl
    apply (hreset.forSlots hreached hreached' fun _ => [.reset]).modify
    · intro hengine
      exact ⟨hengine.slots, rfl, hengine.query, hengine.nextQuery⟩
    · intro e
      rfl
    · intro e
      rfl

omit hreached hreached' in
/-- The first target of a slot before the harvest of a cycle is that of the slot
before the cycle, or there is none. -/
theorem updateEpochPhase_first (e : Engine) (tick : TickInfo) (input : CycleInput) (i : Fin 3)
    (target : Nat)
    (h : isCurrent ((updateEpochPhase cfg tick input (Exec.start e)).engine.slots i).first target =
      true) : isCurrent (e.slots i).first target = true := by
  obtain ⟨hok, -, -, hperformed⟩ := updateEpochPhase_spec cfg tick input e
  rcases updateEpochPhase_continues cfg tick input (Exec.start e) with ⟨ops, hlog, hslots⟩
  have hops := hperformed.2 hok i
  rw [hlog] at hops
  have hslot : (updateEpochPhase cfg tick input (Exec.start e)).engine.slots i =
      (slotMachine cfg).state (e.slots i) (if epochChanges e tick then [.reset] else []) := by
    rw [hslots i]
    exact congrArg _ hops
  rw [hslot] at h
  split at h
  · cases h
  · exact h

theorem harvestAndApply_alike {x x' : Exec} (h : x.Alike cfg e.slots e'.slots x') (tick : TickInfo)
    (input : CycleInput) {results' : Fin 3 → Nat → Option Delivery}
    {checkResult : Option (Except String TickTransactions)}
    (hresults : ∀ i target, isCurrent (x.engine.slots i).first target = true →
      results' i target = input.broadcastResults i target) :
    (harvestAndApply cfg tick input x).Alike cfg e.slots e'.slots
      (harvestAndApply cfg tick
        { input with broadcastResults := results', tickCheckResult := checkResult } x') := by
  have hobservation : harvestedObservation x'.engine
      { input with broadcastResults := results', tickCheckResult := checkResult } =
        harvestedObservation x.engine input := by
    unfold harvestedObservation
    rw [h.engine.query]
  have hquery : (x.modify (harvestStatusQuery input)).Alike cfg e.slots e'.slots
      (x'.modify (harvestStatusQuery
        { input with broadcastResults := results', tickCheckResult := checkResult })) := by
    apply h.modify
    · intro hengine
      unfold harvestStatusQuery
      rw [hengine.query]
      split
      · exact ⟨hengine.slots, hengine.phase, rfl, hengine.nextQuery⟩
      · exact hengine
    · exact harvestStatusQuery_slots input
    · exact harvestStatusQuery_slots _
  have hkept : ∀ i, (x.modify (harvestStatusQuery input)).engine.slots i = x.engine.slots i := by
    intro i
    unfold Exec.modify
    split
    · rfl
    · exact congrFun (harvestStatusQuery_slots input _) i
  unfold harvestAndApply
  rw [hobservation]
  apply Exec.Alike.forSlots hreached hreached'
  apply hquery.harvest hreached hreached'
  intro i target hcurrent
  rw [hkept i] at hcurrent
  exact hresults i target hcurrent

omit hreached hreached' in
theorem finishCycle_alike (h : e.Alike e') (tick : TickInfo) (input : CycleInput)
    {results' : Fin 3 → Nat → Option Delivery}
    {checkResult : Option (Except String TickTransactions)} (plan : Plan) :
    (finishCycle cfg tick input plan e).Alike (finishCycle cfg tick
      { input with broadcastResults := results', tickCheckResult := checkResult } plan e') := by
  have hensured : (ensureStatusQuery tick input.clock e).Alike
      (ensureStatusQuery tick input.clock e') := by
    unfold ensureStatusQuery
    rw [h.query, h.nextQuery]
    split
    · exact h
    · exact ⟨h.slots, h.phase, rfl, rfl⟩
  exact ⟨hensured.slots, hensured.phase, hensured.query, hensured.nextQuery⟩

theorem cycleAt_alike (h : e.Alike e') (tick : TickInfo) (input : CycleInput)
    {results' : Fin 3 → Nat → Option Delivery}
    {checkResult : Option (Except String TickTransactions)}
    (hresults : ∀ i target, isCurrent (e.slots i).first target = true →
      results' i target = input.broadcastResults i target) :
    (cycleAt cfg tick input e).Alike cfg e.slots e'.slots (cycleAt cfg tick
      { input with broadcastResults := results', tickCheckResult := checkResult } e') := by
  have hphase := updateEpochPhase_alike hreached hreached' h tick input
  have hread := @harvestAndApply_alike cfg e e' hreached hreached' _ _ hphase tick input results'
    checkResult fun i target hcurrent =>
      hresults i target (updateEpochPhase_first e tick input i target hcurrent)
  have hnow : updateEpochPhase cfg tick
      { input with broadcastResults := results', tickCheckResult := checkResult }
        (Exec.start e') = updateEpochPhase cfg tick input (Exec.start e') := rfl
  unfold cycleAt
  dsimp only
  rw [hnow]
  generalize harvestAndApply cfg tick input (updateEpochPhase cfg tick input (Exec.start e)) =
    x at *
  generalize harvestAndApply cfg tick
    { input with broadcastResults := results', tickCheckResult := checkResult }
      (updateEpochPhase cfg tick input (Exec.start e')) = x' at *
  rw [hread.engine.phase]
  have hplanned := hread.forSlots hreached hreached' fun stream => planOps
    (planOf x.engine.epochPhase tick.epoch input.cancelled) tick (input.env stream)
  apply (hplanned.forSlots hreached hreached' fun _ => deliveryOps tick).modify
  · intro hengine
    exact finishCycle_alike hengine tick input _
  · exact finishCycle_slots cfg tick input _
  · exact finishCycle_slots cfg tick _ _

theorem engineStep_alike (h : e.Alike e') {input input' : EngineInput}
    (hinput : SameButRetained e input input') :
    (engineStep cfg input e).Alike cfg e.slots e'.slots (engineStep cfg input' e') := by
  have hstart : (Exec.start e).Alike cfg e.slots e'.slots (Exec.start e') :=
    ⟨h, rfl, .start e, .start e', fun _ => rfl⟩
  match input, input', hinput with
  | .shutdown env, .shutdown _, rfl =>
    exact hstart.forSlots hreached hreached' fun stream => [.enterDrain (env stream) .shutdown]
  | .cycle input, .cycle input', ⟨hsame, hresults⟩ =>
    generalize input'.broadcastResults = results' at hsame hresults
    generalize input'.tickCheckResult = checkResult at hsame
    subst hsame
    cases htick : input.tick with
    | error err =>
      have hclean := @engineStep_clean cfg (.cycle input) e
      have hclean' := @engineStep_clean cfg (.cycle
        { input with broadcastResults := results', tickCheckResult := checkResult }) e'
      simp only [engineStep, cycle, htick] at hclean hclean' ⊢
      exact ⟨h, rfl, hclean, hclean', fun _ => rfl⟩
    | ok tick =>
      have hstep := @cycleAt_alike cfg e e' hreached hreached' h tick input results' checkResult
        hresults
      simp only [engineStep, cycle, htick]
      rw [← htick]
      exact hstep

end Step

/-! ## Whole runs -/

theorem reached_run (a b c : Nat) (inputs : List EngineInput) :
    Reached cfg ((engineMachine cfg).state (Engine.new cfg a b c) inputs).slots :=
  fun i => ⟨_, slots_of_log cfg (Engine.new cfg a b c) inputs i⟩

theorem Reached.step {e : Engine} (h : Reached cfg e.slots) (input : EngineInput) :
    Reached cfg (engineStep cfg input e).engine.slots := by
  intro i
  rcases h i with ⟨ops, hops⟩
  refine ⟨ops ++ slotLog i (engineStep cfg input e).log, ?_⟩
  rw [engineStep_slots, hops, Machine.state_append]

theorem currentTrace_cons (e : Engine) (input : EngineInput) (inputs : List EngineInput)
    (i : Fin 3) : currentTrace cfg e (input :: inputs) i =
      (currentMachine cfg).trace (e.slots i) (slotLog i (engineStep cfg input e).log) ++
        currentTrace cfg (engineStep cfg input e).engine inputs i := by
  have hhistory : history cfg e (input :: inputs) i =
      slotLog i (engineStep cfg input e).log ++
        history cfg (engineStep cfg input e).engine inputs i := by
    unfold history
    rw [← slotLog_append]
    rfl
  unfold currentTrace
  rw [hhistory, Machine.trace_append, currentMachine_state, ← engineStep_slots]

/-- Engines that are alike stay alike, with the same effects of current calls. -/
theorem run_alike {e e' : Engine} (hreached : Reached cfg e.slots)
    (hreached' : Reached cfg e'.slots) (h : e.Alike e') {inputs inputs' : List EngineInput}
    (hsame : SameRun cfg e inputs inputs') :
    ((engineMachine cfg).state e inputs).Alike ((engineMachine cfg).state e' inputs') ∧
      ∀ i, currentTrace cfg e' inputs' i = currentTrace cfg e inputs i := by
  induction hsame generalizing e' with
  | nil e => exact ⟨h, fun i => rfl⟩
  | cons hinput _ ih =>
    have hstep := engineStep_alike hreached hreached' h hinput
    rcases ih (hreached.step _) (hreached'.step _) hstep.engine with ⟨hend, heffects⟩
    refine ⟨hend, ?_⟩
    intro i
    rw [currentTrace_cons, currentTrace_cons, hstep.effects i, heffects i]

/-- Retained old calls are inert. Two engines that runs reach, that differ in the
calls retained from older chains and in counters and monitoring only, go on alike
on the same inputs, whatever the results of the retained calls are: every slot has
the same state, restart tick, chain fields and current calls, and every effect
that is not about a retained call is the same, the bytes handed over included. -/
theorem retained_calls_inert (cfg : Config) (a b c a' b' c' : Nat)
    (before before' inputs inputs' : List EngineInput) :
    let e := (engineMachine cfg).state (Engine.new cfg a b c) before
    let e' := (engineMachine cfg).state (Engine.new cfg a' b' c') before'
    e.Alike e' → SameRun cfg e inputs inputs' →
      ((engineMachine cfg).state e inputs).Alike ((engineMachine cfg).state e' inputs') ∧
        ∀ i, currentTrace cfg e' inputs' i = currentTrace cfg e inputs i := by
  intro e e' halike hsame
  exact run_alike (reached_run a b c before) (reached_run a' b' c' before') halike hsame

/-- The same input, with an error for the call of stream 1 with target 16. -/
def failSixteen : EngineInput → EngineInput
  | .cycle input => .cycle { input with
      broadcastResults := fun i target =>
        if i = 1 ∧ target = 16 then some .err else input.broadcastResults i target }
  | .shutdown env => .shutdown env

theorem sameButRetained_failSixteen {e : Engine} (h : isCurrent (e.slots 1).first 16 = false)
    (input : EngineInput) : SameButRetained e input (failSixteen input) := by
  cases input with
  | shutdown env => rfl
  | cycle input =>
    refine ⟨rfl, ?_⟩
    intro i target hcurrent
    show (if i = 1 ∧ target = 16 then some Delivery.err else input.broadcastResults i target) = _
    by_cases hretained : i = 1 ∧ target = 16
    · rw [hretained.1, hretained.2, h] at hcurrent
      cases hcurrent
    · rw [if_neg hretained]

/-- A frozen chain of stream 1 leaves the call 16 to a chain that starts at 19.
Whether that call is accepted or keeps failing makes no difference to the new chain. -/
theorem retained_calls_inert_restarted :
    let before := steadyRun [0, 1, 2, 3, 4, 5, 6, 7, 8, 9, 10, 11, 12]
    let e := (engineMachine sampleConfig).state (Engine.new sampleConfig 0 0 0)
      (before ++ steadyRun [13])
    let e' := (engineMachine sampleConfig).state (Engine.new sampleConfig 0 0 0)
      (before ++ (steadyRun [13]).map failSixteen)
    ((e'.slots 1).queue.map PlannedCall.state ≠ (e.slots 1).queue.map PlannedCall.state) ∧
      ((engineMachine sampleConfig).state e (steadyRun [14])).Alike
        ((engineMachine sampleConfig).state e' ((steadyRun [14]).map failSixteen)) ∧
      ∀ i, currentTrace sampleConfig e' ((steadyRun [14]).map failSixteen) i =
        currentTrace sampleConfig e (steadyRun [14]) i := by
  have hfirst : isCurrent (((engineMachine sampleConfig).state (Engine.new sampleConfig 0 0 0)
      (steadyRun [0, 1, 2, 3, 4, 5, 6, 7, 8, 9, 10, 11, 12])).slots 1).first 16 = false := by
    decide +kernel
  have hlater : isCurrent (((engineMachine sampleConfig).state (Engine.new sampleConfig 0 0 0)
      (steadyRun [0, 1, 2, 3, 4, 5, 6, 7, 8, 9, 10, 11, 12] ++ steadyRun [13])).slots 1).first 16 =
        false := by
    decide +kernel
  have halike := (run_alike (reached_run 0 0 0 (steadyRun [0, 1, 2, 3, 4, 5, 6, 7, 8, 9, 10, 11, 12]))
    (reached_run 0 0 0 _) (Engine.Alike.refl _)
      (SameRun.cons (sameButRetained_failSixteen hfirst (steadyRun [13])[0]) (.nil _))).1
  intro before e e'
  refine ⟨by decide +kernel, ?_⟩
  apply retained_calls_inert sampleConfig 0 0 0 0 0 0 (before ++ steadyRun [13])
    (before ++ (steadyRun [13]).map failSixteen)
  · rw [Machine.state_append, Machine.state_append]
    exact halike
  · exact .cons (sameButRetained_failSixteen hlater (steadyRun [14])[0]) (.nil _)

end RandomClient
