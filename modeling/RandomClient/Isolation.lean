import RandomClient.Counters

/-!
# Epoch isolation

Two engines that enter the same epoch together agree from then on, whatever
each of them did before: slots, phase, status query and monitoring fields are
equal but for the counters (`Engine.Agrees`), which no decision reads. The
first cycle forgets everything through the reset; after that both perform the
same operations.
-/

namespace RandomClient

variable {cfg : Config}

/-! ## Monitoring fields that agree -/

/-- The monitoring fields are equal but for the counters. -/
def Monitor.Agrees (m m' : Monitor) : Prop :=
  ∃ stats, m' = { m with sendStats := stats }

theorem Monitor.Agrees.recordSendOutcome {m m' : Monitor} (h : m.Agrees m') (target : Nat)
    (next : SendOutcome) :
    (m.recordSendOutcome target next).Agrees (m'.recordSendOutcome target next) := by
  rcases h with ⟨stats, rfl⟩
  unfold Monitor.recordSendOutcome
  dsimp only
  split
  · exact ⟨_, rfl⟩
  · exact ⟨_, rfl⟩

theorem Monitor.Agrees.queueTickCheck {m m' : Monitor} (h : m.Agrees m') (target : Nat) :
    (m.queueTickCheck target).Agrees (m'.queueTickCheck target) := by
  rcases h with ⟨stats, rfl⟩
  unfold Monitor.queueTickCheck
  dsimp only
  split
  · exact ⟨_, rfl⟩
  · exact ⟨_, rfl⟩

theorem Monitor.Agrees.expireTickChecks {m m' : Monitor} (h : m.Agrees m')
    (currentTick now : Nat) :
    (m.expireTickChecks cfg currentTick now).Agrees (m'.expireTickChecks cfg currentTick now) := by
  rcases h with ⟨stats, rfl⟩
  exact ⟨_, rfl⟩

theorem Monitor.Agrees.harvestTickCheck {m m' : Monitor} (h : m.Agrees m')
    (result : Option (Except String TickTransactions)) (now : Nat) :
    (m.harvestTickCheck result now).Agrees (m'.harvestTickCheck result now) := by
  rcases h with ⟨stats, rfl⟩
  unfold Monitor.harvestTickCheck
  dsimp only
  split
  · split
    · exact ⟨_, rfl⟩
    · apply Monitor.Agrees.recordSendOutcome
      exact ⟨_, rfl⟩
  · exact ⟨_, rfl⟩
  · exact ⟨_, rfl⟩

theorem Monitor.Agrees.ensureTickCheck {m m' : Monitor} (h : m.Agrees m')
    (currentTick expireAt now : Nat) :
    (m.ensureTickCheck cfg currentTick expireAt now).Agrees
      (m'.ensureTickCheck cfg currentTick expireAt now) := by
  have hexpired := @Monitor.Agrees.expireTickChecks cfg _ _ h currentTick expireAt
  unfold Monitor.ensureTickCheck
  rcases hexpired with ⟨stats, hstats⟩
  rw [hstats]
  dsimp only
  split
  · exact ⟨_, rfl⟩
  · split
    · exact ⟨_, rfl⟩
    · exact ⟨_, rfl⟩

theorem Monitor.Agrees.applyEffect {m m' : Monitor} (h : m.Agrees m') (e : Effect) :
    (m.applyEffect cfg e).Agrees (m'.applyEffect cfg e) := by
  cases e with
  | recordedOk target => exact (h.recordSendOutcome target .ok).queueTickCheck target
  | financialFailure target => exact (h.recordSendOutcome target .failed).queueTickCheck target
  | digest target txBytes =>
    rcases h with ⟨stats, rfl⟩
    simp only [Monitor.applyEffect]
    split
    · exact ⟨_, rfl⟩
    · exact ⟨_, rfl⟩
  | _ => exact h

theorem Monitor.Agrees.foldl {m m' : Monitor} (h : m.Agrees m') (effects : List Effect) :
    (effects.foldl (Monitor.applyEffect cfg) m).Agrees
      (effects.foldl (Monitor.applyEffect cfg) m') := by
  induction effects generalizing m m' with
  | nil => exact h
  | cons e effects ih => exact ih (h.applyEffect e)

/-! ## Engines that agree -/

/-- The engines are equal but for the counters. -/
structure Engine.Agrees (e e' : Engine) : Prop where
  slots : e'.slots = e.slots
  phase : e'.epochPhase = e.epochPhase
  query : e'.statusQuery = e.statusQuery
  nextQuery : e'.nextStatusQueryAt = e.nextStatusQueryAt
  monitor : e.monitor.Agrees e'.monitor

/-- Two cycles in progress agree, and since the given logs they performed the
same operations. -/
structure Exec.Agrees (log log' : List (Fin 3 × SlotOp)) (x x' : Exec) : Prop where
  engine : x.engine.Agrees x'.engine
  error : x'.error = x.error
  same : ∃ ops, x.log = log ++ ops ∧ x'.log = log' ++ ops

section Exec

variable {log log' : List (Fin 3 × SlotOp)} {x x' : Exec}

theorem Exec.Agrees.perform (h : x.Agrees log log' x') (i : Fin 3) (op : SlotOp) :
    (x.perform cfg i op).Agrees log log' (x'.perform cfg i op) := by
  unfold Exec.perform
  rw [h.error]
  by_cases herror : x.error.isSome = true
  · rw [if_pos herror, if_pos herror]
    exact h
  · rw [if_neg herror, if_neg herror]
    rcases h.same with ⟨ops, hx, hx'⟩
    have hslots := h.engine.slots
    constructor
    · constructor
      · show Function.update x'.engine.slots i _ = _
        rw [hslots]
      · exact h.engine.phase
      · exact h.engine.query
      · exact h.engine.nextQuery
      · show Monitor.Agrees _ (List.foldl _ x'.engine.monitor _)
        rw [hslots]
        exact h.engine.monitor.foldl _
    · show (op.run cfg (x'.engine.slots i)).error = _
      rw [hslots]
    · exact ⟨ops ++ [(i, op)], by rw [hx, List.append_assoc], by rw [hx', List.append_assoc]⟩

theorem Exec.Agrees.performAll (h : x.Agrees log log' x') (i : Fin 3) (ops : List SlotOp) :
    (x.performAll cfg i ops).Agrees log log' (x'.performAll cfg i ops) := by
  induction ops generalizing x x' with
  | nil => exact h
  | cons op ops ih => exact ih (h.perform i op)

theorem Exec.Agrees.forSlots (h : x.Agrees log log' x') (ops : Fin 3 → List SlotOp) :
    (x.forSlots cfg ops).Agrees log log' (x'.forSlots cfg ops) :=
  ((h.performAll 0 _).performAll 1 _).performAll 2 _

theorem Exec.Agrees.modify (h : x.Agrees log log' x') {f f' : Engine → Engine}
    (hf : x.engine.Agrees x'.engine → (f x.engine).Agrees (f' x'.engine)) :
    (x.modify f).Agrees log log' (x'.modify f') := by
  unfold Exec.modify
  rw [h.error]
  by_cases herror : x.error.isSome = true
  · rw [if_pos herror, if_pos herror]
    exact h
  · rw [if_neg herror, if_neg herror]
    exact ⟨hf h.engine, rfl, h.same⟩

end Exec

/-! ## One cycle of both engines -/

/-- The cycles bring the same report, time, preimages, signatures, shutdown
status and clock. The results of tasks may differ. -/
structure SameCycle (input input' : CycleInput) : Prop where
  tick : input'.tick = input.tick
  now : input'.now = input.now
  cancelled : input'.cancelled = input.cancelled
  env : input'.env = input.env
  clock : input'.clock = input.clock

theorem SameCycle.refl (input : CycleInput) : SameCycle input input := ⟨rfl, rfl, rfl, rfl, rfl⟩

theorem ensureStatusQuery_agrees {e e' : Engine} (h : e.Agrees e') (tick : TickInfo)
    (clock : Clock) : (ensureStatusQuery tick clock e).Agrees (ensureStatusQuery tick clock e') := by
  unfold ensureStatusQuery
  rw [h.query, h.nextQuery]
  split
  · exact h
  · exact ⟨h.slots, h.phase, rfl, rfl, h.monitor⟩

theorem harvestTickCheck_idle {m : Monitor} (h : m.tickCheck = none)
    (result : Option (Except String TickTransactions)) (now : Nat) :
    m.harvestTickCheck result now = m := by
  unfold Monitor.harvestTickCheck
  rw [h]

theorem ensureStatusQuery_monitor (tick : TickInfo) (clock : Clock) (e : Engine) :
    (ensureStatusQuery tick clock e).monitor = e.monitor := by
  unfold ensureStatusQuery
  split <;> rfl

/-- The end of a cycle; the result of a tick check counts only if there is a check. -/
theorem finishCycle_agrees {e e' : Engine} (h : e.Agrees e') (tick : TickInfo)
    {input input' : CycleInput} (hsame : SameCycle input input') (plan : Plan)
    (hcheck : input'.tickCheckResult = input.tickCheckResult ∨ e.monitor.tickCheck = none) :
    (finishCycle cfg tick input plan e).Agrees (finishCycle cfg tick input' plan e') := by
  have hquery := ensureStatusQuery_agrees h tick input.clock
  have hexpired := @Monitor.Agrees.expireTickChecks cfg _ _ hquery.monitor tick.tick
    input.clock.expireAt
  have hharvested : Monitor.Agrees
      (((ensureStatusQuery tick input.clock e).monitor.expireTickChecks cfg tick.tick
        input.clock.expireAt).harvestTickCheck input.tickCheckResult input.clock.harvestAt)
      (((ensureStatusQuery tick input.clock e').monitor.expireTickChecks cfg tick.tick
        input.clock.expireAt).harvestTickCheck input'.tickCheckResult input.clock.harvestAt) := by
    rcases hcheck with hresult | hnone
    · rw [hresult]
      exact hexpired.harvestTickCheck _ _
    · -- no check is active in either engine
      have hidle : ((ensureStatusQuery tick input.clock e).monitor.expireTickChecks cfg tick.tick
          input.clock.expireAt).tickCheck = none := by
        show Option.filter _ (ensureStatusQuery tick input.clock e).monitor.tickCheck = none
        rw [ensureStatusQuery_monitor, hnone]
        rfl
      have hidle' : ((ensureStatusQuery tick input.clock e').monitor.expireTickChecks cfg tick.tick
          input.clock.expireAt).tickCheck = none := by
        rcases hexpired with ⟨stats, hstats⟩
        rw [hstats]
        exact hidle
      rw [harvestTickCheck_idle hidle, harvestTickCheck_idle hidle']
      exact hexpired
  unfold finishCycle
  rw [hsame.clock]
  refine ⟨hquery.slots, hquery.phase, hquery.query, hquery.nextQuery, ?_⟩
  cases plan with
  | drain reason => exact hharvested
  | normal => exact hharvested.ensureTickCheck _ _ _
  | none => exact hharvested.ensureTickCheck _ _ _

/-- The part of a cycle from its planning on. -/
def planAndDeliver (cfg : Config) (tick : TickInfo) (input : CycleInput) (x : Exec) : Exec :=
  let plan := planOf x.engine.epochPhase tick.epoch input.cancelled
  ((x.forSlots cfg fun stream => planOps plan tick (input.env stream)).forSlots cfg
    fun _ => deliveryOps tick).modify (finishCycle cfg tick input plan)

theorem cycleAt_eq (tick : TickInfo) (input : CycleInput) (e : Engine) :
    cycleAt cfg tick input e = planAndDeliver cfg tick input
      (harvestAndApply cfg tick input (updateEpochPhase cfg tick input (Exec.start e))) := rfl

theorem applyEffect_tickCheck (m : Monitor) (e : Effect) :
    (m.applyEffect cfg e).tickCheck = m.tickCheck := by
  have hrecord : ∀ (m : Monitor) target next,
      (m.recordSendOutcome target next).tickCheck = m.tickCheck := by
    intro m target next
    unfold Monitor.recordSendOutcome
    dsimp only
    split <;> rfl
  have hqueue : ∀ (m : Monitor) target, (m.queueTickCheck target).tickCheck = m.tickCheck := by
    intro m target
    unfold Monitor.queueTickCheck
    split <;> rfl
  cases e with
  | recordedOk target => exact (hqueue _ target).trans (hrecord m target .ok)
  | financialFailure target => exact (hqueue _ target).trans (hrecord m target .failed)
  | digest target txBytes =>
    simp only [Monitor.applyEffect]
    split <;> rfl
  | _ => rfl

/-- Slots never touch the active check. -/
theorem Exec.forSlots_tickCheck (ops : Fin 3 → List SlotOp) (x : Exec) :
    (x.forSlots cfg ops).engine.monitor.tickCheck = x.engine.monitor.tickCheck := by
  have hfold : ∀ (effects : List Effect) (m : Monitor),
      (effects.foldl (Monitor.applyEffect cfg) m).tickCheck = m.tickCheck := by
    intro effects
    induction effects with
    | nil => exact fun _ => rfl
    | cons e effects ih => exact fun m => (ih _).trans (applyEffect_tickCheck m e)
  have hall : ∀ i (ops : List SlotOp) (x : Exec),
      (x.performAll cfg i ops).engine.monitor.tickCheck = x.engine.monitor.tickCheck := by
    intro i ops
    induction ops with
    | nil => exact fun _ => rfl
    | cons op ops ih =>
      intro x
      apply (ih (x.perform cfg i op)).trans
      unfold Exec.perform
      split
      · rfl
      · exact hfold _ _
  exact ((hall 2 _ _).trans (hall 1 _ _)).trans (hall 0 _ x)

theorem planAndDeliver_agrees {log log' : List (Fin 3 × SlotOp)} {x x' : Exec}
    (h : x.Agrees log log' x') (tick : TickInfo) {input input' : CycleInput}
    (hsame : SameCycle input input')
    (hcheck : input'.tickCheckResult = input.tickCheckResult ∨
      x.engine.monitor.tickCheck = none) :
    (planAndDeliver cfg tick input x).Agrees log log' (planAndDeliver cfg tick input' x') := by
  unfold planAndDeliver
  rw [h.engine.phase, hsame.cancelled, hsame.env]
  dsimp only
  apply Exec.Agrees.modify
  · exact (h.forSlots _).forSlots _
  · intro hengine
    apply finishCycle_agrees hengine tick hsame
    rw [Exec.forSlots_tickCheck, Exec.forSlots_tickCheck]
    exact hcheck

/-! ### The first cycle of an epoch -/

/-- The operations of the first cycle of an epoch up to its planning. -/
def openingLog (input : CycleInput) : List (Fin 3 × SlotOp) :=
  [(0, .reset), (1, .reset), (2, .reset), (0, .harvestBroadcasts (input.broadcastResults 0)),
    (1, .harvestBroadcasts (input.broadcastResults 1)),
    (2, .harvestBroadcasts (input.broadcastResults 2))]

/-- The engine at the planning of the first cycle of an epoch. -/
def openingEngine (cfg : Config) (tick : TickInfo) (input : CycleInput) (e : Engine) : Engine where
  slots i := (resetSlot (e.slots i)).slot
  statusQuery := none
  nextStatusQueryAt := input.clock.resetStatusAt
  epochPhase := some (advancePhase cfg tick input.now
    (.warmup tick.epoch (saturatingAdd tick.initialTick cfg.epochResumeDelayTicks)))
  monitor := e.monitor.reset input.clock.resetTickCheckAt input.clock.resetMonitorAt

theorem resetSlot_monitor (m : Monitor) (slot : ManagedSlot) :
    (resetSlot slot).effects.foldl (Monitor.applyEffect cfg) m = m := by
  have hidle : ∀ effects : List Effect, (∀ e ∈ effects, ∃ target task, e = .aborted target task) →
      effects.foldl (Monitor.applyEffect cfg) m = m := by
    intro effects
    induction effects with
    | nil => exact fun _ => rfl
    | cons e effects ih =>
      intro h
      rcases h e List.mem_cons_self with ⟨target, task, rfl⟩
      exact ih fun e he => h e (List.mem_cons_of_mem _ he)
  have hchain : (abortChain slot.chain).foldl (Monitor.applyEffect cfg) m = m := by
    apply hidle
    intro e he
    unfold abortChain at he
    split at he
    · rcases List.mem_filterMap.1 he with ⟨call, -, hcall⟩
      rcases Option.map_eq_some_iff.1 hcall with ⟨task, -, rfl⟩
      exact ⟨_, _, rfl⟩
    · cases he
  unfold resetSlot
  rw [List.foldl_append, hchain]
  rfl

theorem resetSlots_spec (e : Engine) (log : List (Fin 3 × SlotOp)) :
    Exec.forSlots cfg (fun _ => [.reset]) { engine := e, log := log, error := none } =
      { engine := { e with slots := fun i => (resetSlot (e.slots i)).slot }
        log := log ++ [(0, .reset), (1, .reset), (2, .reset)]
        error := none } := by
  have hreset : ∀ (i : Fin 3) (e : Engine) (log : List (Fin 3 × SlotOp)),
      Exec.perform cfg i .reset { engine := e, log := log, error := none } =
        { engine := { e with slots := Function.update e.slots i (resetSlot (e.slots i)).slot }
          log := log ++ [(i, .reset)]
          error := none } := by
    intro i e log
    simp only [Exec.perform, Option.isSome_none, Bool.false_eq_true, if_false, SlotOp.run,
      resetSlot_monitor]
    rfl
  simp only [Exec.forSlots, Exec.performAll, List.foldl_cons, List.foldl_nil, hreset]
  congr 1
  · congr 1
    funext i
    rcases i with ⟨_ | _ | _ | n, hi⟩
    · rfl
    · rfl
    · rfl
    · omega
  · simp

/-- A slot without a chain has nothing to harvest. -/
theorem harvestSlots_spec {e : Engine} (hidle : ∀ i, (e.slots i).chain = none)
    (results : Fin 3 → Nat → Option Delivery) (log : List (Fin 3 × SlotOp)) :
    Exec.forSlots cfg (fun i => [.harvestBroadcasts (results i)])
        { engine := e, log := log, error := none } =
      { engine := e
        log := log ++ [(0, .harvestBroadcasts (results 0)), (1, .harvestBroadcasts (results 1)),
          (2, .harvestBroadcasts (results 2))]
        error := none } := by
  have hharvest : ∀ (i : Fin 3) (log : List (Fin 3 × SlotOp)),
      Exec.perform cfg i (.harvestBroadcasts (results i))
          { engine := e, log := log, error := none } =
        { engine := e, log := log ++ [(i, .harvestBroadcasts (results i))], error := none } := by
    intro i log
    have hrun : SlotOp.run cfg (.harvestBroadcasts (results i)) (e.slots i) =
        { slot := e.slots i } := by
      simp only [SlotOp.run, harvestBroadcasts, hidle i]
    simp only [Exec.perform, Option.isSome_none, Bool.false_eq_true, if_false, hrun,
      Function.update_eq_self, List.foldl_nil]
  simp only [Exec.forSlots, Exec.performAll, List.foldl_cons, List.foldl_nil, hharvest]
  simp

/-- The reset and the harvest after it leave nothing of the engine but its
counters, and the results of the tasks that were running do not matter. -/
theorem opening_spec {tick : TickInfo} {e : Engine} (hother : epochChanges e tick = true)
    (input : CycleInput) :
    harvestAndApply cfg tick input (updateEpochPhase cfg tick input (Exec.start e)) =
      { engine := openingEngine cfg tick input e, log := openingLog input, error := none } := by
  have hne : ¬ e.epochPhase.map EpochPhase.epoch = some tick.epoch := by
    simpa [epochChanges] using hother
  have hupdate : updateEpochPhase cfg tick input (Exec.start e) =
      { engine := openingEngine cfg tick input e
        log := [(0, .reset), (1, .reset), (2, .reset)]
        error := none } := by
    unfold updateEpochPhase
    rw [if_neg hne]
    have hstart : (Exec.start e).modify (resetEngine input.clock) =
        { engine := resetEngine input.clock e, log := [], error := none } := rfl
    dsimp only
    rw [hstart, resetSlots_spec]
    rfl
  have hidle : ∀ i, ((openingEngine cfg tick input e).slots i).chain = none := fun _ => rfl
  rw [hupdate]
  unfold harvestAndApply
  have hquery : Exec.modify (harvestStatusQuery input)
      { engine := openingEngine cfg tick input e
        log := [(0, .reset), (1, .reset), (2, .reset)]
        error := none } =
      { engine := openingEngine cfg tick input e
        log := [(0, .reset), (1, .reset), (2, .reset)]
        error := none } := rfl
  dsimp only
  rw [hquery, harvestSlots_spec hidle]
  rfl

/-- Two engines that enter an epoch with the same cycle agree after it, and have
performed the same operations since the reset. -/
theorem openingCycle_agrees {e e' : Engine} {input input' : CycleInput} {tick : TickInfo}
    (hkeys : ∀ i, (e'.slots i).key = (e.slots i).key) (htick : input.tick = .ok tick)
    (hsame : SameCycle input input') (hother : epochChanges e tick = true)
    (hother' : epochChanges e' tick = true) :
    (engineStep cfg (.cycle input) e).Agrees (openingLog input) (openingLog input')
      (engineStep cfg (.cycle input') e') := by
  have htick' : input'.tick = .ok tick := hsame.tick.trans htick
  simp only [engineStep, cycle, htick, htick']
  rw [cycleAt_eq, cycleAt_eq, opening_spec hother, opening_spec hother']
  apply planAndDeliver_agrees _ tick hsame (.inr rfl)
  constructor
  · refine ⟨?_, ?_, rfl, ?_, ⟨e'.monitor.sendStats, ?_⟩⟩
    · funext i
      simp only [openingEngine, resetSlot, hkeys i]
    · simp only [openingEngine, hsame.now]
    · simp only [openingEngine, hsame.clock]
    · simp only [openingEngine, hsame.clock]
      rfl
  · rfl
  · exact ⟨[], by simp, by simp⟩

/-! ### The later cycles -/

theorem updateEpochPhase_agrees {e e' : Engine} (h : e.Agrees e') (tick : TickInfo)
    (input : CycleInput) :
    (updateEpochPhase cfg tick input (Exec.start e)).Agrees [] []
      (updateEpochPhase cfg tick input (Exec.start e')) := by
  have hstart : (Exec.start e).Agrees [] [] (Exec.start e') := ⟨h, rfl, [], rfl, rfl⟩
  unfold updateEpochPhase
  rw [show (Exec.start e').engine.epochPhase = (Exec.start e).engine.epochPhase from h.phase]
  split
  · apply hstart.modify
    intro hengine
    exact ⟨hengine.slots, congrArg (Option.map (advancePhase cfg tick input.now)) hengine.phase,
      hengine.query, hengine.nextQuery, hengine.monitor⟩
  · have hengine : (resetEngine input.clock e).Agrees (resetEngine input.clock e') :=
      ⟨h.slots, h.phase, rfl, rfl, e'.monitor.sendStats, rfl⟩
    have hreset := hstart.modify fun _ => hengine
    apply (hreset.forSlots fun _ => [.reset]).modify
    intro hengine
    exact ⟨hengine.slots, rfl, hengine.query, hengine.nextQuery, hengine.monitor⟩

theorem harvestAndApply_agrees {x x' : Exec} (h : x.Agrees [] [] x') (tick : TickInfo)
    (input : CycleInput) :
    (harvestAndApply cfg tick input x).Agrees [] [] (harvestAndApply cfg tick input x') := by
  have hobservation : harvestedObservation x'.engine input = harvestedObservation x.engine input := by
    unfold harvestedObservation
    rw [h.engine.query]
  have hquery : (x.modify (harvestStatusQuery input)).Agrees [] []
      (x'.modify (harvestStatusQuery input)) := by
    apply h.modify
    intro hengine
    unfold harvestStatusQuery
    rw [hengine.query]
    split
    · exact ⟨hengine.slots, hengine.phase, rfl, hengine.nextQuery, hengine.monitor⟩
    · exact hengine
  unfold harvestAndApply
  rw [hobservation]
  exact Exec.Agrees.forSlots (Exec.Agrees.forSlots hquery _) _

/-- Engines that agree perform the same operations on the same input and agree after it. -/
theorem engineStep_agrees {e e' : Engine} (h : e.Agrees e') (input : EngineInput) :
    (engineStep cfg input e).Agrees [] [] (engineStep cfg input e') := by
  have hstart : (Exec.start e).Agrees [] [] (Exec.start e') := ⟨h, rfl, [], rfl, rfl⟩
  cases input with
  | shutdown env => exact hstart.forSlots fun stream => [.enterDrain (env stream) .shutdown]
  | cycle input =>
    cases htick : input.tick with
    | error err =>
      simp only [engineStep, cycle, htick]
      exact ⟨h, rfl, [], rfl, rfl⟩
    | ok tick =>
      simp only [engineStep, cycle, htick]
      rw [cycleAt_eq, cycleAt_eq]
      exact planAndDeliver_agrees
        (harvestAndApply_agrees (updateEpochPhase_agrees h tick input) tick input) tick
        (.refl input) (.inl rfl)

/-! ## Whole runs -/

/-- Engines that agree do the same for ever: they reach engines that agree and
perform the same operations on the way. -/
theorem run_agrees {e e' : Engine} (h : e.Agrees e') (inputs : List EngineInput) :
    ((engineMachine cfg).state e inputs).Agrees ((engineMachine cfg).state e' inputs) ∧
      (engineMachine cfg).trace e' inputs = (engineMachine cfg).trace e inputs := by
  apply Machine.lockstep (engineMachine cfg) Engine.Agrees _ h
  intro input s s' hs
  have hstep := @engineStep_agrees cfg _ _ hs input
  rcases hstep.same with ⟨ops, hlog, hlog'⟩
  exact ⟨hstep.engine, hlog'.trans hlog.symm⟩

theorem runTrace_cons (input : EngineInput) (inputs : List EngineInput) (e : Engine) (i : Fin 3) :
    runTrace cfg e (input :: inputs) i =
      (slotMachine cfg).trace (e.slots i) (slotLog i (engineStep cfg input e).log) ++
        runTrace cfg (engineStep cfg input e).engine inputs i := by
  have hhistory : history cfg e (input :: inputs) i =
      slotLog i (engineStep cfg input e).log ++
        history cfg (engineStep cfg input e).engine inputs i := by
    unfold history
    rw [← slotLog_append]
    rfl
  unfold runTrace
  rw [hhistory, Machine.trace_append, ← engineStep_slots]

/-- What the operations of an opening do to a slot: they reset it. -/
theorem openingLog_trace (input : CycleInput) (slot : ManagedSlot) (i : Fin 3)
    (ops : List SlotOp) :
    (slotMachine cfg).trace slot (slotLog i (openingLog input) ++ ops) =
      (resetSlot slot).effects ++ (slotMachine cfg).trace (resetSlot slot).slot ops := by
  have hlog : slotLog i (openingLog input) =
      [.reset, .harvestBroadcasts (input.broadcastResults i)] := by
    match i with
    | 0 => rfl
    | 1 => rfl
    | 2 => rfl
  rw [hlog]
  rfl

/-- The run of an engine from the first cycle of an epoch on: the reset, then
effects that do not depend on what the engine was before. -/
theorem openingRun_effects {e e' : Engine} {input input' : CycleInput} {tick : TickInfo}
    (hkeys : ∀ i, (e'.slots i).key = (e.slots i).key) (htick : input.tick = .ok tick)
    (hsame : SameCycle input input') (hother : epochChanges e tick = true)
    (hother' : epochChanges e' tick = true) (later : List EngineInput) (i : Fin 3) :
    ∃ effects, runTrace cfg e (.cycle input :: later) i =
        (resetSlot (e.slots i)).effects ++ effects ∧
      runTrace cfg e' (.cycle input' :: later) i =
        (resetSlot (e'.slots i)).effects ++ effects := by
  have hopening := @openingCycle_agrees cfg _ _ _ _ _ hkeys htick hsame hother hother'
  rcases hopening.same with ⟨ops, hlog, hlog'⟩
  have hlater := (@run_agrees cfg _ _ hopening.engine later).2
  -- the slots agree, so the later operations have the same effects
  have hrest : runTrace cfg (engineStep cfg (.cycle input') e').engine later i =
      runTrace cfg (engineStep cfg (.cycle input) e).engine later i := by
    unfold runTrace history
    rw [hlater, hopening.engine.slots]
  have hslot : (resetSlot (e'.slots i)).slot = (resetSlot (e.slots i)).slot := by
    simp only [resetSlot, hkeys i]
  refine ⟨(slotMachine cfg).trace (resetSlot (e.slots i)).slot (slotLog i ops) ++
    runTrace cfg (engineStep cfg (.cycle input) e).engine later i, ?_, ?_⟩
  · rw [runTrace_cons, hlog, slotLog_append, openingLog_trace, List.append_assoc]
  · rw [runTrace_cons, hlog', slotLog_append, openingLog_trace, hslot, hrest, List.append_assoc]

/-! ## The counters -/

theorem MonitorOp.run_agrees (op : MonitorOp) {m m' : Monitor} (h : m.Agrees m') :
    (op.run cfg m).Agrees (op.run cfg m') := by
  cases op with
  | effect e => exact h.applyEffect e
  | reset tickCheckAt monitorLogAt => exact ⟨m'.sendStats, rfl⟩
  | expireTickChecks currentTick now => exact h.expireTickChecks currentTick now
  | harvestTickCheck result now => exact h.harvestTickCheck result now
  | ensureTickCheck currentTick expireAt now => exact h.ensureTickCheck currentTick expireAt now

theorem ledger_append (e : Engine) (xs ys : List EngineInput) :
    ledger cfg e (xs ++ ys) = ledger cfg e xs ++ ledger cfg ((engineMachine cfg).state e xs) ys := by
  induction ys using List.reverseRecOn with
  | nil =>
    rw [List.append_nil]
    exact (List.append_nil _).symm
  | append_singleton ys input ih =>
    rw [← List.append_assoc, ledger_snoc, ledger_snoc, ih, Machine.state_append, List.append_assoc]

/-- Engines that agree perform the same operations on their monitoring fields. -/
theorem stepLedger_agrees {e e' : Engine} (h : e.Agrees e') (input : EngineInput) :
    stepLedger cfg input e' = stepLedger cfg input e := by
  have hstep := @engineStep_agrees cfg _ _ h input
  rcases hstep.same with ⟨ops, hlog, hlog'⟩
  have hlogs : (engineStep cfg input e').log = (engineStep cfg input e).log :=
    hlog'.trans hlog.symm
  have hchanges : ∀ tick, epochChanges e' tick = epochChanges e tick := by
    intro tick
    unfold epochChanges
    rw [h.phase]
  have hphase : ∀ tick input, phaseAfter cfg tick input e' = phaseAfter cfg tick input e := by
    intro tick input
    unfold phaseAfter
    rw [hchanges, h.phase]
  unfold stepLedger
  simp only [hlogs, h.slots, hstep.error, hchanges, hphase]

theorem ledger_agrees {e e' : Engine} (h : e.Agrees e') (inputs : List EngineInput) :
    ledger cfg e' inputs = ledger cfg e inputs := by
  induction inputs using List.reverseRecOn with
  | nil => rfl
  | append_singleton inputs input ih =>
    rw [ledger_snoc, ledger_snoc, ih, stepLedger_agrees (run_agrees h inputs).1]

theorem earlierOutcomes_append (m : Monitor) (xs ys : List MonitorOp) :
    earlierOutcomes cfg m (xs ++ ys) =
      earlierOutcomes cfg m xs ++ earlierOutcomes cfg ((monitorMachine cfg).state m xs) ys := by
  have hend : ∀ (op : MonitorOp) (m : Monitor) (older newer : List Outcomes),
      op.endEpoch m (older ++ newer) = older ++ op.endEpoch m newer := by
    intro op m older newer
    unfold MonitorOp.endEpoch
    split
    · exact List.append_assoc ..
    · rfl
  induction ys using List.reverseRecOn with
  | nil =>
    rw [List.append_nil]
    exact (List.append_nil _).symm
  | append_singleton ys op ih =>
    rw [← List.append_assoc, earlierOutcomes_snoc, earlierOutcomes_snoc, ih, hend,
      Machine.state_append]

theorem earlierOutcomes_agrees {m m' : Monitor} (h : m.Agrees m') (ops : List MonitorOp) :
    earlierOutcomes cfg m' ops = earlierOutcomes cfg m ops := by
  induction ops using List.reverseRecOn with
  | nil => rfl
  | append_singleton ops op ih =>
    have hstate := (Machine.lockstep (monitorMachine cfg) Monitor.Agrees
      (fun op _ _ hm => ⟨op.run_agrees hm, rfl⟩) h ops).1
    rw [earlierOutcomes_snoc, earlierOutcomes_snoc, ih]
    rcases hstate with ⟨stats, hstats⟩
    rw [hstats]
    rfl

/-- Operations without a reset end no epoch. -/
theorem earlierOutcomes_within {ops : List MonitorOp} (h : ∀ op ∈ ops, op.isReset = false)
    (m : Monitor) : earlierOutcomes cfg m ops = [] := by
  induction ops using List.reverseRecOn with
  | nil => rfl
  | append_singleton ops op ih =>
    rw [earlierOutcomes_snoc, ih fun op hop => h op (List.mem_append_left _ hop)]
    unfold MonitorOp.endEpoch
    rw [h op (List.mem_append_right _ (List.mem_singleton_self op))]
    rfl

/-- The first cycle of an epoch ends the epoch before it, and no other. -/
theorem openingCycle_outcomes {e : Engine} {input : CycleInput} {tick : TickInfo}
    (htick : input.tick = .ok tick) (hother : epochChanges e tick = true) :
    earlierOutcomes cfg e.monitor (stepLedger cfg (.cycle input) e) = [e.monitor.sendOutcomes] := by
  have hrest : ∀ (effects : List Effect) (more : List MonitorOp),
      (∀ op ∈ more, op.isReset = false) →
        earlierOutcomes cfg e.monitor (.reset input.clock.resetTickCheckAt
          input.clock.resetMonitorAt :: (effects.map MonitorOp.effect ++ more)) =
            [e.monitor.sendOutcomes] := by
    intro effects more hmore
    have hwithin : ∀ op ∈ effects.map MonitorOp.effect ++ more, op.isReset = false := by
      intro op hop
      rcases List.mem_append.1 hop with heffect | hop
      · rcases List.mem_map.1 heffect with ⟨_, -, rfl⟩
        rfl
      · exact hmore op hop
    have hsplit := @earlierOutcomes_append cfg e.monitor
      [.reset input.clock.resetTickCheckAt input.clock.resetMonitorAt]
      (effects.map MonitorOp.effect ++ more)
    rw [earlierOutcomes_within hwithin, List.append_nil] at hsplit
    exact hsplit
  unfold stepLedger
  simp only [htick, hother, if_true, List.append_assoc, List.cons_append]
  apply hrest
  intro op hop
  split at hop
  · cases hop
  · unfold finishLedger at hop
    split at hop <;> simp at hop <;> rcases hop with rfl | rfl | hop <;>
      first
      | rfl
      | (rw [hop]; rfl)

/-- The outcomes of every epoch of a run, the running one's last. -/
def epochOutcomes (cfg : Config) (a b c : Nat) (inputs : List EngineInput) : List Outcomes :=
  earlierOutcomes cfg (Monitor.new b c) (ledger cfg (Engine.new cfg a b c) inputs) ++
    [((engineMachine cfg).state (Engine.new cfg a b c) inputs).monitor.sendOutcomes]

/-- The outcomes recorded from the first cycle of an epoch on, the running
epoch's last. -/
def outcomesSince (cfg : Config) (e : Engine) (input : CycleInput) (later : List EngineInput) :
    List Outcomes :=
  let opened := (engineStep cfg (.cycle input) e).engine
  earlierOutcomes cfg opened.monitor (ledger cfg opened later) ++
    [((engineMachine cfg).state opened later).monitor.sendOutcomes]

theorem recorded_epochOutcomes (a b c : Nat) (inputs : List EngineInput) :
    recorded (epochOutcomes cfg a b c inputs) =
      recordedTargets cfg (Monitor.new b c) (ledger cfg (Engine.new cfg a b c) inputs) := by
  unfold epochOutcomes recordedTargets
  rw [recorded_snoc, monitor_of_ledger]
  rfl

/-- As long as they can count the targets, the counters do. -/
theorem count_eq_counted {a b c : Nat} {inputs : List EngineInput}
    (h : recordedTargets cfg (Monitor.new b c) (ledger cfg (Engine.new cfg a b c) inputs) ≤ u64Max)
    (o : SendOutcome) :
    ((engineMachine cfg).state (Engine.new cfg a b c) inputs).monitor.sendStats.count o =
      counted (epochOutcomes cfg a b c inputs) o := by
  have hinv := counterInv b c h o
  have hmonitor := @monitor_of_ledger cfg (Engine.new cfg a b c) inputs
  unfold epochOutcomes
  rw [counted_snoc, hmonitor]
  exact hinv

theorem counted_append (older newer : List Outcomes) (o : SendOutcome) :
    counted (older ++ newer) o = counted older o + counted newer o := by
  simp [counted]

theorem recorded_append (older newer : List Outcomes) :
    recorded (older ++ newer) = recorded older + recorded newer := by
  simp [recorded]

/-- What is recorded from the first cycle of an epoch on is added to what was
recorded before it. -/
theorem epochOutcomes_append (a b c : Nat) (inputs : List EngineInput) {input : CycleInput}
    {tick : TickInfo} (htick : input.tick = .ok tick)
    (hother : epochChanges ((engineMachine cfg).state (Engine.new cfg a b c) inputs) tick = true)
    (later : List EngineInput) :
    epochOutcomes cfg a b c (inputs ++ .cycle input :: later) =
      epochOutcomes cfg a b c inputs ++
        outcomesSince cfg ((engineMachine cfg).state (Engine.new cfg a b c) inputs) input later := by
  unfold epochOutcomes
  rw [ledger_append, earlierOutcomes_append, Machine.state_append]
  have hbefore : (monitorMachine cfg).state (Monitor.new b c)
      (ledger cfg (Engine.new cfg a b c) inputs) =
        ((engineMachine cfg).state (Engine.new cfg a b c) inputs).monitor :=
    (@monitor_of_ledger cfg (Engine.new cfg a b c) inputs).symm
  rw [hbefore]
  generalize (engineMachine cfg).state (Engine.new cfg a b c) inputs = before at *
  have hledger : ledger cfg before (.cycle input :: later) =
      stepLedger cfg (.cycle input) before ++
        ledger cfg (engineStep cfg (.cycle input) before).engine later :=
    ledger_append before [.cycle input] later
  rw [hledger, earlierOutcomes_append, openingCycle_outcomes htick hother, ← engineStep_monitor]
  simp only [outcomesSince, List.append_assoc]
  rfl

theorem outcomesSince_agrees {e e' : Engine} {input input' : CycleInput}
    (h : (engineStep cfg (.cycle input) e).engine.Agrees
      (engineStep cfg (.cycle input') e').engine) (later : List EngineInput) :
    outcomesSince cfg e' input' later = outcomesSince cfg e input later := by
  have hlater := (@run_agrees cfg _ _ h later).1.monitor
  unfold outcomesSince
  dsimp only
  rw [ledger_agrees h, earlierOutcomes_agrees h.monitor]
  rcases hlater with ⟨stats, hstats⟩
  rw [hstats]

/-! ## The result -/

/-- Two engines with the same configuration, whatever they did before, enter an
epoch neither of them was in with the same cycle and then receive the same
inputs. From that cycle on their slots, phase, status query and monitoring
fields are equal but for the counters, and so is all they do but for the tasks
the reset aborts. The counters of both grow by the same numbers, as long as
64 bits can count the targets recorded. -/
theorem epoch_isolation (cfg : Config) (a b c a' b' c' : Nat) (inputs inputs' : List EngineInput)
    (input input' : CycleInput) (tick : TickInfo) (htick : input.tick = .ok tick)
    (hsame : SameCycle input input')
    (hother : ((engineMachine cfg).state (Engine.new cfg a b c) inputs).epochPhase.map
      EpochPhase.epoch ≠ some tick.epoch)
    (hother' : ((engineMachine cfg).state (Engine.new cfg a' b' c') inputs').epochPhase.map
      EpochPhase.epoch ≠ some tick.epoch)
    (later : List EngineInput) :
    let before := (engineMachine cfg).state (Engine.new cfg a b c) inputs
    let before' := (engineMachine cfg).state (Engine.new cfg a' b' c') inputs'
    let after := (engineMachine cfg).state before (.cycle input :: later)
    let after' := (engineMachine cfg).state before' (.cycle input' :: later)
    after'.slots = after.slots ∧ after'.epochPhase = after.epochPhase ∧
    after'.statusQuery = after.statusQuery ∧
    after'.nextStatusQueryAt = after.nextStatusQueryAt ∧
    after'.monitor = { after.monitor with sendStats := after'.monitor.sendStats } ∧
    (∀ i, ∃ effects,
      runTrace cfg before (.cycle input :: later) i =
        (resetSlot (before.slots i)).effects ++ effects ∧
      runTrace cfg before' (.cycle input' :: later) i =
        (resetSlot (before'.slots i)).effects ++ effects) ∧
    (recordedTargets cfg (Monitor.new b c)
        (ledger cfg (Engine.new cfg a b c) (inputs ++ .cycle input :: later)) < 2 ^ 64 →
      recordedTargets cfg (Monitor.new b' c')
        (ledger cfg (Engine.new cfg a' b' c') (inputs' ++ .cycle input' :: later)) < 2 ^ 64 →
      ∀ o, after.monitor.sendStats.count o + before'.monitor.sendStats.count o =
        after'.monitor.sendStats.count o + before.monitor.sendStats.count o) := by
  intro before before' after after'
  have hchanges : epochChanges before tick = true := by simpa [epochChanges] using hother
  have hchanges' : epochChanges before' tick = true := by simpa [epochChanges] using hother'
  have htick' : input'.tick = .ok tick := hsame.tick.trans htick
  -- a slot keeps its stream and tier for ever
  have hkeys : ∀ i, (before'.slots i).key = (before.slots i).key := by
    intro i
    have hkey : ∀ a b c inputs, (((engineMachine cfg).state (Engine.new cfg a b c) inputs).slots
        i).key = (slot₀ cfg i).key := by
      intro a b c inputs
      rw [slots_of_log, Engine.new_slots, slotMachine_key]
    exact (hkey a' b' c' inputs').trans (hkey a b c inputs).symm
  have hopening := (@openingCycle_agrees cfg _ _ _ _ _ hkeys htick hsame hchanges hchanges').engine
  have hafter : after.Agrees after' := (run_agrees hopening later).1
  refine ⟨hafter.slots, hafter.phase, hafter.query, hafter.nextQuery, ?_, ?_, ?_⟩
  · rcases hafter.monitor with ⟨stats, hstats⟩
    rw [hstats]
  · intro i
    exact openingRun_effects hkeys htick hsame hchanges hchanges' later i
  · intro hbound hbound' o
    -- the counters count the targets of every epoch, and from the opening on
    -- the same targets are added in both runs
    have hcount : ∀ {a b c inputs input}, input.tick = .ok tick →
        epochChanges ((engineMachine cfg).state (Engine.new cfg a b c) inputs) tick = true →
        recordedTargets cfg (Monitor.new b c)
          (ledger cfg (Engine.new cfg a b c) (inputs ++ .cycle input :: later)) < 2 ^ 64 →
        ((engineMachine cfg).state ((engineMachine cfg).state (Engine.new cfg a b c) inputs)
            (.cycle input :: later)).monitor.sendStats.count o =
          ((engineMachine cfg).state (Engine.new cfg a b c) inputs).monitor.sendStats.count o +
            counted (outcomesSince cfg ((engineMachine cfg).state (Engine.new cfg a b c) inputs)
              input later) o := by
      intro a b c inputs input htick hchanges hbound
      have hmax : 2 ^ 64 = u64Max + 1 := rfl
      have hsplit := epochOutcomes_append a b c inputs htick hchanges later
      have hwhole : recordedTargets cfg (Monitor.new b c)
          (ledger cfg (Engine.new cfg a b c) (inputs ++ .cycle input :: later)) ≤ u64Max := by
        omega
      have hbegun : recordedTargets cfg (Monitor.new b c)
          (ledger cfg (Engine.new cfg a b c) inputs) ≤ u64Max := by
        rw [← recorded_epochOutcomes, hsplit, recorded_append] at hwhole
        rw [← recorded_epochOutcomes]
        omega
      rw [← Machine.state_append, count_eq_counted hwhole, count_eq_counted hbegun, hsplit,
        counted_append]
    have hleft := hcount htick hchanges hbound
    have hright := hcount htick' hchanges' hbound'
    rw [outcomesSince_agrees hopening] at hright
    change after.monitor.sendStats.count o = before.monitor.sendStats.count o +
      counted (outcomesSince cfg before input later) o at hleft
    change after'.monitor.sendStats.count o = before'.monitor.sendStats.count o +
      counted (outcomesSince cfg before input later) o at hright
    omega

/-- A first cycle of an epoch in the sample environment. -/
def sampleOpening (epoch : Nat) : CycleInput where
  tick := .ok (sampleTick epoch 0)
  now := { timestamp := 0 }
  statusResult := none
  broadcastResults := fun _ _ => none
  cancelled := false
  env := fun _ => sampleEnv
  tickCheckResult := none
  clock :=
    { resetTickCheckAt := 0, resetStatusAt := 0, resetMonitorAt := 0, statusAt := 0
      statusStartedAt := 0, expireAt := 0, harvestAt := 0, ensureExpireAt := 0, ensureAt := 0 }

/-- An engine that ran eight cycles of epoch 1 and one that began epoch 7 enter
epoch 2: the one accepted reveal is the difference of their counters then and
later. -/
theorem epoch_isolation_sample :
    let before := (engineMachine sampleConfig).state (Engine.new sampleConfig 0 0 0)
      (steadyRun [0, 1, 2, 3, 4, 5, 6, 7])
    let before' := (engineMachine sampleConfig).state (Engine.new sampleConfig 0 0 0)
      [.cycle (sampleOpening 7)]
    let later := steadyRun [1, 2, 3, 4, 5] ++ [.cycle (sampleOpening 3)]
    let after := (engineMachine sampleConfig).state before (.cycle (sampleOpening 2) :: later)
    let after' := (engineMachine sampleConfig).state before' (.cycle (sampleOpening 2) :: later)
    before.monitor.sendStats = { ok := 1, failed := 0, empty := 0 } ∧
    before'.monitor.sendStats = { ok := 0, failed := 0, empty := 0 } ∧
    after'.slots = after.slots ∧
    after.monitor.sendStats = { ok := 1, failed := 0, empty := 0 } ∧
    after'.monitor.sendStats = { ok := 0, failed := 0, empty := 0 } := by
  intro before before' later after after'
  have hother : before.epochPhase.map EpochPhase.epoch ≠ some 2 := by decide +kernel
  have hother' : before'.epochPhase.map EpochPhase.epoch ≠ some 2 := by decide +kernel
  have ⟨hslots, _⟩ := epoch_isolation sampleConfig 0 0 0 0 0 0
    (steadyRun [0, 1, 2, 3, 4, 5, 6, 7]) [.cycle (sampleOpening 7)] (sampleOpening 2)
    (sampleOpening 2) (sampleTick 2 0) rfl (.refl _) hother hother' later
  have hstats : before.monitor.sendStats = { ok := 1, failed := 0, empty := 0 } := by
    decide +kernel
  have hstats' : before'.monitor.sendStats = { ok := 0, failed := 0, empty := 0 } := by
    decide +kernel
  exact ⟨hstats, hstats', hslots, by decide +kernel, by decide +kernel⟩

/-! ### Saturated counters -/

theorem SendStats.count_increment_le {stats : SendStats} {o : SendOutcome}
    (h : stats.count o ≤ u64Max) (o' : SendOutcome) : (stats.increment o').count o ≤ u64Max := by
  have hsat : ∀ n, Bounded.saturatingAdd u64Max n 1 ≤ u64Max := fun n => min_le_right _ _
  cases o <;> cases o' <;> first | exact hsat _ | exact h

theorem SendStats.count_decrement_le {stats : SendStats} {o : SendOutcome}
    (h : stats.count o ≤ u64Max) (o' : SendOutcome) : (stats.decrement o').count o ≤ u64Max := by
  rw [SendStats.count_decrement]
  omega

/-- A counter is a `u64`. -/
theorem count_le (inputs : List EngineInput) (a b c : Nat) (o : SendOutcome) :
    ((engineMachine cfg).state (Engine.new cfg a b c) inputs).monitor.sendStats.count o ≤ u64Max := by
  rw [monitor_of_ledger]
  apply (monitorMachine cfg).state_invariant (Monitor.new b c)
    (fun m => m.sendStats.count o ≤ u64Max)
  · cases o <;> exact Nat.zero_le _
  · intro m op h
    show (op.run cfg m).sendStats.count o ≤ u64Max
    cases hreset : op.isReset with
    | true =>
      rw [op.reset_stats hreset]
      exact h
    | false =>
      rw [(@MonitorOp.run_books cfg op hreset m).stats]
      cases op.records m with
      | none => exact h
      | some entry =>
        show (m.recordSendOutcome entry.1 entry.2).sendStats.count o ≤ u64Max
        rcases recordSendOutcome_cases entry.1 entry.2 m with ⟨hrecord, -⟩ | ⟨-, hrecord⟩ |
          ⟨previous, -, -, hrecord⟩
        · rw [hrecord]
          exact h
        · rw [hrecord]
          exact SendStats.count_increment_le h entry.2
        · rw [hrecord]
          exact SendStats.count_increment_le (SendStats.count_decrement_le h previous) entry.2

/-- Cycles of epoch 1 in which one reveal is accepted, and the first cycle of epoch 2. -/
def acceptingRest : List EngineInput :=
  steadyRun [1, 2, 3, 4, 5, 6, 7] ++ [.cycle (sampleOpening 2)]

/-- An epoch in which one reveal is accepted, and the first cycle of the next epoch. -/
def acceptingEpoch : List EngineInput := .cycle (sampleOpening 1) :: acceptingRest

/-- That many such epochs. -/
def acceptingEpochs (n : Nat) : List EngineInput := (List.replicate n acceptingEpoch).flatten

theorem acceptingEpochs_succ (n : Nat) :
    acceptingEpochs (n + 1) = acceptingEpochs n ++ acceptingEpoch := by
  unfold acceptingEpochs
  rw [List.replicate_succ', List.flatten_append, List.flatten_singleton]

/-- Every such epoch records one target, which is `ok`. -/
theorem acceptingEpochs_outcomes (n : Nat) :
    let e := (engineMachine sampleConfig).state (Engine.new sampleConfig 0 0 0) (acceptingEpochs n)
    epochChanges e (sampleTick 1 0) = true ∧
      recorded (epochOutcomes sampleConfig 0 0 0 (acceptingEpochs n)) = n ∧
      counted (epochOutcomes sampleConfig 0 0 0 (acceptingEpochs n)) .ok = n := by
  induction n with
  | zero => exact ⟨rfl, rfl, rfl⟩
  | succ n ih =>
    rcases ih with ⟨hchanges, hrecorded, hcounted⟩
    rw [acceptingEpochs_succ]
    -- what the epoch does to the engine it does to a new one
    have hkeys : ∀ i, (((engineMachine sampleConfig).state (Engine.new sampleConfig 0 0 0)
        (acceptingEpochs n)).slots i).key = ((Engine.new sampleConfig 0 0 0).slots i).key := by
      intro i
      rw [slots_of_log, Engine.new_slots, slotMachine_key]
    have hopening := (@openingCycle_agrees sampleConfig (Engine.new sampleConfig 0 0 0) _
      (sampleOpening 1) _ (sampleTick 1 0) hkeys rfl (.refl _) rfl hchanges).engine
    have hsplit : epochOutcomes sampleConfig 0 0 0 (acceptingEpochs n ++ acceptingEpoch) =
        epochOutcomes sampleConfig 0 0 0 (acceptingEpochs n) ++
          outcomesSince sampleConfig (Engine.new sampleConfig 0 0 0) (sampleOpening 1) acceptingRest := by
      have happend := @epochOutcomes_append sampleConfig 0 0 0 (acceptingEpochs n) (sampleOpening 1)
        (sampleTick 1 0) rfl hchanges acceptingRest
      rw [outcomesSince_agrees hopening] at happend
      exact happend
    have hone : recorded (outcomesSince sampleConfig (Engine.new sampleConfig 0 0 0)
          (sampleOpening 1) acceptingRest) = 1 ∧
        counted (outcomesSince sampleConfig (Engine.new sampleConfig 0 0 0)
          (sampleOpening 1) acceptingRest) .ok = 1 := by
      decide +kernel
    refine ⟨?_, ?_, ?_⟩
    · have hrest : ∀ e, (engineMachine sampleConfig).state e acceptingEpoch =
          (engineMachine sampleConfig).state
            (engineStep sampleConfig (.cycle (sampleOpening 1)) e).engine acceptingRest := by
        intro e
        exact Machine.state_cons ..
      have hepoch : epochChanges ((engineMachine sampleConfig).state (engineStep sampleConfig
          (.cycle (sampleOpening 1)) (Engine.new sampleConfig 0 0 0)).engine acceptingRest)
            (sampleTick 1 0) = true := by
        decide +kernel
      rw [Machine.state_append, hrest]
      unfold epochChanges at hepoch ⊢
      rw [(run_agrees hopening acceptingRest).1.phase]
      exact hepoch
    · rw [hsplit, recorded_append, hrecorded, hone.1]
    · rw [hsplit, counted_append, hcounted, hone.2]

theorem acceptingEpochs_counter {n : Nat} (h : n ≤ u64Max) :
    ((engineMachine sampleConfig).state (Engine.new sampleConfig 0 0 0)
        (acceptingEpochs n)).epochPhase.map EpochPhase.epoch ≠ some 1 ∧
      ((engineMachine sampleConfig).state (Engine.new sampleConfig 0 0 0)
        (acceptingEpochs n)).monitor.sendStats.count .ok = n ∧
      ((engineMachine sampleConfig).state ((engineMachine sampleConfig).state
        (Engine.new sampleConfig 0 0 0) (acceptingEpochs n))
          acceptingEpoch).monitor.sendStats.count .ok ≤ u64Max := by
  have ⟨hchanges, hrecorded, hcounted⟩ := acceptingEpochs_outcomes n
  refine ⟨?_, ?_, ?_⟩
  · unfold epochChanges at hchanges
    exact of_decide_eq_true hchanges
  · rw [recorded_epochOutcomes] at hrecorded
    exact (count_eq_counted (hrecorded.le.trans h) .ok).trans hcounted
  · rw [← Machine.state_append]
    exact count_le _ 0 0 0 .ok

/-- An engine whose `ok` counter is `u64::MAX` and a new one enter epoch 1 with
the same cycles. The accepted reveal counts in the new engine only. -/
theorem saturated_counter_lags :
    let before := (engineMachine sampleConfig).state (Engine.new sampleConfig 0 0 0)
      (acceptingEpochs u64Max)
    let before' := Engine.new sampleConfig 0 0 0
    let after := (engineMachine sampleConfig).state before acceptingEpoch
    let after' := (engineMachine sampleConfig).state before' acceptingEpoch
    before.epochPhase.map EpochPhase.epoch ≠ some 1 ∧
    before'.epochPhase.map EpochPhase.epoch ≠ some 1 ∧
    before.monitor.sendStats.count .ok = u64Max ∧ before'.monitor.sendStats.count .ok = 0 ∧
    after.monitor.sendStats.count .ok ≤ u64Max ∧ after'.monitor.sendStats.count .ok = 1 := by
  have hfresh : ((engineMachine sampleConfig).state (Engine.new sampleConfig 0 0 0)
      acceptingEpoch).monitor.sendStats.count .ok = 1 := by
    decide +kernel
  have hepoch : (Engine.new sampleConfig 0 0 0).epochPhase.map EpochPhase.epoch ≠ some 1 := by
    decide
  have ⟨hother, hcount, hafter⟩ := @acceptingEpochs_counter u64Max le_rfl
  exact ⟨hother, hepoch, hcount, rfl, hafter, hfresh⟩

end RandomClient
