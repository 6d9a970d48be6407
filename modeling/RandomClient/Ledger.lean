import RandomClient.History

/-!
# The monitoring fields along a run

The monitoring fields are written by few operations (`MonitorOp`): the effects
of the slots, the reset of an epoch, and the expiry, the harvest and the start
of tick checks. What a run does to them is the list of these operations in
order (`ledger`), so facts about counters and checks are proved over lists of
operations (`monitor_of_ledger`).
-/

namespace RandomClient

/-- The operations on the monitoring fields. -/
inductive MonitorOp where
  | effect (e : Effect)
  | reset (tickCheckAt monitorLogAt : Nat)
  | expireTickChecks (currentTick now : Nat)
  | harvestTickCheck (result : Option (Except String TickTransactions)) (now : Nat)
  | ensureTickCheck (currentTick expireAt now : Nat)

def MonitorOp.run (cfg : Config) : MonitorOp → Monitor → Monitor
  | .effect e => fun m => m.applyEffect cfg e
  | .reset tickCheckAt monitorLogAt => Monitor.reset tickCheckAt monitorLogAt
  | .expireTickChecks currentTick now => Monitor.expireTickChecks cfg currentTick now
  | .harvestTickCheck result now => Monitor.harvestTickCheck result now
  | .ensureTickCheck currentTick expireAt now => Monitor.ensureTickCheck cfg currentTick expireAt now

/-- The monitoring fields as a machine over their operations. -/
def monitorMachine (cfg : Config) : Machine Monitor MonitorOp Empty where
  step op m := (op.run cfg m, [])

/-- The three slots as one machine over the operations of a log. -/
def slotsMachine (cfg : Config) : Machine (Fin 3 → ManagedSlot) (Fin 3 × SlotOp) Effect where
  step entry slots :=
    let r := entry.2.run cfg (slots entry.1)
    (Function.update slots entry.1 r.slot, r.effects)

variable {cfg : Config}

/-! ## One step of a run -/

/-- The slots and the monitoring fields are what the log made of the given ones. -/
structure Exec.Booked (cfg : Config) (before : Fin 3 → ManagedSlot) (m : Monitor) (x : Exec) :
    Prop where
  slots : x.engine.slots = (slotsMachine cfg).state before x.log
  monitor : x.engine.monitor =
    ((slotsMachine cfg).trace before x.log).foldl (Monitor.applyEffect cfg) m

section Booked

variable {before : Fin 3 → ManagedSlot} {m : Monitor} {x : Exec}

theorem Exec.Booked.perform (h : x.Booked cfg before m) (i : Fin 3) (op : SlotOp) :
    (x.perform cfg i op).Booked cfg before m := by
  unfold Exec.perform
  split
  · exact h
  · constructor
    · rw [Machine.state_snoc, ← h.slots]
      rfl
    · rw [Machine.trace_snoc, List.foldl_append, ← h.monitor, ← h.slots]
      rfl

theorem Exec.Booked.performAll (h : x.Booked cfg before m) (i : Fin 3) (ops : List SlotOp) :
    (x.performAll cfg i ops).Booked cfg before m := by
  induction ops generalizing x with
  | nil => exact h
  | cons op ops ih => exact ih (h.perform i op)

theorem Exec.Booked.forSlots (h : x.Booked cfg before m) (ops : Fin 3 → List SlotOp) :
    (x.forSlots cfg ops).Booked cfg before m :=
  ((h.performAll 0 _).performAll 1 _).performAll 2 _

/-- A step that touches neither slots nor monitoring fields. -/
theorem Exec.Booked.modify (h : x.Booked cfg before m) {f : Engine → Engine}
    (hslots : ∀ e, (f e).slots = e.slots) (hmonitor : ∀ e, (f e).monitor = e.monitor) :
    (x.modify f).Booked cfg before m := by
  unfold Exec.modify
  split
  · exact h
  · constructor
    · rw [← h.slots]
      exact hslots _
    · rw [← h.monitor]
      exact hmonitor _

end Booked

/-- The operations on the monitoring fields at the end of a cycle. -/
def finishLedger (tick : TickInfo) (input : CycleInput) (plan : Plan) : List MonitorOp :=
  [.expireTickChecks tick.tick input.clock.expireAt,
    .harvestTickCheck input.tickCheckResult input.clock.harvestAt] ++
  match plan with
  | .drain _ => []
  | .normal | .none =>
    [.ensureTickCheck tick.tick input.clock.ensureExpireAt input.clock.ensureAt]

/-- The operations one step of a run performs on the monitoring fields. -/
def stepLedger (cfg : Config) (input : EngineInput) (e : Engine) : List MonitorOp :=
  let x := engineStep cfg input e
  let effects := ((slotsMachine cfg).trace e.slots x.log).map MonitorOp.effect
  match input with
  | .shutdown _ => effects
  | .cycle input =>
    match input.tick with
    | .error _ => []
    | .ok tick =>
      (if epochChanges e tick then
        [.reset input.clock.resetTickCheckAt input.clock.resetMonitorAt] else []) ++
      effects ++
      if x.error.isSome then []
      else finishLedger tick input
        (planOf (phaseAfter cfg tick input e) tick.epoch input.cancelled)

theorem monitorMachine_effects (m : Monitor) (effects : List Effect) :
    (monitorMachine cfg).state m (effects.map .effect) =
      effects.foldl (Monitor.applyEffect cfg) m := by
  induction effects generalizing m with
  | nil => rfl
  | cons e effects ih => exact ih _

/-- The epoch phase update books the monitoring reset of a new epoch. -/
theorem updateEpochPhase_booked (tick : TickInfo) (input : CycleInput) (e : Engine) :
    (updateEpochPhase cfg tick input (Exec.start e)).Booked cfg e.slots
      (if epochChanges e tick then
        e.monitor.reset input.clock.resetTickCheckAt input.clock.resetMonitorAt
      else e.monitor) := by
  unfold updateEpochPhase
  by_cases hsame : e.epochPhase.map EpochPhase.epoch = some tick.epoch
  · have hchange : epochChanges e tick = false := by simp [epochChanges, hsame]
    have hstart : (Exec.start e).Booked cfg e.slots e.monitor := ⟨rfl, rfl⟩
    rw [if_pos hsame, hchange]
    exact hstart.modify (fun _ => rfl) (fun _ => rfl)
  · have hchange : epochChanges e tick = true := by simp [epochChanges, hsame]
    rw [if_neg hsame, hchange]
    have hreset : ((Exec.start e).modify (resetEngine input.clock)).Booked cfg e.slots
        (e.monitor.reset input.clock.resetTickCheckAt input.clock.resetMonitorAt) := ⟨rfl, rfl⟩
    exact (hreset.forSlots _).modify (fun _ => rfl) (fun _ => rfl)

theorem harvestAndApply_booked {before : Fin 3 → ManagedSlot} {m : Monitor} {x : Exec}
    (h : x.Booked cfg before m) (tick : TickInfo) (input : CycleInput) :
    (harvestAndApply cfg tick input x).Booked cfg before m := by
  have hquery : (x.modify (harvestStatusQuery input)).Booked cfg before m := by
    apply h.modify (harvestStatusQuery_slots input)
    intro e
    unfold harvestStatusQuery
    split <;> rfl
  unfold harvestAndApply
  exact (hquery.forSlots _).forSlots _

/-- The end of a cycle performs its operations on the monitoring fields. -/
theorem finishCycle_monitor (tick : TickInfo) (input : CycleInput) (plan : Plan) (e : Engine) :
    (finishCycle cfg tick input plan e).monitor =
      (monitorMachine cfg).state e.monitor (finishLedger tick input plan) := by
  have hquery : (ensureStatusQuery tick input.clock e).monitor = e.monitor := by
    unfold ensureStatusQuery
    split <;> rfl
  unfold finishCycle finishLedger
  cases plan <;> simp only [hquery] <;> rfl

theorem cycleAt_monitor (tick : TickInfo) (input : CycleInput) (e : Engine) :
    (cycleAt cfg tick input e).engine.monitor = (monitorMachine cfg).state e.monitor
      ((if epochChanges e tick then
        [.reset input.clock.resetTickCheckAt input.clock.resetMonitorAt] else []) ++
      ((slotsMachine cfg).trace e.slots (cycleAt cfg tick input e).log).map MonitorOp.effect ++
      if (cycleAt cfg tick input e).error.isSome then []
      else finishLedger tick input
        (planOf (phaseAfter cfg tick input e) tick.epoch input.cancelled)) := by
  obtain ⟨-, hphase, -, -⟩ := updateEpochPhase_spec cfg tick input e
  have hbooked := @updateEpochPhase_booked cfg tick input e
  have happlied := harvestAndApply_booked hbooked tick input
  have hcurrent := harvestAndApply_phase cfg tick input
    (updateEpochPhase cfg tick input (Exec.start e))
  rw [hphase] at hcurrent
  obtain ⟨y, hy⟩ : ∃ y, y = harvestAndApply cfg tick input
    (updateEpochPhase cfg tick input (Exec.start e)) := ⟨_, rfl⟩
  obtain ⟨plan, hplan⟩ : ∃ plan, plan =
    planOf (phaseAfter cfg tick input e) tick.epoch input.cancelled := ⟨_, rfl⟩
  obtain ⟨z, hz⟩ : ∃ z, z = (y.forSlots cfg fun stream => planOps plan tick (input.env stream)).forSlots
    cfg fun _ => deliveryOps tick := ⟨_, rfl⟩
  have hcycle : cycleAt cfg tick input e = z.modify (finishCycle cfg tick input plan) := by
    rw [hz, hplan, ← hcurrent, hy]
    rfl
  have hdelivered : z.Booked cfg e.slots (if epochChanges e tick then
      e.monitor.reset input.clock.resetTickCheckAt input.clock.resetMonitorAt else e.monitor) := by
    rw [hz, hy]
    exact Exec.Booked.forSlots (Exec.Booked.forSlots happlied _) _
  rw [hcycle, ← hplan]
  -- the reset of the monitoring fields comes first
  have hreset : (monitorMachine cfg).state e.monitor (if epochChanges e tick then
      [.reset input.clock.resetTickCheckAt input.clock.resetMonitorAt] else []) =
        if epochChanges e tick then
          e.monitor.reset input.clock.resetTickCheckAt input.clock.resetMonitorAt
        else e.monitor := by
    split <;> rfl
  rw [Machine.state_append, Machine.state_append, hreset, monitorMachine_effects]
  unfold Exec.modify
  by_cases herror : z.error.isSome = true
  · simp only [herror, if_true]
    exact hdelivered.monitor
  · simp only [herror, if_false, Bool.false_eq_true]
    rw [finishCycle_monitor, ← hdelivered.monitor]

theorem engineStep_monitor (input : EngineInput) (e : Engine) :
    (engineStep cfg input e).engine.monitor =
      (monitorMachine cfg).state e.monitor (stepLedger cfg input e) := by
  cases input with
  | shutdown env =>
    have hstart : (Exec.start e).Booked cfg e.slots e.monitor := ⟨rfl, rfl⟩
    have hdrained := hstart.forSlots fun stream => [.enterDrain (env stream) .shutdown]
    rw [stepLedger, monitorMachine_effects]
    exact hdrained.monitor
  | cycle input =>
    cases htick : input.tick with
    | error err =>
      simp only [stepLedger, engineStep, cycle, htick]
      rfl
    | ok tick =>
      simp only [stepLedger, engineStep, cycle, htick]
      exact cycleAt_monitor tick input e

/-! ## Whole runs -/

/-- The operations a run performs on the monitoring fields. -/
def ledger (cfg : Config) (e : Engine) (inputs : List EngineInput) : List MonitorOp :=
  (engineMachine cfg).track (fun e input ops => ops ++ stepLedger cfg input e) e [] inputs

theorem ledger_snoc (e : Engine) (inputs : List EngineInput) (input : EngineInput) :
    ledger cfg e (inputs ++ [input]) =
      ledger cfg e inputs ++ stepLedger cfg input ((engineMachine cfg).state e inputs) :=
  Machine.track_snoc ..

/-- The monitoring fields an engine holds are what its ledger made of them. -/
theorem monitor_of_ledger (e : Engine) (inputs : List EngineInput) :
    ((engineMachine cfg).state e inputs).monitor =
      (monitorMachine cfg).state e.monitor (ledger cfg e inputs) := by
  induction inputs using List.reverseRecOn with
  | nil => rfl
  | append_singleton inputs input ih =>
    rw [Machine.state_snoc, ledger_snoc, Machine.state_append, ← ih]
    exact engineStep_monitor input _

end RandomClient
