import Mathlib.Data.List.Infix
import RandomClient.Engine

/-!
# Slot histories

What an engine run does to one stream. The log of a run, restricted to a
stream, is a list of slot operations (`slotLog`); the slot the engine holds is
the state `slotMachine` reaches by that list (`slots_of_log`). Properties of
slots over whole runs are therefore proved over lists of slot operations.

`cycleOps` is the list a cycle performs on one slot. A cycle cut short by an
error performs a prefix of it.
-/

namespace RandomClient

variable (cfg : Config)

@[simp] theorem slotLog_nil (i : Fin 3) : slotLog i [] = [] := rfl

@[simp] theorem slotLog_append (i : Fin 3) (xs ys : List (Fin 3 × SlotOp)) :
    slotLog i (xs ++ ys) = slotLog i xs ++ slotLog i ys := by
  simp [slotLog]

@[simp] theorem slotLog_self (i : Fin 3) (op : SlotOp) : slotLog i [(i, op)] = [op] := by
  simp [slotLog]

theorem slotLog_other {i j : Fin 3} (h : j ≠ i) (op : SlotOp) : slotLog i [(j, op)] = [] := by
  simp [slotLog, h]

/-! ## Slot histories -/

theorem slotMachine_state_snoc (slot : ManagedSlot) (ops : List SlotOp) (op : SlotOp) :
    (slotMachine cfg).state slot (ops ++ [op]) =
      (op.run cfg ((slotMachine cfg).state slot ops)).slot :=
  Machine.state_snoc ..

theorem slotMachine_trace_snoc (slot : ManagedSlot) (ops : List SlotOp) (op : SlotOp) :
    (slotMachine cfg).trace slot (ops ++ [op]) = (slotMachine cfg).trace slot ops ++
      (op.run cfg ((slotMachine cfg).state slot ops)).effects :=
  Machine.trace_snoc ..

/-! ## The slots are the states of the log -/

/-- `y` continues `x`: it performed further operations, and its slots are what
those operations make of the slots of `x`. -/
def Exec.Continues (x y : Exec) : Prop :=
  ∃ ops, y.log = x.log ++ ops ∧
    ∀ i, y.engine.slots i = (slotMachine cfg).state (x.engine.slots i) (slotLog i ops)

theorem Exec.Continues.refl (x : Exec) : x.Continues cfg x := ⟨[], by simp, fun _ => rfl⟩

theorem Exec.Continues.trans {x y z : Exec} (hxy : x.Continues cfg y) (hyz : y.Continues cfg z) :
    x.Continues cfg z := by
  obtain ⟨ops, hlog, hslots⟩ := hxy
  obtain ⟨ops', hlog', hslots'⟩ := hyz
  refine ⟨ops ++ ops', by rw [hlog', hlog, List.append_assoc], fun i => ?_⟩
  rw [hslots', hslots, slotLog_append, Machine.state_append]

theorem Exec.perform_continues (i : Fin 3) (op : SlotOp) (x : Exec) :
    x.Continues cfg (x.perform cfg i op) := by
  unfold Exec.perform
  split
  · exact .refl cfg x
  · refine ⟨[(i, op)], rfl, fun j => ?_⟩
    by_cases h : j = i
    · subst h
      simp [Machine.state, slotMachine]
    · simp [slotLog_other (Ne.symm h), Function.update_of_ne h]

theorem Exec.modify_continues {f : Engine → Engine} (hf : ∀ e, (f e).slots = e.slots) (x : Exec) :
    x.Continues cfg (x.modify f) := by
  unfold Exec.modify
  split
  · exact .refl cfg x
  · exact ⟨[], by simp, fun i => by simp [hf]⟩

theorem Exec.modify_of_ok {x : Exec} (h : x.error = none) (f : Engine → Engine) :
    x.modify f = { x with engine := f x.engine } := by
  simp [Exec.modify, h]

theorem Exec.performAll_continues (i : Fin 3) (ops : List SlotOp) (x : Exec) :
    x.Continues cfg (x.performAll cfg i ops) := by
  induction ops generalizing x with
  | nil => exact .refl cfg x
  | cons op ops ih => exact (x.perform_continues cfg i op).trans cfg (ih _)

theorem Exec.forSlots_continues (ops : Fin 3 → List SlotOp) (x : Exec) :
    x.Continues cfg (x.forSlots cfg ops) :=
  ((x.performAll_continues cfg 0 _).trans cfg (Exec.performAll_continues cfg 1 _ _)).trans cfg
    (Exec.performAll_continues cfg 2 _ _)

theorem updateEpochPhase_continues (tick : TickInfo) (input : CycleInput) (x : Exec) :
    x.Continues cfg (updateEpochPhase cfg tick input x) := by
  unfold updateEpochPhase
  split
  · refine x.modify_continues cfg ?_
    intro e
    rfl
  · have hreset : x.Continues cfg (x.modify (resetEngine input.clock)) := by
      refine x.modify_continues cfg ?_
      intro e
      rfl
    refine (hreset.trans cfg (Exec.forSlots_continues cfg _ _)).trans cfg
      (Exec.modify_continues cfg ?_ _)
    intro e
    rfl

theorem harvestStatusQuery_slots (input : CycleInput) (e : Engine) :
    (harvestStatusQuery input e).slots = e.slots := by
  unfold harvestStatusQuery
  split <;> rfl

theorem ensureStatusQuery_slots (tick : TickInfo) (clock : Clock) (e : Engine) :
    (ensureStatusQuery tick clock e).slots = e.slots := by
  unfold ensureStatusQuery
  split <;> rfl

theorem finishCycle_slots (tick : TickInfo) (input : CycleInput) (plan : Plan) (e : Engine) :
    (finishCycle cfg tick input plan e).slots = e.slots :=
  ensureStatusQuery_slots tick input.clock e

theorem harvestAndApply_continues (tick : TickInfo) (input : CycleInput) (x : Exec) :
    x.Continues cfg (harvestAndApply cfg tick input x) :=
  ((x.modify_continues cfg (harvestStatusQuery_slots input)).trans cfg
    (Exec.forSlots_continues cfg _ _)).trans cfg (Exec.forSlots_continues cfg _ _)

theorem cycleAt_continues (tick : TickInfo) (input : CycleInput) (e : Engine) :
    Exec.Continues cfg { engine := e, log := [], error := none } (cycleAt cfg tick input e) :=
  (((updateEpochPhase_continues cfg tick input _).trans cfg
    (harvestAndApply_continues cfg tick input _)).trans cfg
      (Exec.forSlots_continues cfg _ _)).trans cfg
        ((Exec.forSlots_continues cfg _ _).trans cfg
          (Exec.modify_continues cfg (finishCycle_slots cfg tick input _) _))

theorem engineStep_continues (input : EngineInput) (e : Engine) :
    Exec.Continues cfg { engine := e, log := [], error := none } (engineStep cfg input e) := by
  cases input with
  | cycle input =>
    simp only [engineStep, cycle]
    cases input.tick with
    | error err => exact ⟨[], rfl, fun _ => rfl⟩
    | ok tick => exact cycleAt_continues cfg tick input e
  | shutdown env => exact Exec.forSlots_continues cfg _ _

/-- One step of a run does to the slot of a stream what its logged operations do. -/
theorem engineStep_slots (input : EngineInput) (e : Engine) (i : Fin 3) :
    (engineStep cfg input e).engine.slots i =
      (slotMachine cfg).state (e.slots i) (slotLog i (engineStep cfg input e).log) := by
  obtain ⟨ops, hlog, hslots⟩ := engineStep_continues cfg input e
  rw [hslots i, hlog]
  rfl

/-- The operations a run performs on the slot of a stream. -/
def history (e : Engine) (inputs : List EngineInput) (i : Fin 3) : List SlotOp :=
  slotLog i ((engineMachine cfg).trace e inputs)

theorem history_snoc (e : Engine) (inputs : List EngineInput) (input : EngineInput) (i : Fin 3) :
    history cfg e (inputs ++ [input]) i = history cfg e inputs i ++
      slotLog i (engineStep cfg input ((engineMachine cfg).state e inputs)).log := by
  unfold history
  rw [Machine.trace_snoc, slotLog_append]
  rfl

/-- The slot an engine run holds is the state its history reaches. -/
theorem slots_of_log (e : Engine) (inputs : List EngineInput) (i : Fin 3) :
    ((engineMachine cfg).state e inputs).slots i =
      (slotMachine cfg).state (e.slots i) (history cfg e inputs i) := by
  induction inputs using List.reverseRecOn with
  | nil => rfl
  | append_singleton inputs input ih =>
    have hstep := engineStep_slots cfg input ((engineMachine cfg).state e inputs) i
    rw [Machine.state_snoc, history_snoc, Machine.state_append, ← ih]
    exact hstep

/-- The slot of a stream in a new engine. -/
abbrev slot₀ (i : Fin 3) : ManagedSlot := ManagedSlot.new i (collateralTier cfg.collateral)

@[simp] theorem Engine.new_slots (a b c : Nat) (i : Fin 3) :
    (Engine.new cfg a b c).slots i = slot₀ cfg i := rfl

/-! ## The operations of one cycle -/

/-- Whether the tick report changes the recorded epoch. -/
def epochChanges (e : Engine) (tick : TickInfo) : Bool :=
  e.epochPhase.map EpochPhase.epoch ≠ some tick.epoch

/-- The phase after `update_epoch_phase`. -/
def phaseAfter (tick : TickInfo) (input : CycleInput) (e : Engine) : Option EpochPhase :=
  if epochChanges e tick then
    some (advancePhase cfg tick input.now
      (.warmup tick.epoch (saturatingAdd tick.initialTick cfg.epochResumeDelayTicks)))
  else e.epochPhase.map (advancePhase cfg tick input.now)

/-- The observation a cycle applies, if any. -/
def observationOf (tick : TickInfo) (input : CycleInput) (e : Engine) : Option StatusObservation :=
  if epochChanges e tick then none else harvestedObservation e input

/-- The operations of a cycle on one slot, in order. -/
def cycleOps (tick : TickInfo) (input : CycleInput) (e : Engine) (i : Fin 3) : List SlotOp :=
  (if epochChanges e tick then [.reset] else []) ++
    [.harvestBroadcasts (input.broadcastResults i)] ++
    statusOps (observationOf tick input e) tick.epoch ++
    planOps (planOf (phaseAfter cfg tick input e) tick.epoch input.cancelled) tick (input.env i) ++
    deliveryOps tick

/-- `x` performed the given operations on each stream, or an error cut them short. -/
def Exec.Performed (x : Exec) (ops : Fin 3 → List SlotOp) : Prop :=
  (∀ i, slotLog i x.log <+: ops i) ∧ (x.error = none → ∀ i, slotLog i x.log = ops i)

theorem Exec.Performed.perform {x : Exec} {ops : Fin 3 → List SlotOp} (h : x.Performed ops)
    (i : Fin 3) (op : SlotOp) :
    (x.perform cfg i op).Performed (Function.update ops i (ops i ++ [op])) := by
  have hbegun : ∀ j, ops j <+: Function.update ops i (ops i ++ [op]) j := by
    intro j
    by_cases hj : j = i
    · subst hj
      simp
    · rw [Function.update_of_ne hj]
  unfold Exec.perform
  split
  · rename_i herr
    refine ⟨fun j => (h.1 j).trans (hbegun j), fun hnone => ?_⟩
    rw [hnone] at herr
    cases herr
  · rename_i herr
    have hops : ∀ j, slotLog j (x.log ++ [(i, op)]) = Function.update ops i (ops i ++ [op]) j := by
      intro j
      have hx := h.2 (by simpa using herr) j
      by_cases hj : j = i
      · subst hj
        simp [hx]
      · rw [Function.update_of_ne hj, slotLog_append, slotLog_other (Ne.symm hj), hx,
          List.append_nil]
    exact ⟨fun j => by simp only [hops, List.prefix_rfl], fun _ => hops⟩

theorem Exec.Performed.modify {x : Exec} {ops : Fin 3 → List SlotOp} (h : x.Performed ops)
    (f : Engine → Engine) : (x.modify f).Performed ops := by
  unfold Exec.modify
  split
  · exact h
  · exact h

theorem Exec.Performed.performAll {x : Exec} {ops : Fin 3 → List SlotOp} (h : x.Performed ops)
    (i : Fin 3) (more : List SlotOp) :
    (x.performAll cfg i more).Performed (Function.update ops i (ops i ++ more)) := by
  induction more generalizing x ops with
  | nil => simpa [Exec.performAll] using h
  | cons op more ih =>
    have hstep := ih (h.perform cfg i op)
    simpa [Exec.performAll] using hstep

theorem Exec.Performed.forSlots {x : Exec} {ops : Fin 3 → List SlotOp} (h : x.Performed ops)
    (more : Fin 3 → List SlotOp) :
    (x.forSlots cfg more).Performed (fun i => ops i ++ more i) := by
  have hall := ((h.performAll cfg 0 (more 0)).performAll cfg 1 (more 1)).performAll cfg 2 (more 2)
  have heq : Function.update (Function.update (Function.update ops 0 (ops 0 ++ more 0)) 1
      (ops 1 ++ more 1)) 2 (ops 2 ++ more 2) = fun i => ops i ++ more i := by
    funext i
    match i with
    | 0 => rfl
    | 1 => rfl
    | 2 => rfl
  rw [← heq]
  exact hall

/-! ### Operations that return no error -/

theorem observeStatusEvidence_error (evidence : StatusEvidence) (requestedTick : Nat)
    (slot : ManagedSlot) : (observeStatusEvidence evidence requestedTick slot).error = none := by
  simp only [observeStatusEvidence, beginStatusRestart]
  repeat' split
  all_goals rfl

theorem applyConfirmationWatermark_error (confirmedTick requestedTick : Nat)
    (slot : ManagedSlot) :
    (applyConfirmationWatermark confirmedTick requestedTick slot).error = none := by
  simp only [applyConfirmationWatermark, applyAcknowledgement]
  repeat' split
  all_goals first | rfl | exact observeStatusEvidence_error _ _ _

theorem applyStatus_error (observation : StatusObservation) (slot : ManagedSlot) :
    (applyStatus observation slot).error = none := by
  simp only [applyStatus]
  repeat' split
  all_goals
    first
    | rfl
    | exact observeStatusEvidence_error _ _ _
    | exact applyConfirmationWatermark_error _ _ _

theorem harvestBroadcasts_error (results : Nat → Option Delivery) (slot : ManagedSlot) :
    (harvestBroadcasts results slot).error = none := by
  unfold harvestBroadcasts
  split <;> rfl

theorem expireCalls_error (currentTick : Nat) (slot : ManagedSlot) :
    (expireCalls currentTick slot).error = none := by
  simp only [expireCalls, loseChain, completeDrain, SlotResult.followedBy]
  repeat' split
  all_goals rfl

theorem dispatchCalls_error (currentTick tickDurationMs : Nat) (slot : ManagedSlot) :
    (dispatchCalls currentTick tickDurationMs slot).error = none := by
  unfold dispatchCalls
  split <;> rfl

theorem finishDrain_error (slot : ManagedSlot) : (finishDrain slot).error = none := by
  simp only [finishDrain, completeDrain]
  repeat' split
  all_goals rfl

theorem finishStatusRestart_error (currentTick : Nat) (slot : ManagedSlot) :
    (finishStatusRestart currentTick slot).error = none := by
  unfold finishStatusRestart
  repeat' split
  all_goals rfl

theorem pruneCalls_error (currentTick : Nat) (slot : ManagedSlot) :
    (pruneCalls currentTick slot).error = none := by
  unfold pruneCalls
  repeat' split
  all_goals rfl

/-- The operations other than planning return no error. -/
def SlotOp.isQuiet : SlotOp → Bool
  | .enterDrain _ _ | .startIfReady _ _ | .extendChain _ _ => false
  | _ => true

theorem SlotOp.run_error {op : SlotOp} (h : op.isQuiet = true) (slot : ManagedSlot) :
    (op.run cfg slot).error = none := by
  cases op with
  | reset => rfl
  | harvestBroadcasts results => exact harvestBroadcasts_error results slot
  | applyStatus observation => exact applyStatus_error observation slot
  | expireCalls currentTick => exact expireCalls_error currentTick slot
  | dispatchCalls currentTick tickDurationMs => exact dispatchCalls_error currentTick _ slot
  | finishDrain => exact finishDrain_error slot
  | finishStatusRestart currentTick => exact finishStatusRestart_error currentTick slot
  | pruneCalls currentTick => exact pruneCalls_error currentTick slot
  | _ => cases h

/-- `y` differs from `x` in slots, counters and log only, and neither has failed. -/
structure Exec.SameFrame (x y : Exec) : Prop where
  phase : y.engine.epochPhase = x.engine.epochPhase
  query : y.engine.statusQuery = x.engine.statusQuery
  error : x.error = none → y.error = none

theorem Exec.SameFrame.trans {x y z : Exec} (hxy : x.SameFrame y) (hyz : y.SameFrame z) :
    x.SameFrame z where
  phase := hyz.phase.trans hxy.phase
  query := hyz.query.trans hxy.query
  error h := hyz.error (hxy.error h)

theorem Exec.perform_frame {op : SlotOp} (h : op.isQuiet = true) (i : Fin 3) (x : Exec) :
    x.SameFrame (x.perform cfg i op) := by
  unfold Exec.perform
  split
  · exact ⟨rfl, rfl, id⟩
  · exact ⟨rfl, rfl, fun _ => op.run_error cfg h _⟩

theorem Exec.performAll_frame {ops : List SlotOp} (h : ∀ op ∈ ops, op.isQuiet = true)
    (i : Fin 3) (x : Exec) : x.SameFrame (x.performAll cfg i ops) := by
  induction ops generalizing x with
  | nil => exact ⟨rfl, rfl, id⟩
  | cons op ops ih =>
    have hop := x.perform_frame cfg (h op (by simp)) i
    exact hop.trans (ih (fun op' hmem => h op' (by simp [hmem])) _)

theorem Exec.forSlots_frame {ops : Fin 3 → List SlotOp}
    (h : ∀ i, ∀ op ∈ ops i, op.isQuiet = true) (x : Exec) :
    x.SameFrame (x.forSlots cfg ops) :=
  ((x.performAll_frame cfg (h 0) 0).trans (Exec.performAll_frame cfg (h 1) 1 _)).trans
    (Exec.performAll_frame cfg (h 2) 2 _)

/-! ### The shape of a cycle -/

section Cycle

variable (tick : TickInfo) (input : CycleInput) (e : Engine)

/-- The cycle before it touches anything. -/
abbrev Exec.start (e : Engine) : Exec := { engine := e, log := [], error := none }

theorem Exec.start_performed : (Exec.start e).Performed fun _ => [] :=
  ⟨fun _ => List.prefix_rfl, fun _ _ => rfl⟩

/-- The epoch phase update: the reset operations, if the epoch changed, and the new phase. -/
theorem updateEpochPhase_spec :
    let x := updateEpochPhase cfg tick input (Exec.start e)
    x.error = none ∧ x.engine.epochPhase = phaseAfter cfg tick input e ∧
      x.engine.statusQuery = (if epochChanges e tick then none else e.statusQuery) ∧
      x.Performed fun _ => if epochChanges e tick then [.reset] else [] := by
  by_cases hsame : e.epochPhase.map EpochPhase.epoch = some tick.epoch
  · have hchange : epochChanges e tick = false := by simp [epochChanges, hsame]
    simp only [updateEpochPhase, hsame, hchange, phaseAfter, if_true, Bool.false_eq_true, if_false]
    exact ⟨rfl, rfl, rfl, (Exec.start_performed e).modify _⟩
  · have hchange : epochChanges e tick = true := by simp [epochChanges, hsame]
    simp only [updateEpochPhase, hsame, hchange, phaseAfter, if_false, if_true]
    -- the resets return no error, so the phase is set after them
    generalize hy : ((Exec.start e).modify (resetEngine input.clock)).forSlots cfg
      (fun _ => [SlotOp.reset]) = y
    have hframe : Exec.SameFrame ((Exec.start e).modify (resetEngine input.clock)) y := by
      rw [← hy]
      refine Exec.forSlots_frame cfg (fun _ op hop => ?_) _
      rw [List.mem_singleton.1 hop]
      rfl
    have hperf : y.Performed fun _ => [] ++ [SlotOp.reset] := by
      rw [← hy]
      exact ((Exec.start_performed e).modify _).forSlots cfg _
    rw [Exec.modify_of_ok (hframe.error rfl)]
    exact ⟨hframe.error rfl, rfl, hframe.query, hperf⟩

/-- Harvest and status leave the epoch phase alone. -/
theorem harvestAndApply_phase (x : Exec) :
    (harvestAndApply cfg tick input x).engine.epochPhase = x.engine.epochPhase := by
  have hquery : (x.modify (harvestStatusQuery input)).engine.epochPhase = x.engine.epochPhase := by
    unfold Exec.modify harvestStatusQuery
    repeat' split
    all_goals rfl
  have hharvest : ∀ y : Exec, y.SameFrame (y.forSlots cfg
      fun i => [.harvestBroadcasts (input.broadcastResults i)]) := by
    intro y
    refine Exec.forSlots_frame cfg (fun i op hop => ?_) y
    rw [List.mem_singleton.1 hop]
    rfl
  have hstatus : ∀ y : Exec, y.SameFrame (y.forSlots cfg
      fun _ => statusOps (harvestedObservation x.engine input) tick.epoch) := by
    intro y
    refine Exec.forSlots_frame cfg (fun i op hop => ?_) y
    unfold statusOps at hop
    repeat' split at hop
    · rw [List.mem_singleton.1 hop]
      rfl
    · cases hop
    · cases hop
  exact ((hstatus _).phase.trans (hharvest _).phase).trans hquery

/-- A cycle performs `cycleOps` on every slot, or a prefix of it when an error
of planning cuts it short. -/
theorem cycleAt_performed : (cycleAt cfg tick input e).Performed (cycleOps cfg tick input e) := by
  obtain ⟨herr, hphase, hquery, hperf⟩ := updateEpochPhase_spec cfg tick input e
  simp only [cycleAt]
  generalize updateEpochPhase cfg tick input { engine := e, log := [], error := none } = x at *
  have hobs : harvestedObservation x.engine input = observationOf tick input e := by
    simp only [harvestedObservation, hquery, observationOf]
    cases epochChanges e tick <;> rfl
  have hharvest := harvestAndApply_phase cfg tick input x
  have hperf' : (harvestAndApply cfg tick input x).Performed fun i =>
      ((if epochChanges e tick then [.reset] else []) ++
        [.harvestBroadcasts (input.broadcastResults i)]) ++
          statusOps (observationOf tick input e) tick.epoch := by
    rw [← hobs]
    exact ((hperf.modify _).forSlots cfg _).forSlots cfg _
  generalize harvestAndApply cfg tick input x = y at *
  have hplan : planOf y.engine.epochPhase tick.epoch input.cancelled =
      planOf (phaseAfter cfg tick input e) tick.epoch input.cancelled := by
    rw [hharvest, hphase]
  rw [hplan]
  exact ((hperf'.forSlots cfg _).forSlots cfg _).modify _

/-! ### The recorded epoch -/

theorem finishWarmup_epoch (phase : EpochPhase) :
    (finishWarmup tick phase).epoch = phase.epoch := by
  cases phase with
  | warmup epoch readyTick =>
    simp only [finishWarmup]
    split
    · rename_i h
      exact h.1.symm
    · rfl
  | _ => rfl

theorem enterStopWindow_epoch (now : DateTime) (phase : EpochPhase) :
    (enterStopWindow cfg tick now phase).epoch = phase.epoch := by
  cases phase with
  | active epoch =>
    simp only [enterStopWindow]
    split
    · rename_i h
      exact h.1.symm
    · rfl
  | _ => rfl

theorem advancePhase_epoch (now : DateTime) (phase : EpochPhase) :
    (advancePhase cfg tick now phase).epoch = phase.epoch :=
  (enterStopWindow_epoch cfg tick now _).trans (finishWarmup_epoch tick phase)

/-- After the epoch phase update the recorded epoch is the reported one. -/
theorem phaseAfter_epoch :
    (phaseAfter cfg tick input e).map EpochPhase.epoch = some tick.epoch := by
  unfold phaseAfter
  split
  · rw [Option.map_some, advancePhase_epoch]
    rfl
  · rename_i hsame
    simp only [epochChanges, ne_eq, decide_not, Bool.not_eq_eq_eq_not, Bool.not_true,
      Bool.not_eq_false, decide_eq_true_eq] at hsame
    obtain ⟨phase, hphase, hepoch⟩ := Option.map_eq_some_iff.1 hsame
    rw [hphase, Option.map_some, Option.map_some, advancePhase_epoch, hepoch]

theorem Exec.perform_phase (i : Fin 3) (op : SlotOp) (x : Exec) :
    (x.perform cfg i op).engine.epochPhase = x.engine.epochPhase := by
  unfold Exec.perform
  split <;> rfl

theorem Exec.performAll_phase (i : Fin 3) (ops : List SlotOp) (x : Exec) :
    (x.performAll cfg i ops).engine.epochPhase = x.engine.epochPhase := by
  induction ops generalizing x with
  | nil => rfl
  | cons op ops ih => exact (ih _).trans (x.perform_phase cfg i op)

theorem Exec.forSlots_phase (ops : Fin 3 → List SlotOp) (x : Exec) :
    (x.forSlots cfg ops).engine.epochPhase = x.engine.epochPhase :=
  ((Exec.performAll_phase cfg 2 _ _).trans (Exec.performAll_phase cfg 1 _ _)).trans
    (Exec.performAll_phase cfg 0 _ x)

/-- A cycle records the phase of its epoch phase update, errors or not. -/
theorem cycleAt_phase :
    (cycleAt cfg tick input e).engine.epochPhase = phaseAfter cfg tick input e := by
  obtain ⟨-, hphase, -, -⟩ := updateEpochPhase_spec cfg tick input e
  have hfinish : ∀ plan (x : Exec), (x.modify (finishCycle cfg tick input plan)).engine.epochPhase =
      x.engine.epochPhase := by
    intro plan x
    unfold Exec.modify finishCycle ensureStatusQuery
    repeat' split
    all_goals rfl
  simp only [cycleAt]
  rw [hfinish, Exec.forSlots_phase, Exec.forSlots_phase, harvestAndApply_phase]
  exact hphase

end Cycle

/-! ## Reports of a run -/

/-- The tick report an input brings. -/
def EngineInput.report : EngineInput → Option TickInfo
  | .cycle input =>
    match input.tick with
    | .ok tick => some tick
    | .error _ => none
  | .shutdown _ => none

/-- The tick reports of a run, in order. -/
def reports (inputs : List EngineInput) : List TickInfo := inputs.filterMap EngineInput.report

theorem reports_snoc (inputs : List EngineInput) (input : EngineInput) :
    reports (inputs ++ [input]) = reports inputs ++ input.report.toList := by
  simp only [reports, List.filterMap_append, List.filterMap_cons, List.filterMap_nil]
  cases input.report <;> rfl

/-- The epoch an engine has recorded is that of the last report. -/
theorem epoch_of_reports (a b c : Nat) (inputs : List EngineInput) :
    ((engineMachine cfg).state (Engine.new cfg a b c) inputs).epochPhase.map EpochPhase.epoch =
      (reports inputs).getLast?.map TickInfo.epoch := by
  induction inputs using List.reverseRecOn with
  | nil => rfl
  | append_singleton inputs input ih =>
    rw [Machine.state_snoc, reports_snoc]
    generalize (engineMachine cfg).state (Engine.new cfg a b c) inputs = e at *
    change (engineStep cfg input e).engine.epochPhase.map EpochPhase.epoch = _
    cases input with
    | shutdown env =>
      simp only [engineStep, Exec.forSlots_phase, EngineInput.report, Option.toList_none,
        List.append_nil]
      exact ih
    | cycle input =>
      simp only [engineStep, cycle, EngineInput.report]
      cases input.tick with
      | error err => simpa using ih
      | ok tick =>
        simp only [cycleAt_phase, phaseAfter_epoch, Option.toList_some, List.getLast?_append,
          List.getLast?_singleton, Option.some_or, Option.map_some]

/-! ## Traces of a run -/

/-- The effects of an engine run on one stream. -/
def runTrace (e : Engine) (inputs : List EngineInput) (i : Fin 3) : List Effect :=
  (slotMachine cfg).trace (e.slots i) (history cfg e inputs i)

/-- The operations one step of a run performs on a slot: a cycle's, one drain
entry, or none. -/
theorem engineStep_ops (input : EngineInput) (e : Engine) (i : Fin 3) :
    (∃ tick cycleInput, input.report = some tick ∧ input = .cycle cycleInput ∧
      slotLog i (engineStep cfg input e).log <+: cycleOps cfg tick cycleInput e i) ∨
    (input.report = none ∧ (slotLog i (engineStep cfg input e).log = [] ∨
      ∃ env, slotLog i (engineStep cfg input e).log = [.enterDrain env .shutdown])) := by
  cases input with
  | shutdown env =>
    right
    refine ⟨rfl, ?_⟩
    have hperf := ((Exec.start_performed e).forSlots cfg
      fun i => [SlotOp.enterDrain (env i) .shutdown]).1 i
    rcases List.prefix_cons_iff.1 hperf with hnil | ⟨rest, hrest, hbegun⟩
    · exact .inl hnil
    · rw [List.prefix_nil.1 hbegun] at hrest
      exact .inr ⟨env i, hrest⟩
  | cycle input =>
    cases htick : input.tick with
    | error err =>
      right
      simp [EngineInput.report, htick, engineStep, cycle]
    | ok tick =>
      left
      refine ⟨tick, input, by simp [EngineInput.report, htick], rfl, ?_⟩
      simp only [engineStep, cycle, htick]
      exact (cycleAt_performed cfg tick input e).1 i

/-- A history up to one of its operations. -/
theorem takeSnoc_isPrefix {ops : List SlotOp} {n : Nat} {op : SlotOp} (h : op ∈ ops[n]?) :
    ops.take n ++ [op] <+: ops := by
  obtain ⟨hlt, rfl⟩ := List.getElem?_eq_some_iff.1 h
  rw [← List.take_succ_eq_append_getElem hlt]
  exact List.take_prefix _ _

end RandomClient
