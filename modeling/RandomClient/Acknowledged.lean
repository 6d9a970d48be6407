import RandomClient.Client
import RandomClient.Outcomes
import RandomClient.TickChecks

/-!
# What the node said

Where the client believes something about the network, a reply of the node said
so: a call counts as accepted, and a stream as drained, only after a reply that
acknowledges the broadcast (`accepted_calls_acknowledged`), and a target counts
as empty only after a reply about its own tick (`empty_targets_reported`).
-/

namespace RandomClient

variable {cfg : Config}

/-! ## Accepted drains -/

section Drained

variable {slot : ManagedSlot}

/-- The slot is not drained with its terminal reveal accepted. -/
def ManagedSlot.Unaccepted (slot : ManagedSlot) : Prop := slot.state ≠ .drained .accepted

theorem beginStatusRestart_unaccepted (after : Nat) (observed : Bool) (h : slot.Unaccepted) :
    (beginStatusRestart after observed slot).slot.Unaccepted := by
  unfold beginStatusRestart
  split
  · exact h
  · split
    · simp [ManagedSlot.Unaccepted]
    · simp [ManagedSlot.Unaccepted]

theorem observeStatusEvidence_unaccepted (evidence : StatusEvidence) (requestedTick : Nat)
    (h : slot.Unaccepted) :
    (observeStatusEvidence evidence requestedTick slot).slot.Unaccepted := by
  unfold observeStatusEvidence
  split
  · exact h
  · split
    · exact h
    · dsimp only
      split
      · exact beginStatusRestart_unaccepted _ _ h
      · exact h

theorem applyConfirmationWatermark_unaccepted (confirmedTick requestedTick : Nat)
    (h : slot.Unaccepted) :
    (applyConfirmationWatermark confirmedTick requestedTick slot).slot.Unaccepted := by
  unfold applyConfirmationWatermark
  split
  · exact h
  · next chain _ =>
    cases chain.acknowledge confirmedTick requestedTick with
    | ignored => exact h
    | settled chain' => exact h
    | missing chain' missingTarget =>
      exact @observeStatusEvidence_unaccepted { slot with chain := some chain' }
        (.lag missingTarget) requestedTick h

theorem applyStatus_unaccepted (observation : StatusObservation) (h : slot.Unaccepted) :
    (applyStatus observation slot).slot.Unaccepted := by
  unfold applyStatus
  dsimp only
  split
  · exact h
  · exact h
  · simp [ManagedSlot.Unaccepted]
  · split
    · split
      · exact @applyConfirmationWatermark_unaccepted { slot with state := .active } _ _
          (by simp [ManagedSlot.Unaccepted])
      · split
        · exact observeStatusEvidence_unaccepted _ _ h
        · exact h
    · split
      · exact observeStatusEvidence_unaccepted _ _ h
      · exact h
  · split
    · split
      · exact applyConfirmationWatermark_unaccepted _ _ h
      · exact observeStatusEvidence_unaccepted _ _ h
    · exact observeStatusEvidence_unaccepted _ _ h
  · simp [ManagedSlot.Unaccepted]

theorem loseChain_unaccepted (after : Nat) (observed : Bool) (slot : ManagedSlot) :
    (loseChain after observed slot).slot.Unaccepted := by
  unfold loseChain
  dsimp only
  split
  · simp [ManagedSlot.Unaccepted]
  · simp [ManagedSlot.Unaccepted]

theorem expireCalls_unaccepted (currentTick : Nat) (h : slot.Unaccepted) :
    (expireCalls currentTick slot).slot.Unaccepted := by
  unfold expireCalls
  split
  · exact h
  · dsimp only
    split
    · exact h
    · split
      · exact loseChain_unaccepted _ _ _
      · exact loseChain_unaccepted _ _ _
      · simp [SlotResult.followedBy, completeDrain, ManagedSlot.Unaccepted]
      · exact h
      · exact h
      · exact h

/-- A slot comes to be drained as accepted only at the end of a drain whose
terminal reveal is accepted. -/
theorem SlotOp.drained_accepted {op : SlotOp} (h : slot.Unaccepted)
    (hdrained : (op.run cfg slot).slot.state = .drained .accepted) :
    op = .finishDrain ∧ ∃ call ∈ slot.queue, call.kind = .terminalReveal ∧
      call.state = .accepted := by
  cases op with
  | finishDrain =>
    refine ⟨rfl, ?_⟩
    simp only [SlotOp.run, RandomClient.finishDrain] at hdrained
    split at hdrained
    · split at hdrained
      · next hterminal =>
        -- the terminal reveal is the first of its kind in the queue
        cases hchain : slot.chain with
        | none =>
          rw [hchain] at hterminal
          cases hterminal
        | some chain =>
          rw [hchain, Option.bind_some] at hterminal
          rcases Option.map_eq_some_iff.1 hterminal with ⟨call, hfind, hstate⟩
          rw [queue_of_chain hchain]
          exact ⟨call, List.mem_of_find?_eq_some hfind,
            by simpa using List.find?_some hfind, hstate⟩
      · cases hdrained
      · exact absurd hdrained h
    · exact absurd hdrained h
  | reset => cases hdrained
  | harvestBroadcasts results =>
    exact absurd ((harvestBroadcasts_state results slot).symm.trans hdrained) h
  | dispatchCalls currentTick tickDurationMs =>
    exact absurd ((dispatchCalls_state currentTick tickDurationMs slot).symm.trans hdrained) h
  | pruneCalls currentTick =>
    exact absurd ((pruneCalls_state currentTick slot).symm.trans hdrained) h
  | applyStatus observation => exact absurd hdrained (applyStatus_unaccepted observation h)
  | expireCalls currentTick => exact absurd hdrained (expireCalls_unaccepted currentTick h)
  | enterDrain env reason =>
    exfalso
    simp only [SlotOp.run, RandomClient.enterDrain] at hdrained
    repeat' split at hdrained
    all_goals first
      | exact h hdrained
      | cases hdrained
  | startIfReady env currentTick =>
    exfalso
    simp only [SlotOp.run, RandomClient.startIfReady] at hdrained
    repeat' split at hdrained
    all_goals first
      | exact h hdrained
      | cases hdrained
  | extendChain env currentTick =>
    exfalso
    simp only [SlotOp.run, RandomClient.extendChain] at hdrained
    split at hdrained
    · split at hdrained
      · -- the chain is lost, by its own calls or by the gap
        dsimp only [SlotResult.followedBy] at hdrained
        split at hdrained
        · exact loseChain_unaccepted _ _ _ hdrained
        · exact expireCalls_unaccepted currentTick h hdrained
      · repeat' split at hdrained
        all_goals exact h hdrained
    · exact h hdrained
  | finishStatusRestart currentTick =>
    exfalso
    simp only [SlotOp.run, RandomClient.finishStatusRestart] at hdrained
    repeat' split at hdrained
    all_goals first
      | exact h hdrained
      | cases hdrained

end Drained

theorem acceptedIn_of_state {i : Fin 3} {ops : List SlotOp} {call : PlannedCall}
    (hcall : call ∈ ((slotMachine cfg).state (slot₀ cfg i) ops).queue)
    (hstate : call.state = .accepted) :
    AcceptedIn ((slotMachine cfg).trace (slot₀ cfg i) ops) call.targetTick := by
  have hinv := (slotMachine_run i ops : SlotRun cfg (slot₀ cfg i) _ _).slotInv
  exact (hinv.queue.accepted call hcall).1 hstate

/-- The terminal reveal behind a drain that is accepted: it was signed and
accepted in the running period. -/
theorem terminal_of_drained (i : Fin 3) (ops : List SlotOp)
    (h : ((slotMachine cfg).state (slot₀ cfg i) ops).state = .drained .accepted) :
    ∃ signed ∈ periodCalls ((slotMachine cfg).trace (slot₀ cfg i) ops),
      signed.kind = .terminalReveal ∧
      AcceptedIn ((slotMachine cfg).trace (slot₀ cfg i) ops) signed.targetTick := by
  induction ops using List.reverseRecOn with
  | nil => cases h
  | append_singleton ops op ih =>
    have hinv := (slotMachine_run i ops : SlotRun cfg (slot₀ cfg i) _ _).slotInv
    rw [slotMachine_state_snoc] at h
    have hreset : op ≠ .reset := by
      rintro rfl
      cases h
    have hnew := @SlotOp.reset_notMem cfg op hreset ((slotMachine cfg).state (slot₀ cfg i) ops)
    -- a terminal reveal accepted before the step is accepted after it
    have hkeeps : (∃ signed ∈ periodCalls ((slotMachine cfg).trace (slot₀ cfg i) ops),
        signed.kind = .terminalReveal ∧
        AcceptedIn ((slotMachine cfg).trace (slot₀ cfg i) ops) signed.targetTick) →
      ∃ signed ∈ periodCalls ((slotMachine cfg).trace (slot₀ cfg i) (ops ++ [op])),
        signed.kind = .terminalReveal ∧
        AcceptedIn ((slotMachine cfg).trace (slot₀ cfg i) (ops ++ [op])) signed.targetTick := by
      rintro ⟨signed, hmem, hkind, haccepted⟩
      rw [slotMachine_trace_snoc]
      refine ⟨signed, (periodCalls_isPrefix hnew _).subset hmem, hkind, ?_⟩
      exact (acceptedIn_append hnew _ _).2 (.inl haccepted)
    apply hkeeps
    by_cases hbefore : ((slotMachine cfg).state (slot₀ cfg i) ops).state = .drained .accepted
    · exact ih hbefore
    · rcases SlotOp.drained_accepted hbefore h with ⟨-, call, hcall, hkind, hstate⟩
      rcases hinv.queue.recorded call hcall with ⟨signed, hsigned, hrecords⟩
      refine ⟨signed, hsigned, hrecords.kind.trans hkind, ?_⟩
      rw [hrecords.target]
      exact acceptedIn_of_state hcall hstate

/-! ## Joined broadcasts -/

/-- A call is joined with the result of its own task. -/
theorem harvestEffects_result {shutdownDrain : Bool} {results : Nat → Option Delivery}
    {call : PlannedCall} {e : Effect} (h : e ∈ harvestEffects shutdownDrain results call) :
    ∃ redundant result, e = .harvested call.targetTick call.kind redundant result ∧
      results call.targetTick = some result := by
  unfold harvestEffects harvestOf at h
  cases hbroadcast : call.broadcast with
  | none => simp [hbroadcast] at h
  | some task =>
    cases hresult : results call.targetTick with
    | none => simp [hbroadcast, hresult] at h
    | some result =>
      by_cases hstate : call.state = .accepted
      · refine ⟨true, result, ?_, rfl⟩
        simpa [hbroadcast, hresult, hstate] using h
      · refine ⟨false, result, ?_, rfl⟩
        cases result with
        | ok => simpa [hbroadcast, hresult, hstate] using h
        | err =>
          by_cases hterminal : shutdownDrain ∧ call.kind = .terminalReveal
          · simpa [hbroadcast, hresult, hstate, hterminal] using h
          · simpa [hbroadcast, hresult, hstate, hterminal] using h

theorem result_of_harvested {slot : ManagedSlot} {op : SlotOp} {target : Nat} {kind : CallKind}
    {redundant : Bool} {result : Delivery}
    (h : Effect.harvested target kind redundant result ∈ (op.run cfg slot).effects) :
    ∃ results, op = .harvestBroadcasts results ∧ results target = some result := by
  rcases SlotOp.harvested_call h with ⟨⟨results, rfl⟩, -⟩
  refine ⟨results, rfl, ?_⟩
  change _ ∈ (harvestBroadcasts results slot).effects at h
  unfold harvestBroadcasts at h
  split at h
  · cases h
  · simp only [List.mem_append, List.mem_map, reduceCtorEq, and_false, exists_false,
      or_false] at h
    rcases List.mem_flatMap.1 h with ⟨call, -, hcall⟩
    rcases harvestEffects_result hcall with ⟨_, _, heq, hresult⟩
    cases heq
    exact hresult

/-- A cycle joins the broadcasts of a stream with the results it was given for the stream. -/
theorem results_of_cycle {tick : TickInfo} {input : CycleInput} {e : Engine} {i : Fin 3}
    {results : Nat → Option Delivery} (h : .harvestBroadcasts results ∈ cycleOps cfg tick input e i) :
    results = input.broadcastResults i := by
  simp only [cycleOps, List.mem_append, List.mem_singleton] at h
  rcases h with (((h | h) | h) | h) | h
  · split at h <;> simp at h
  · cases h
    rfl
  · unfold statusOps at h
    repeat' split at h
    all_goals simp at h
  · unfold planOps at h
    split at h <;> simp at h
  · simp [deliveryOps] at h

/-- A broadcast joined in a run was given its result by a cycle of the run. -/
theorem cycle_of_harvested (e : Engine) (inputs : List EngineInput) (i : Fin 3) {target : Nat}
    {kind : CallKind} {redundant : Bool} {result : Delivery}
    (h : Effect.harvested target kind redundant result ∈ runTrace cfg e inputs i) :
    ∃ before input later, inputs = before ++ .cycle input :: later ∧
      input.broadcastResults i target = some result := by
  induction inputs using List.reverseRecOn with
  | nil => cases h
  | append_singleton inputs input ih =>
    rw [runTrace_snoc] at h
    rcases List.mem_append.1 h with h | h
    · rcases ih h with ⟨before, cycle, later, rfl, hresult⟩
      exact ⟨before, cycle, later ++ [input], by simp, hresult⟩
    · -- the step is the one that joined it
      rcases (slotMachine cfg).mem_trace h with ⟨pre, op, post, hops, heffect⟩
      rcases result_of_harvested heffect with ⟨results, rfl, hresult⟩
      have hmem : SlotOp.harvestBroadcasts results ∈
          slotLog i (engineStep cfg input ((engineMachine cfg).state e inputs)).log := by
        rw [hops]
        simp
      rcases engineStep_ops cfg input ((engineMachine cfg).state e inputs) i with
        ⟨tick, cycle, -, rfl, hbegun⟩ | ⟨-, hnil | ⟨env, hdrain⟩⟩
      · rw [results_of_cycle (hbegun.subset hmem)] at hresult
        exact ⟨inputs, cycle, [], rfl, hresult⟩
      · rw [hnil] at hmem
        cases hmem
      · rw [hdrain] at hmem
        simp at hmem

/-! ## Empty targets -/

/-- The operation may start a check. -/
def MonitorOp.ensures : MonitorOp → Bool
  | .ensureTickCheck _ _ _ => true
  | _ => false

theorem queueTickCheck_active (target : Nat) (m : Monitor) :
    (m.queueTickCheck target).tickCheck = m.tickCheck := by
  unfold Monitor.queueTickCheck
  split <;> rfl

/-- Only `ensure_tick_check` makes a check active. -/
theorem MonitorOp.active_before {op : MonitorOp} (h : op.ensures = false) {m : Monitor}
    {check : PendingTickCheck} (hcheck : (op.run cfg m).tickCheck = some check) :
    m.tickCheck = some check := by
  cases op with
  -- only this one starts a check
  | ensureTickCheck currentTick expireAt now => cases h
  | reset tickCheckAt monitorLogAt => cases hcheck
  | expireTickChecks currentTick now =>
    exact (Option.filter_eq_some_iff.1 hcheck).1
  | harvestTickCheck result now =>
    cases hactive : m.tickCheck with
    | none =>
      change (m.harvestTickCheck result now).tickCheck = some check at hcheck
      rw [harvestTickCheck_none result now hactive, hactive] at hcheck
      exact hcheck
    | some active =>
      change (m.harvestTickCheck result now).tickCheck = some check at hcheck
      cases result with
      | none =>
        simp only [Monitor.harvestTickCheck, hactive] at hcheck
        exact hcheck
      | some result =>
        -- a result ends the active check
        exfalso
        cases result with
        | error err =>
          rw [harvestTickCheck_error hactive] at hcheck
          cases hcheck
        | ok observation =>
          rw [harvestTickCheck_ok hactive] at hcheck
          split at hcheck
          · cases hcheck
          · rw [(recordSendOutcome_checks active.targetTick .empty _).active] at hcheck
            cases hcheck
  | effect e =>
    cases e with
    | recordedOk target =>
      change ((m.recordSendOutcome target .ok).queueTickCheck target).tickCheck = _ at hcheck
      rw [queueTickCheck_active, (recordSendOutcome_checks target .ok m).active] at hcheck
      exact hcheck
    | financialFailure target =>
      change ((m.recordSendOutcome target .failed).queueTickCheck target).tickCheck = _ at hcheck
      rw [queueTickCheck_active, (recordSendOutcome_checks target .failed m).active] at hcheck
      exact hcheck
    | digest target txBytes =>
      simp only [MonitorOp.run, Monitor.applyEffect] at hcheck
      split at hcheck <;> exact hcheck
    | _ => exact hcheck

theorem active_along (m : Monitor) {ops : List MonitorOp} (h : ∀ op ∈ ops, op.ensures = false)
    {check : PendingTickCheck}
    (hcheck : ((monitorMachine cfg).state m ops).tickCheck = some check) :
    m.tickCheck = some check := by
  induction ops using List.reverseRecOn with
  | nil => exact hcheck
  | append_singleton ops op ih =>
    rw [Machine.state_snoc] at hcheck
    apply ih fun op' hmem => h op' (List.mem_append_left _ hmem)
    exact MonitorOp.active_before (h op (by simp)) hcheck

/-- Among the operations the active check of the target is harvested, and found
its tick without transactions. -/
def FoundEmpty (m : Monitor) (ops : List MonitorOp) (target : Nat) : Prop :=
  ∃ check observation now, m.tickCheck = some check ∧ check.targetTick = target ∧
    .harvestTickCheck (some (.ok observation)) now ∈ ops ∧ observation.hasTransactions = false

theorem FoundEmpty.mono {m : Monitor} {ops more : List MonitorOp} {target : Nat}
    (h : FoundEmpty m ops target) (hsub : ops ⊆ more) : FoundEmpty m more target := by
  rcases h with ⟨check, observation, now, hcheck, htarget, hmem, hnone⟩
  exact ⟨check, observation, now, hcheck, htarget, hsub hmem, hnone⟩

theorem MonitorOp.records_empty {op : MonitorOp} {m : Monitor} {target : Nat}
    (h : op.records m = some (target, .empty)) :
    ∃ check observation now, m.tickCheck = some check ∧ check.targetTick = target ∧
      op = .harvestTickCheck (some (.ok observation)) now ∧
      observation.hasTransactions = false := by
  unfold MonitorOp.records at h
  split at h
  · cases h
  · cases h
  · next observation now =>
    split at h
    · cases h
    · next hnone =>
      rcases Option.map_eq_some_iff.1 h with ⟨check, hcheck, heq⟩
      cases heq
      exact ⟨check, observation, now, hcheck, rfl, rfl, by simpa using hnone⟩
  · cases h

/-- Until a check starts, a target is recorded as empty only by the check that
was active before. -/
theorem empty_along (m : Monitor) {ops : List MonitorOp} (h : ∀ op ∈ ops, op.ensures = false)
    {target : Nat}
    (hempty : ((monitorMachine cfg).state m ops).sendOutcomes.lookup target = some .empty) :
    m.sendOutcomes.lookup target = some .empty ∨ FoundEmpty m ops target := by
  induction ops using List.reverseRecOn with
  | nil => exact .inl hempty
  | append_singleton ops op ih =>
    have hops : ∀ op' ∈ ops, op'.ensures = false := fun op' hmem =>
      h op' (List.mem_append_left _ hmem)
    rw [Machine.state_snoc] at hempty
    change (op.run cfg ((monitorMachine cfg).state m ops)).sendOutcomes.lookup target = _ at hempty
    cases hreset : op.isReset with
    | true =>
      -- a new epoch has no outcomes
      cases op with
      | reset tickCheckAt monitorLogAt => cases hempty
      | _ => cases hreset
    | false =>
      rcases MonitorOp.lookup_run hreset hempty with hold | ⟨hrecords, -⟩
      · rcases ih hops hold with hbefore | hfound
        · exact .inl hbefore
        · exact .inr (hfound.mono (List.subset_append_left _ _))
      · rcases MonitorOp.records_empty hrecords with
          ⟨check, observation, now, hcheck, htarget, rfl, hnone⟩
        exact .inr ⟨check, observation, now, active_along m hops hcheck, htarget, by simp, hnone⟩

theorem finishLedger_ends (tick : TickInfo) (input : CycleInput) (plan : Plan) :
    ∃ last, finishLedger tick input plan =
      [.expireTickChecks tick.tick input.clock.expireAt,
        .harvestTickCheck input.tickCheckResult input.clock.harvestAt] ++ last ∧
      (last = [] ∨ ∃ currentTick expireAt now, last = [.ensureTickCheck currentTick expireAt now]) := by
  cases plan with
  | drain reason => exact ⟨[], rfl, .inl rfl⟩
  | normal => exact ⟨_, rfl, .inr ⟨_, _, _, rfl⟩⟩
  | none => exact ⟨_, rfl, .inr ⟨_, _, _, rfl⟩⟩

/-- A step starts a check at its very end, and harvests with the result it was given. -/
theorem stepLedger_ends (input : EngineInput) (e : Engine) :
    ∃ front last, stepLedger cfg input e = front ++ last ∧
      (∀ op ∈ front, op.ensures = false) ∧
      (∀ result now, .harvestTickCheck result now ∈ front →
        ∃ cycle, input = .cycle cycle ∧ result = cycle.tickCheckResult) ∧
      (last = [] ∨ ∃ currentTick expireAt now, last = [.ensureTickCheck currentTick expireAt now]) := by
  cases input with
  | shutdown env =>
    refine ⟨stepLedger cfg (.shutdown env) e, [], (List.append_nil _).symm, ?_, ?_, .inl rfl⟩
    · intro op hmem
      rcases List.mem_map.1 hmem with ⟨_, -, rfl⟩
      rfl
    · intro result now hmem
      rcases List.mem_map.1 hmem with ⟨_, -, heq⟩
      cases heq
  | cycle input =>
    cases htick : input.tick with
    | error err => exact ⟨[], [], by simp [stepLedger, htick], by simp, by simp, .inl rfl⟩
    | ok tick =>
      simp only [stepLedger, htick]
      generalize planOf _ _ _ = plan
      generalize (slotsMachine cfg).trace e.slots
        (engineStep cfg (.cycle input) e).log = effects
      generalize (engineStep cfg (.cycle input) e).error.isSome = failed
      -- neither the reset nor the effects of the slots touch a check
      have hreset : ∀ op ∈ (if epochChanges e tick then
          [MonitorOp.reset input.clock.resetTickCheckAt input.clock.resetMonitorAt] else []) ++
          effects.map MonitorOp.effect,
          op.ensures = false ∧ ∀ result now, op ≠ .harvestTickCheck result now := by
        intro op hmem
        rcases List.mem_append.1 hmem with hmem | hmem
        · split at hmem
          · cases List.mem_singleton.1 hmem
            exact ⟨rfl, fun _ _ heq => by cases heq⟩
          · cases hmem
        · rcases List.mem_map.1 hmem with ⟨_, -, rfl⟩
          exact ⟨rfl, fun _ _ heq => by cases heq⟩
      generalize (if epochChanges e tick then
          [MonitorOp.reset input.clock.resetTickCheckAt input.clock.resetMonitorAt] else []) ++
          effects.map MonitorOp.effect = front at hreset
      cases failed with
      -- a cycle that failed skips the monitor
      | true =>
        refine ⟨front, [], by simp, fun op hmem => (hreset op hmem).1, ?_, .inl rfl⟩
        intro result now hmem
        exact absurd rfl ((hreset _ hmem).2 result now)
      | false =>
        rcases finishLedger_ends tick input plan with ⟨last, hfinish, hlast⟩
        refine ⟨front ++ [.expireTickChecks tick.tick input.clock.expireAt,
          .harvestTickCheck input.tickCheckResult input.clock.harvestAt], last, ?_, ?_, ?_, hlast⟩
        · simp [hfinish]
        · intro op hmem
          rcases List.mem_append.1 hmem with hmem | hmem
          · exact (hreset op hmem).1
          · simp only [List.mem_cons, List.not_mem_nil, or_false] at hmem
            rcases hmem with rfl | rfl <;> rfl
        · intro result now hmem
          rcases List.mem_append.1 hmem with hmem | hmem
          · exact absurd rfl ((hreset _ hmem).2 result now)
          · simp only [List.mem_cons, List.not_mem_nil, or_false, reduceCtorEq, false_or] at hmem
            cases hmem
            exact ⟨input, rfl, rfl⟩

/-- A target of an engine is recorded as empty because a cycle was given so as
the result of the check active at its start. -/
theorem cycle_of_empty (a b c : Nat) (inputs : List EngineInput) {target : Nat}
    (h : ((engineMachine cfg).state (Engine.new cfg a b c)
      inputs).monitor.sendOutcomes.lookup target = some .empty) :
    ∃ before input later check observation, inputs = before ++ .cycle input :: later ∧
      ((engineMachine cfg).state (Engine.new cfg a b c) before).monitor.tickCheck = some check ∧
      check.targetTick = target ∧ input.tickCheckResult = some (.ok observation) ∧
      observation.hasTransactions = false := by
  induction inputs using List.reverseRecOn with
  | nil => cases h
  | append_singleton inputs input ih =>
    rw [Machine.state_snoc] at h
    change (engineStep cfg input _).engine.monitor.sendOutcomes.lookup target = _ at h
    rw [engineStep_monitor] at h
    rcases @stepLedger_ends cfg input ((engineMachine cfg).state (Engine.new cfg a b c) inputs) with
      ⟨front, last, hsteps, hensures, hharvests, hlast⟩
    -- the start of a check leaves the outcomes alone
    have hfront : ((monitorMachine cfg).state
        ((engineMachine cfg).state (Engine.new cfg a b c) inputs).monitor
        front).sendOutcomes.lookup target = some .empty := by
      rw [hsteps, Machine.state_append] at h
      rcases hlast with rfl | ⟨currentTick, expireAt, now, rfl⟩
      · exact h
      · rw [← (ensureTickCheck_books currentTick expireAt now _).outcomes]
        exact h
    rcases empty_along _ hensures hfront with hold | ⟨check, observation, now, hcheck, htarget,
      hmem, hnone⟩
    · rcases ih hold with ⟨before, cycle, later, check, observation, rfl, hrest⟩
      exact ⟨before, cycle, later ++ [input], check, observation, by simp, hrest⟩
    · rcases hharvests _ _ hmem with ⟨cycle, rfl, hresult⟩
      exact ⟨inputs, cycle, [], check, observation, rfl, hcheck, htarget, hresult.symm, hnone⟩

/-! ## Replies of the node -/

section Replies

variable (decoders : Decoders)

/-- The reply acknowledges a broadcast: what the node says in each protocol. -/
def Acknowledges : (kind : BackendKind) → (createBackend decoders kind).BroadcastReply → Prop
  | .rpc, sent => ∃ model, sendJson decoders.broadcast sent = .ok model ∧
      0 < model.peersBroadcasted ∧ trim model.transactionId ≠ []
  | .bob, reply => ∃ response transactionId, sendJson decoders.json reply.sent = .ok response ∧
      Bob.Answers reply.id response ∧ Bob.transactionIdOf response = some transactionId ∧
      trim transactionId ≠ []
  | .grpc, answer => ∃ response : Lightnode.BroadcastTransactionResponse,
      answer = .ok response ∧ response.ok = true ∧ trim response.txId ≠ []

/-- The reply says that the tick of the target holds no transaction. A transfers
response of Bob names no tick. -/
def ReportsEmpty : (kind : BackendKind) → Nat → (createBackend decoders kind).TransactionsReply → Prop
  | .rpc, target, sent => ∃ data, sendJson decoders.tickData sent = .ok data ∧
      ∀ model, data = some model → model.tickNumber = target ∧ model.transactionHashes = []
  | .bob, _, reply => ∃ response, sendJson decoders.json reply.sent = .ok response ∧
      Bob.Answers reply.id response ∧
      Bob.transfersOf ((response.get "result").getD response) = some []
  | .grpc, target, answer => ∃ response : GetTickTransactionsResponse, answer = .ok response ∧
      response.ok = true ∧ response.tick = target ∧ response.hasTransactions = false ∧
      response.transactionDigests = []

variable {decoders}

theorem acknowledges_of_ok {kind : BackendKind} {reply : (createBackend decoders kind).BroadcastReply}
    {transactionId : List Char}
    (h : (createBackend decoders kind).broadcastTransaction reply = .ok transactionId) :
    Acknowledges decoders kind reply := by
  cases kind with
  | rpc =>
    rcases Rpc.broadcastTransaction_eq_ok.1 h with ⟨model, hmodel, hpeers, rfl, hne⟩
    exact ⟨model, hmodel, hpeers, hne⟩
  | bob =>
    rcases Bob.broadcastTransaction_eq_ok.1 h with ⟨response, result, hcall, hresult, hid, hne⟩
    rcases Bob.call_answers hcall hresult with ⟨hanswers, rfl⟩
    exact ⟨response, transactionId, (Bob.call_eq_ok hcall).1, hanswers, hid, hne⟩
  | grpc =>
    rcases Lightnode.broadcastTransaction_eq_ok.1 h with ⟨response, hanswer, hok, rfl, hne⟩
    exact ⟨response, hanswer, hok, hne⟩

theorem reportsEmpty_of_ok {kind : BackendKind} {target : Nat}
    {reply : (createBackend decoders kind).TransactionsReply} {observation : TickTransactions}
    (h : (createBackend decoders kind).tickHasTransactions target reply = .ok observation)
    (hnone : observation.hasTransactions = false) : ReportsEmpty decoders kind target reply := by
  cases kind with
  | rpc =>
    rcases Rpc.tickHasTransactions_eq_ok.1 h with ⟨data, hdata, htick, rfl⟩
    refine ⟨data, hdata, fun model hmodel => ⟨htick model hmodel, ?_⟩⟩
    subst hmodel
    simpa [TickTransactions.ofPresence] using hnone
  | bob =>
    rcases Bob.tickHasTransactions_eq_ok.1 h with
      ⟨response, result, transfers, hcall, hresult, htransfers, rfl⟩
    rcases Bob.call_answers hcall hresult with ⟨hanswers, rfl⟩
    have hempty : transfers = [] := by simpa [TickTransactions.ofPresence] using hnone
    rw [hempty] at htransfers
    exact ⟨response, (Bob.call_eq_ok hcall).1, hanswers, htransfers⟩
  | grpc =>
    cases reply with
    | error code => cases h
    | ok response =>
      rcases qlnTickHasTransactions_eq_ok.1 h with ⟨hpresence, rfl⟩ |
        ⟨hcomplete, digests, -, rfl⟩
      · exact ⟨response, rfl, hpresence.ok, hpresence.tick, hnone, hpresence.absent⟩
      · refine ⟨response, rfl, hcomplete.ok, hcomplete.tick, hnone, ?_⟩
        -- a complete list is empty exactly when the tick is
        by_contra hne
        exact absurd (hcomplete.consistent.2 hne) (Bool.eq_false_iff.1 hnone)

end Replies

/-! ## Runs of the client -/

/-- In some iteration the broadcast of the target ended with a reply that acknowledges it. -/
def Acknowledged (decoders : Decoders) (kind : BackendKind)
    (inputs : List (ClientInput (createBackend decoders kind))) (i : Fin 3) (target : Nat) : Prop :=
  ∃ input ∈ inputs, ∃ reply, input.wire.broadcasts i target = some (.answered reply) ∧
    Acknowledges decoders kind reply

section

variable {decoders : Decoders} {kind : BackendKind}
  {inputs : List (ClientInput (createBackend decoders kind))} {i : Fin 3} {target : Nat}

theorem acknowledged_of_harvested (a b c : Nat) {callKind : CallKind} {redundant : Bool}
    (h : Effect.harvested target callKind redundant .ok ∈ runTrace cfg (Engine.new cfg a b c)
      (engineInputs cfg (ClientState.new (createBackend decoders kind) cfg a b c) inputs) i) :
    Acknowledged decoders kind inputs i target := by
  rcases cycle_of_harvested _ _ i h with ⟨before, cycle, later, hsplit, hresult⟩
  rcases exists_wire _ inputs hsplit with
    ⟨wire, ⟨earlier, input, rest, hinputs, rfl, -⟩, hbroadcasts, -⟩
  rw [hbroadcasts] at hresult
  rcases Option.map_eq_some_iff.1 hresult with ⟨ended, hended, hdelivery⟩
  rcases deliveryOf_eq_ok.1 hdelivery with ⟨transactionId, hok⟩
  rcases TaskEnd.result_eq_ok hok with ⟨reply, rfl, hread⟩
  exact ⟨input, by simp [hinputs], reply, hended, acknowledges_of_ok hread⟩

end

/-- Whatever the network does: a call the client holds as accepted was
acknowledged by the node, and when `run` returns `Ok` every stream had nothing
to drain or had its terminal reveal acknowledged. -/
theorem accepted_calls_acknowledged (decoders : Decoders) (kind : BackendKind) (cfg : Config)
    (a b c : Nat) (inputs : List (ClientInput (createBackend decoders kind))) (i : Fin 3) :
    let start := ClientState.new (createBackend decoders kind) cfg a b c
    let run := ((clientMachine (createBackend decoders kind) cfg).state start inputs).run
    (∀ call ∈ (run.engine.slots i).queue, call.state = .accepted →
      Acknowledged decoders kind inputs i call.targetTick) ∧
    (run.returned = some (.ok ()) → (run.engine.slots i).state = .drained .nothingToDrain ∨
      ∃ signed ∈ periodCalls
          (runTrace cfg (Engine.new cfg a b c) (engineInputs cfg start inputs) i),
        signed.kind = .terminalReveal ∧ Acknowledged decoders kind inputs i signed.targetTick) := by
  intro start run
  have hengine : run.engine = (engineMachine cfg).state (Engine.new cfg a b c)
      (engineInputs cfg start inputs) := client_engine start inputs
  have hslot : run.engine.slots i = (slotMachine cfg).state (slot₀ cfg i)
      (history cfg (Engine.new cfg a b c) (engineInputs cfg start inputs) i) := by
    rw [hengine, slots_of_log, Engine.new_slots]
  -- a delivery that went through was read from an acknowledging reply
  have hacknowledged : ∀ target, AcceptedIn (runTrace cfg (Engine.new cfg a b c)
      (engineInputs cfg start inputs) i) target → Acknowledged decoders kind inputs i target := by
    rintro target ⟨callKind, hmem⟩
    exact acknowledged_of_harvested a b c (mem_of_period hmem)
  constructor
  · intro call hcall hstate
    apply hacknowledged
    rw [hslot] at hcall
    exact acceptedIn_of_state hcall hstate
  · intro hreturned
    have hrun : run = (runMachine cfg).state (RunState.new cfg a b c)
        ((clientMachine (createBackend decoders kind) cfg).trace start inputs) :=
      client_run start inputs
    rw [hrun] at hreturned
    rcases run_ok a b c _ hreturned with ⟨hcomplete, hfailed⟩
    rw [← hrun] at hcomplete hfailed
    have hdrained := of_decide_eq_true hcomplete i
    cases hstate : (run.engine.slots i).state with
    | drained outcome =>
      cases outcome with
      | nothingToDrain => exact .inl rfl
      | failed => exact absurd ⟨i, hstate⟩ (of_decide_eq_false hfailed)
      | accepted =>
        right
        rw [hslot] at hstate
        rcases terminal_of_drained i _ hstate with ⟨signed, hsigned, hkind, haccepted⟩
        exact ⟨signed, hsigned, hkind, hacknowledged _ haccepted⟩
    | _ => simp [hstate, SlotState.isDrained] at hdrained

/-- Whatever the network does: a target counts as empty only after an iteration
with the check of that target active, in which the node answered the check and
said that the target holds no transaction. -/
theorem empty_targets_reported (decoders : Decoders) (kind : BackendKind) (cfg : Config)
    (a b c : Nat) (inputs : List (ClientInput (createBackend decoders kind))) (target : Nat) :
    let client := clientMachine (createBackend decoders kind) cfg
    let start := ClientState.new (createBackend decoders kind) cfg a b c
    (client.state start inputs).run.engine.monitor.sendOutcomes.lookup target = some .empty →
      ∃ earlier input rest, inputs = earlier ++ input :: rest ∧
        (∃ check, (client.state start earlier).run.engine.monitor.tickCheck = some check ∧
          check.targetTick = target) ∧
        ∃ reply, input.wire.tickCheck = some (.answered reply) ∧
          ReportsEmpty decoders kind target reply := by
  intro client start hempty
  have hengine : ∀ inputs, (client.state start inputs).run.engine =
      (engineMachine cfg).state (Engine.new cfg a b c) (engineInputs cfg start inputs) :=
    fun inputs => client_engine start inputs
  rw [hengine] at hempty
  rcases cycle_of_empty a b c _ hempty with
    ⟨before, cycle, later, check, observation, hsplit, hactive, rfl, hresult, hnone⟩
  rcases exists_wire start inputs hsplit with
    ⟨wire, ⟨earlier, input, rest, hinputs, rfl, hbefore⟩, -, hcheck⟩
  rw [hcheck] at hresult
  change input.wire.tickCheckResult
    ((engineMachine cfg).state (Engine.new cfg a b c) before).monitor.tickCheck = _ at hresult
  unfold WireCycle.tickCheckResult at hresult
  rw [hactive] at hresult
  rw [← hbefore, ← hengine] at hactive
  cases hended : input.wire.tickCheck with
  | none => simp [hended] at hresult
  | some ended =>
    rw [hended] at hresult
    rcases TaskEnd.result_eq_ok (Option.some.inj hresult) with ⟨reply, rfl, hread⟩
    exact ⟨earlier, input, rest, hinputs, ⟨check, hactive, rfl⟩, reply, hended,
      reportsEmpty_of_ok hread hnone⟩

/-- A client that never parses a body. -/
def sampleDecoders : Decoders where
  json _ := none
  tickInfo _ := none
  tickData _ := none
  broadcast _ := none
  base64 _ := .error .invalidPadding
  hexDetail _ := ""
  texts := { grpcDescription := fun _ => "", base64Message := fun _ => "" }

/-- An iteration at a tick with a light node that acknowledges everything and
finds nothing in the target. -/
def nodeInput (tick target : Fin 256) : ClientInput (createBackend sampleDecoders .grpc) where
  now := 1000 * tick.val
  wire :=
    { tick := some (.ok
        { ok := true
          status := some
            { epoch := 1
              tick := tick.val
              initialTick := 0
              tickDurationMs := 0
              tick_le := sampleTick_le tick } })
      now := { timestamp := 0 }
      status := some (.answered (.ok { ok := true, output := emptyStatus }))
      broadcasts := fun _ _ => some (.answered (.ok { ok := true, txId := ['a'] }))
      tickCheck := some (.answered (.ok
        { ok := true
          tick := target.val
          hasTransactions := false
          transactionDigests := []
          digestsComplete := true }))
      cancelled := false
      env := fun _ => sampleEnv
      clock :=
        { resetTickCheckAt := 1000 * tick.val, resetStatusAt := 1000 * tick.val
          resetMonitorAt := 1000 * tick.val, statusAt := 1000 * tick.val
          statusStartedAt := 1000 * tick.val, expireAt := 1000 * tick.val
          harvestAt := 1000 * tick.val, ensureExpireAt := 1000 * tick.val
          ensureAt := 1000 * tick.val } }
  observer := none
  env := fun _ => sampleEnv

def nodeRun : List (ClientInput (createBackend sampleDecoders .grpc)) :=
  (List.range 23).map fun k => nodeInput (Fin.ofNat 256 (1 + k)) 12

theorem empty_targets_reported_silent_target :
    ∃ earlier input rest, nodeRun = earlier ++ input :: rest ∧
      (∃ check, ((clientMachine (createBackend sampleDecoders .grpc) sampleConfig).state
          (ClientState.new (createBackend sampleDecoders .grpc) sampleConfig 0 0 0)
          earlier).run.engine.monitor.tickCheck = some check ∧ check.targetTick = 12) ∧
      ∃ reply, input.wire.tickCheck = some (.answered reply) ∧
        ReportsEmpty sampleDecoders .grpc 12 reply :=
  empty_targets_reported sampleDecoders .grpc sampleConfig 0 0 0 nodeRun 12
    (by decide +kernel)

end RandomClient
