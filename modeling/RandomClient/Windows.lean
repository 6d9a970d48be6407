import RandomClient.Equivocation

/-!
# Disclosure and delivery windows

When a planned call may be handed to the backend, and how its state moves. A
first commit goes out at most six ticks before its target, everything that
reveals a preimage at most four, so a preimage leaves the process at the
earliest one tick before the target of the commitment to it.
-/

namespace RandomClient

variable {cfg : Config}

/-! ## The states of a planned call -/

/-- The moves of a call's state. -/
inductive BroadcastState.Moves : BroadcastState → BroadcastState → Prop where
  | send : Moves .ready .broadcasting
  | accept : Moves .broadcasting .accepted
  | refuse : Moves .broadcasting .retry
  | fail : Moves .broadcasting .failed
  | resend : Moves .retry .broadcasting
  /-- The target came before the first send. -/
  | expire : Moves .ready .failed
  /-- The target came before the next send, or no next send is allowed. -/
  | giveUp : Moves .retry .failed

/-! ## What an operation does to a queued call -/

/-- One sweep of a queue, in a state of the slot and at a tick if the operation
has one, leaves a call as it was or treats it in one of three ways. -/
inductive PlannedCall.Swept (state : SlotState) (tick : Option Nat) (call : PlannedCall) :
    PlannedCall → Prop where
  | same : Swept state tick call call
  | harvest (results : Nat → Option Delivery) :
      Swept state tick call (harvestCall state.isShutdownDrain results call)
  | expire (currentTick firstTarget : Nat) (htick : tick = some currentTick) :
      Swept state tick call (expireCall currentTick firstTarget call)
  | dispatch (currentTick tickDurationMs : Nat) (chain : Chain) :
      Swept state tick call
        (dispatchCall (dispatchContext currentTick state chain) tickDurationMs call)

variable {tick : Option Nat}

theorem PlannedCall.Swept.keeps {state : SlotState} {call call' : PlannedCall}
    (h : call.Swept state tick call') : call.Keeps call' := by
  cases h with
  | same => exact ⟨rfl, rfl, rfl⟩
  | harvest => exact harvestCall_keeps _ _ call
  | expire => exact expireCall_keeps _ _ call
  | dispatch => exact dispatchCall_keeps _ _ call

/-- Every call queued after an operation was queued before it or signed by it. -/
def QueueAfter (slot : ManagedSlot) (tick : Option Nat) (slot' : ManagedSlot) (u : List Effect) :
    Prop :=
  ∀ call' ∈ slot'.queue, (∃ call ∈ slot.queue, call.Swept slot.state tick call') ∨
    ∃ signed, Effect.signed signed ∈ u ∧ call' = signed.planned

theorem QueueAfter.of_subset {slot slot' : ManagedSlot} {u : List Effect}
    (h : ∀ call ∈ slot'.queue, call ∈ slot.queue) : QueueAfter slot tick slot' u :=
  fun call hmem => .inl ⟨call, h call hmem, .same⟩

theorem QueueAfter.refl (slot : ManagedSlot) (u : List Effect) : QueueAfter slot tick slot u :=
  .of_subset fun _ hmem => hmem

theorem QueueAfter.of_none {slot slot' : ManagedSlot} {u : List Effect}
    (h : slot'.chain = none) : QueueAfter slot tick slot' u := by
  intro call hmem
  simp [ManagedSlot.queue, h] at hmem

theorem QueueAfter.of_map {slot slot' : ManagedSlot} {u : List Effect}
    {f : PlannedCall → PlannedCall} (hf : ∀ call : PlannedCall, call.Swept slot.state tick (f call))
    (h : slot'.queue = slot.queue.map f) : QueueAfter slot tick slot' u := by
  intro call' hmem
  rw [h] at hmem
  obtain ⟨call, hcall, rfl⟩ := List.mem_map.1 hmem
  exact .inl ⟨call, hcall, hf call⟩

/-- Signing queues the new call behind the others. -/
theorem QueueAfter.of_sign {slot slot' : ManagedSlot} {u : List Effect} {call : SignedCall}
    (hsigned : Effect.signed call ∈ u) (h : slot'.queue = slot.queue ++ [call.planned]) :
    QueueAfter slot tick slot' u := by
  intro call' hmem
  rw [h] at hmem
  rcases List.mem_append.1 hmem with hmem | hmem
  · exact .inl ⟨call', hmem, .same⟩
  · exact .inr ⟨call, hsigned, List.mem_singleton.1 hmem⟩

/-! ### Status -/

theorem beginStatusRestart_queue {after : Nat} {observed : Bool} {slot : ManagedSlot}
    {call : PlannedCall} (h : call ∈ (beginStatusRestart after observed slot).slot.queue) :
    call ∈ slot.queue := by
  unfold beginStatusRestart at h
  split at h
  · exact h
  · split at h
    · cases h
    · exact h

theorem observeStatusEvidence_queue {evidence : StatusEvidence} {requestedTick : Nat}
    {slot : ManagedSlot} {call : PlannedCall}
    (h : call ∈ (observeStatusEvidence evidence requestedTick slot).slot.queue) :
    call ∈ slot.queue := by
  unfold observeStatusEvidence at h
  split at h
  · exact h
  · rename_i chain hchain
    rw [queue_of_chain hchain]
    split at h
    · rw [queue_of_chain hchain] at h
      exact h
    · dsimp only at h
      split at h
      · exact beginStatusRestart_queue h
      · exact h

theorem applyConfirmationWatermark_queue {confirmedTick requestedTick : Nat} {slot : ManagedSlot}
    {call : PlannedCall}
    (h : call ∈ (applyConfirmationWatermark confirmedTick requestedTick slot).slot.queue) :
    call ∈ slot.queue := by
  unfold applyConfirmationWatermark applyAcknowledgement at h
  split at h
  · exact h
  · rename_i chain hchain
    rw [queue_of_chain hchain]
    split at h
    · rw [queue_of_chain hchain] at h
      exact h
    · rename_i chain' hack
      obtain ⟨_, _, rfl⟩ := Chain.acknowledge_chain (.inl hack)
      exact h
    · rename_i chain' target hack
      obtain ⟨_, _, rfl⟩ := Chain.acknowledge_chain (.inr ⟨target, hack⟩)
      exact observeStatusEvidence_queue h

theorem applyStatus_queue {observation : StatusObservation} {slot : ManagedSlot}
    {call : PlannedCall} (h : call ∈ (applyStatus observation slot).slot.queue) :
    call ∈ slot.queue := by
  unfold applyStatus at h
  dsimp only at h
  repeat' split at h
  all_goals
    first
    | exact h
    | exact observeStatusEvidence_queue h
    | have hmem := applyConfirmationWatermark_queue h
      exact hmem

/-! ### Losing and planning -/

theorem expireCalls_queueAfter (currentTick : Nat) (slot : ManagedSlot) (u : List Effect) :
    QueueAfter slot (some currentTick) (expireCalls currentTick slot).slot u := by
  unfold expireCalls
  split
  · exact .refl slot u
  · rename_i chain hchain
    have hswept : QueueAfter slot (some currentTick) { slot with chain := some { chain with
        calls := chain.calls.map (expireCall currentTick chain.firstTarget) } } u :=
      QueueAfter.of_map (fun _ => .expire currentTick _ rfl) (by rw [queue_of_chain hchain]; rfl)
    dsimp only
    split
    · exact hswept
    · split
      · exact .of_none (loseChain_chain _ _ _)
      · exact .of_none (loseChain_chain _ _ _)
      · exact .of_none rfl
      · exact hswept
      · exact hswept
      · exact hswept

/-- The loop of `extend_chain` queues what it signs. -/
theorem extendLoop_queueAfter (env : SigningEnv) (currentTick horizon fuel : Nat) (key : SlotKey)
    (chain : Chain) : ∀ call' ∈ (extendLoop cfg env currentTick horizon key fuel chain).1.calls,
      call' ∈ chain.calls ∨ ∃ signed,
        Effect.signed signed ∈ (extendLoop cfg env currentTick horizon key fuel chain).2.1 ∧
          call' = signed.planned := by
  induction fuel generalizing chain with
  | zero =>
    intro call' hmem
    exact .inl hmem
  | succ fuel ih =>
    simp only [extendLoop]
    split
    · intro call' hmem
      exact .inl hmem
    · intro call' hmem
      exact .inl hmem
    · rename_i chain' call honce
      obtain ⟨next, -, rfl⟩ := extendOnce_extends honce
      intro call' hmem
      rcases ih _ call' hmem with hold | ⟨signed, hsigned, heq⟩
      · rcases List.mem_append.1 hold with hold | hnew
        · exact .inl hold
        · exact .inr ⟨call, by simp, List.mem_singleton.1 hnew⟩
      · exact .inr ⟨signed, List.mem_cons_of_mem _ hsigned, heq⟩

theorem extendChain_queueAfter (env : SigningEnv) (currentTick : Nat) (slot : ManagedSlot) :
    QueueAfter slot (some currentTick) (extendChain cfg env currentTick slot).slot
      (extendChain cfg env currentTick slot).effects := by
  unfold extendChain
  split
  · split
    · simp only [SlotResult.followedBy]
      split
      · exact .of_none (loseChain_chain _ _ _)
      · exact expireCalls_queueAfter currentTick slot _
    · split
      · exact .refl slot _
      · split
        · exact .refl slot _
        · rename_i chain hchain
          intro call' hmem
          rcases extendLoop_queueAfter _ _ _ _ _ _ call' hmem with hold | hnew
          · exact .inl ⟨call', by rw [queue_of_chain hchain]; exact hold, .same⟩
          · exact .inr hnew
  · exact .refl slot _

theorem startIfReady_queueAfter (env : SigningEnv) (currentTick : Nat) (slot : ManagedSlot) :
    QueueAfter slot tick (startIfReady cfg env currentTick slot).slot
      (startIfReady cfg env currentTick slot).effects := by
  unfold startIfReady
  split
  · split
    · exact .refl slot _
    · split
      · exact .refl slot _
      · dsimp only
        split
        · exact .refl slot _
        · exact .of_sign List.mem_cons_self rfl
  · exact .refl slot _

theorem enterDrain_queueAfter (env : SigningEnv) (reason : DrainReason) (slot : ManagedSlot) :
    QueueAfter slot tick (enterDrain cfg env reason slot).slot
      (enterDrain cfg env reason slot).effects := by
  have hplanning : ∀ (u : List Effect), QueueAfter slot tick slot u := fun u => .refl slot u
  unfold enterDrain
  split
  · exact .refl slot _
  · exact .refl slot _
  · exact .of_subset fun _ hmem => hmem
  · exact .of_subset fun _ hmem => hmem
  all_goals
    split
    · exact hplanning _
    · rename_i chain hchain
      split
      · exact hplanning _
      · dsimp only
        split
        · exact hplanning _
        · exact .of_sign List.mem_cons_self (by rw [queue_of_chain hchain]; rfl)

/-! ### Delivery -/

theorem harvestBroadcasts_queueAfter (results : Nat → Option Delivery) (slot : ManagedSlot)
    (u : List Effect) : QueueAfter slot tick (harvestBroadcasts results slot).slot u := by
  unfold harvestBroadcasts
  split
  · exact .refl slot u
  · rename_i chain hchain
    exact .of_map (fun _ => .harvest results) (by rw [queue_of_chain hchain]; rfl)

theorem dispatchCalls_queueAfter (currentTick tickDurationMs : Nat) (slot : ManagedSlot)
    (u : List Effect) : QueueAfter slot tick (dispatchCalls currentTick tickDurationMs slot).slot u := by
  unfold dispatchCalls
  split
  · exact .refl slot u
  · rename_i chain hchain
    exact .of_map (fun _ => .dispatch currentTick tickDurationMs chain) (by rw [queue_of_chain hchain]; rfl)

theorem finishDrain_queueAfter (slot : ManagedSlot) (u : List Effect) :
    QueueAfter slot tick (finishDrain slot).slot u := by
  unfold finishDrain
  dsimp only
  split
  · split
    · exact .of_none rfl
    · exact .of_none rfl
    · exact .refl slot u
  · exact .refl slot u

theorem finishStatusRestart_queueAfter (currentTick : Nat) (slot : ManagedSlot) (u : List Effect) :
    QueueAfter slot tick (finishStatusRestart currentTick slot).slot u := by
  unfold finishStatusRestart
  split
  · split
    · exact .refl slot u
    · exact .of_none rfl
  · exact .refl slot u

theorem pruneCalls_queueAfter (currentTick : Nat) (slot : ManagedSlot) (u : List Effect) :
    QueueAfter slot tick (pruneCalls currentTick slot).slot u := by
  unfold pruneCalls
  split
  · exact .refl slot u
  · split
    · exact .refl slot u
    · rename_i chain hchain
      refine .of_subset fun call hmem => ?_
      rw [queue_of_chain hchain]
      exact (List.mem_filter.1 hmem).1

/-- Every operation sweeps the queue at most once. -/
theorem SlotOp.queueAfter (op : SlotOp) (slot : ManagedSlot) :
    QueueAfter slot op.tick (op.run cfg slot).slot (op.run cfg slot).effects := by
  cases op with
  | reset => exact .of_none rfl
  | harvestBroadcasts results => exact harvestBroadcasts_queueAfter results slot _
  | applyStatus observation => exact .of_subset fun _ => applyStatus_queue
  | enterDrain env reason => exact enterDrain_queueAfter env reason slot
  | startIfReady env currentTick => exact startIfReady_queueAfter env currentTick slot
  | extendChain env currentTick => exact extendChain_queueAfter env currentTick slot
  | expireCalls currentTick => exact expireCalls_queueAfter currentTick slot _
  | dispatchCalls currentTick tickDurationMs => exact dispatchCalls_queueAfter currentTick _ slot _
  | finishDrain => exact finishDrain_queueAfter slot _
  | finishStatusRestart currentTick => exact finishStatusRestart_queueAfter currentTick slot _
  | pruneCalls currentTick => exact pruneCalls_queueAfter currentTick slot _

/-! ## How a call's state moves -/

/-- A running task belongs to a call that is broadcasting or accepted. -/
def PlannedCall.TaskOk (call : PlannedCall) : Prop :=
  call.broadcast.isSome → call.state = .broadcasting ∨ call.state = .accepted

theorem harvestOf_broadcasting {shutdownDrain : Bool} {results : Nat → Option Delivery}
    {call : PlannedCall} (h : call.TaskOk)
    (hpending : harvestOf shutdownDrain results call ≠ .pending)
    (hredundant : ∀ result, harvestOf shutdownDrain results call ≠ .redundant result) :
    call.state = .broadcasting := by
  unfold harvestOf at hpending hredundant
  split at hpending
  · rename_i htask hresult
    have hsome : call.broadcast.isSome := by simp [htask]
    refine (h hsome).resolve_right fun haccepted => ?_
    rename_i result
    exact hredundant result (by simp [htask, hresult, haccepted])
  · exact absurd rfl hpending

/-- Expiry fails a call that was undelivered when its target came. -/
theorem expiryOf_undelivered {currentTick firstTarget : Nat} {call : PlannedCall}
    (h : expiryOf currentTick firstTarget call = .retained ∨
      expiryOf currentTick firstTarget call = .expired) :
    call.targetTick ≤ currentTick ∧ call.state ≠ .accepted ∧ call.state ≠ .failed := by
  unfold expiryOf at h
  split at h
  · simp at h
  · rename_i htarget
    split at h
    · simp at h
    · rename_i hstate
      exact ⟨not_lt.1 htarget, not_or.1 hstate⟩

/-- A sweep keeps the tasks in order. -/
theorem PlannedCall.Swept.taskOk {state : SlotState} {call call' : PlannedCall}
    (h : call.Swept state tick call') (hok : call.TaskOk) : call'.TaskOk := by
  intro hsome
  cases h with
  | same => exact hok hsome
  | harvest results =>
    unfold harvestCall at hsome ⊢
    split at hsome
    · exact hok hsome
    all_goals cases hsome
  | expire currentTick firstTarget htick =>
    unfold expireCall at hsome ⊢
    split at hsome
    · exact hok hsome
    all_goals cases hsome
  | dispatch currentTick tickDurationMs chain =>
    unfold dispatchCall at hsome ⊢
    split at hsome
    · exact hok hsome
    · -- a call that waits for a retry has no task
      rename_i hfail
      have hstate := hok hsome
      simp [(dispatchOf_failTerminal hfail).2.2] at hstate
    · rename_i hsend
      obtain ⟨-, -, -, hred, -⟩ := dispatchOf_send hsend
      exact .inr (isRedundant_eq_true.1 hred.symm).2.2.1
    · exact .inl rfl

/-- A sweep moves the state of a call by at most one move. -/
theorem PlannedCall.Swept.moves {state : SlotState} {call call' : PlannedCall}
    (h : call.Swept state tick call') (hok : call.TaskOk) : call'.state = call.state ∨ call.state.Moves call'.state := by
  cases h with
  | same => exact .inl rfl
  | harvest results =>
    have hbroadcasting := @harvestOf_broadcasting state.isShutdownDrain results call hok
    unfold harvestCall
    split
    · exact .inl rfl
    · exact .inl rfl
    · rename_i hharvest
      simp only [hharvest] at hbroadcasting
      rw [hbroadcasting nofun nofun]
      exact .inr .accept
    · rename_i hharvest
      simp only [hharvest] at hbroadcasting
      rw [hbroadcasting nofun nofun]
      exact .inr .fail
    · rename_i hharvest
      simp only [hharvest] at hbroadcasting
      rw [hbroadcasting nofun nofun]
      exact .inr .refuse
  | expire currentTick firstTarget htick =>
    have hundelivered : call.state ≠ .accepted → call.state ≠ .failed →
        call.state.Moves .failed := by
      intro haccepted hfailed
      cases hstate : call.state with
      | ready => exact .expire
      | broadcasting => exact .fail
      | retry => exact .giveUp
      | accepted => exact absurd hstate haccepted
      | failed => exact absurd hstate hfailed
    unfold expireCall
    split
    · exact .inl rfl
    · exact .inl rfl
    · rename_i hretained
      obtain ⟨-, haccepted, hfailed⟩ := expiryOf_undelivered (.inl hretained)
      exact .inr (hundelivered haccepted hfailed)
    · rename_i hexpired
      obtain ⟨-, haccepted, hfailed⟩ := expiryOf_undelivered (.inr hexpired)
      exact .inr (hundelivered haccepted hfailed)
  | dispatch currentTick tickDurationMs chain =>
    unfold dispatchCall
    split
    · exact .inl rfl
    · rename_i hfail
      rw [(dispatchOf_failTerminal hfail).2.2]
      exact .inr .giveUp
    · exact .inl rfl
    · rename_i hsend
      obtain ⟨-, -, -, -, hstate, -⟩ := dispatchOf_send hsend
      rcases hstate rfl with hstate | hstate
      · rw [hstate]
        exact .inr .send
      · rw [hstate]
        exact .inr .resend

/-- A call that is not being sent fails only when its target has come, or as the
terminal reveal of a shutdown after its one attempt. -/
theorem PlannedCall.Swept.failed {state : SlotState} {call call' : PlannedCall}
    (h : call.Swept state tick call') (hok : call.TaskOk)
    (hbefore : call.state = .ready ∨ call.state = .retry) (hfailed : call'.state = .failed) :
    (∃ currentTick, tick = some currentTick ∧ call.targetTick ≤ currentTick) ∨
      (call.state = .retry ∧ call.kind = .terminalReveal ∧ state.isShutdownDrain = true) := by
  have hidle : call.broadcast = none := by
    by_contra htask
    have hstate := hok (Option.isSome_iff_ne_none.2 htask)
    rcases hbefore with hbefore | hbefore <;> simp [hbefore] at hstate
  cases h with
  | same => rcases hbefore with hbefore | hbefore <;> simp [hbefore] at hfailed
  | harvest results =>
    have hpending : harvestOf state.isShutdownDrain results call = .pending := by
      simp [harvestOf, hidle]
    rcases hbefore with hbefore | hbefore <;> simp [harvestCall, hpending, hbefore] at hfailed
  | expire currentTick firstTarget htick =>
    refine .inl ⟨currentTick, htick, ?_⟩
    unfold expireCall at hfailed
    split at hfailed
    · rcases hbefore with hbefore | hbefore <;> simp [hbefore] at hfailed
    · rcases hbefore with hbefore | hbefore <;> simp [hbefore] at hfailed
    · rename_i hretained
      exact (expiryOf_undelivered (.inl hretained)).1
    · rename_i hexpired
      exact (expiryOf_undelivered (.inr hexpired)).1
  | dispatch currentTick tickDurationMs chain =>
    right
    unfold dispatchCall at hfailed
    split at hfailed
    · rcases hbefore with hbefore | hbefore <;> simp [hbefore] at hfailed
    · rename_i hfail
      obtain ⟨hkind, hdrain, hretry⟩ := dispatchOf_failTerminal hfail
      refine ⟨hretry, hkind, ?_⟩
      unfold dispatchContext at hdrain
      cases state with
      | draining reason target =>
        obtain rfl := Option.some.inj hdrain
        rfl
      | _ => cases hdrain
    · rcases hbefore with hbefore | hbefore <;> simp [hbefore] at hfailed
    · cases hfailed

theorem slotMachine_taskOk (i : Fin 3) (ops : List SlotOp) :
    ∀ call ∈ ((slotMachine cfg).state (slot₀ cfg i) ops).queue, call.TaskOk := by
  refine (slotMachine cfg).state_invariant (slot₀ cfg i)
    (fun slot => ∀ call ∈ slot.queue, call.TaskOk) ?_ ?_ ops
  · intro call hmem
    cases hmem
  · intro slot op ih call' hmem
    rcases op.queueAfter slot call' hmem with ⟨call, hcall, hswept⟩ | ⟨signed, -, rfl⟩
    · exact hswept.taskOk (ih call hcall)
    · intro hsome
      cases hsome

/-! ## Disclosure -/

/-- A call other than a first commit follows a call of its epoch. -/
theorem PlanInv.previous {stream : Nat} {t : List Effect} {p : PlanState}
    (hinv : PlanInv cfg stream t p) {call : SignedCall} (hmem : call ∈ periodCalls t)
    (hkind : call.kind ≠ .firstCommit) : ∃ previous ∈ periodCalls t, Follows cfg previous call := by
  obtain ⟨pre, post, hsplit⟩ := List.append_of_mem hmem
  rcases List.eq_nil_or_concat pre with rfl | ⟨pre, previous, rfl⟩
  · obtain ⟨_, hstarts⟩ := hinv.first call (by simp [hsplit])
    exact absurd hstarts.kind hkind
  · have hsucc := hinv.succeeds
    rw [hsplit, List.isChain_append] at hsucc
    obtain ⟨-, -, ⟨-, -, hfollows⟩ | ⟨_, hstarts⟩⟩ :=
      hsucc.2.2 previous (by simp) call (by simp)
    · exact ⟨previous, by simp [hsplit], hfollows⟩
    · exact absurd hstarts.kind hkind

/-- A first commit reveals nothing. -/
theorem PlanInv.opening {stream : Nat} {t : List Effect} {p : PlanState}
    (hinv : PlanInv cfg stream t p) {call : SignedCall} (hmem : call ∈ periodCalls t)
    (hkind : call.kind = .firstCommit) : call.input.reveal = Preimage.zero := by
  obtain ⟨pre, post, hsplit⟩ := List.append_of_mem hmem
  rcases List.eq_nil_or_concat pre with rfl | ⟨pre, previous, rfl⟩
  · obtain ⟨_, hstarts⟩ := hinv.first call (by simp [hsplit])
    exact hstarts.reveal
  · have hsucc := hinv.succeeds
    rw [hsplit, List.isChain_append] at hsucc
    obtain ⟨-, -, ⟨hlater, -⟩ | ⟨_, hstarts⟩⟩ := hsucc.2.2 previous (by simp) call (by simp)
    · exact absurd hkind hlater
    · exact hstarts.reveal

variable (cfg) in
/-- No two signed calls of a run commit to one preimage, and none to the zero preimage. -/
structure DistinctDraws (e : Engine) (inputs : List EngineInput) : Prop where
  nonzero : ∀ i call, Effect.signed call ∈ runTrace cfg e inputs i →
    call.preimage ≠ some Preimage.zero
  distinct : ∀ i j call call' preimage, Effect.signed call ∈ runTrace cfg e inputs i →
    Effect.signed call' ∈ runTrace cfg e inputs j → call.preimage = some preimage →
      call'.preimage = some preimage → call = call'

instance (e : Engine) (inputs : List EngineInput) : Decidable (DistinctDraws cfg e inputs) :=
  decidable_of_iff (∀ i, ∀ call ∈ signedCalls (runTrace cfg e inputs i),
    call.preimage ≠ some Preimage.zero ∧ ∀ j, ∀ call' ∈ signedCalls (runTrace cfg e inputs j),
      call.preimage.isSome → call.preimage = call'.preimage → call = call') <| by
    constructor
    · intro h
      refine ⟨fun i call hcall => (h i call (mem_signedCalls.2 hcall)).1, ?_⟩
      intro i j call call' preimage hcall hcall' hpreimage hpreimage'
      exact (h i call (mem_signedCalls.2 hcall)).2 j call' (mem_signedCalls.2 hcall')
        (by simp [hpreimage]) (hpreimage.trans hpreimage'.symm)
    · intro h i call hcall
      refine ⟨h.nonzero i call (mem_signedCalls.1 hcall), ?_⟩
      intro j call' hcall' hsome heq
      obtain ⟨preimage, hpreimage⟩ := Option.isSome_iff_exists.1 hsome
      exact h.distinct i j call call' preimage (mem_signedCalls.1 hcall)
        (mem_signedCalls.1 hcall') hpreimage (heq ▸ hpreimage)

/-- A call that is sent at most four ticks before its target, six for a first
commit, reveals a preimage at most one tick before the target of its commitment. -/
theorem disclosed_after {stream : Nat} {t : List Effect} {p : PlanState} {e : Engine}
    {inputs : List EngineInput} (hdraws : DistinctDraws cfg e inputs)
    (hinv : PlanInv cfg stream t p) {i : Fin 3} (hrun : t <+: runTrace cfg e inputs i)
    {call : SignedCall} (hmem : call ∈ periodCalls t) {tick : Nat}
    (hwindow : call.targetTick ≤ tick + sendLead call.kind) {j : Fin 3} {committed : SignedCall}
    (hcommitted : Effect.signed committed ∈ runTrace cfg e inputs j)
    (hpreimage : committed.preimage = some call.input.reveal) :
    committed.targetTick ≤ tick + 1 := by
  by_cases hkind : call.kind = .firstCommit
  · rw [hinv.opening hmem hkind] at hpreimage
    exact absurd hpreimage (hdraws.nonzero j committed hcommitted)
  · obtain ⟨previous, hprevious, hfollows⟩ := hinv.previous hmem hkind
    have hsigned : Effect.signed previous ∈ runTrace cfg e inputs i :=
      hrun.subset (signed_mem_of_periodCalls hprevious)
    obtain rfl := hdraws.distinct j i committed previous _ hcommitted hsigned hpreimage
      hfollows.reveal
    have htarget : call.targetTick = committed.targetTick + streamCount := hfollows.target
    have hlead : sendLead call.kind ≤ revealSendLeadTicks := by
      cases hcall : call.kind with
      | firstCommit => exact absurd hcall hkind
      | revealAndCommit => exact le_rfl
      | terminalReveal => exact le_rfl
    simp only [streamCount, revealSendLeadTicks] at htarget hlead
    omega

/-! ## The windows -/

/-- The conditions of the additional send of an accepted call. -/
structure AdditionalSend (slot : ManagedSlot) (tick target : Nat) (kind : CallKind) : Prop where
  planning : slot.state.isPlanning = true
  current : ∃ chain, slot.chain = some chain ∧ chain.firstTarget ≤ target
  not_terminal : kind ≠ .terminalReveal
  commit : kind = .firstCommit → target = tick + 3 ∨ target = tick + 4
  reveal : kind = .revealAndCommit → target = tick + 3

theorem additionalSend {slot : ManagedSlot} {chain : Chain} {call : PlannedCall} {tick : Nat}
    (hchain : slot.chain = some chain)
    (hsend : dispatchOf (dispatchContext tick slot.state chain) call = .send true) :
    AdditionalSend slot tick call.targetTick call.kind := by
  obtain ⟨hafter, -, -, hred, -⟩ := dispatchOf_send hsend
  obtain ⟨hallowed, hfirst, -, hkind, -, hlate, hlead⟩ := isRedundant_eq_true.1 hred.symm
  simp only [dispatchContext, tickDataPublicationLeadTicks] at hafter hlate hlead
  refine ⟨hallowed, ⟨chain, hchain, hfirst⟩, hkind, ?_, ?_⟩
  · intro hcommit
    simp only [hcommit, redundantLead, redundantSendLeadTicks] at hlead
    omega
  · intro hreveal
    simp only [hreveal, redundantLead] at hlead
    omega

/-- A send hands out the signed bytes of a queued call inside its window. Once
the call is accepted a send is its one additional one. -/
theorem send_window {i : Fin 3} {slot : ManagedSlot} {t : List Effect}
    (hrun : SlotRun cfg (slot₀ cfg i) t slot) {op : SlotOp} {tick target : Nat} {kind : CallKind}
    {redundant : Bool} {task : BroadcastTask}
    (h : Effect.handed tick target kind redundant task ∈ (op.run cfg slot).effects) :
    ∃ signed ∈ periodCalls t, ∃ call ∈ slot.queue, signed.Records call ∧
      call.targetTick = target ∧ call.kind = kind ∧ task.txBytes = signed.txBytes ∧
      tick < target ∧ target ≤ tick + sendLead kind ∧
      (call.state = .accepted ↔ redundant = true) ∧
      (redundant = true → AdditionalSend slot tick target kind) := by
  obtain ⟨tickDurationMs, chain, call, rfl, hchain, hcall, rfl, rfl, hsend, rfl⟩ := SlotOp.handed h
  obtain ⟨hafter, hhorizon, -, hred, hstate, -⟩ := dispatchOf_send hsend
  rw [← queue_of_chain hchain] at hcall
  obtain ⟨signed, hsigned, hrec⟩ := hrun.slotInv.queue.recorded call hcall
  refine ⟨signed, hsigned, call, hcall, hrec, rfl, rfl, hrec.bytes.symm, hafter,
    hhorizon.trans (Bounded.saturatingAdd_le_add _ _ _), ⟨?_, ?_⟩, ?_⟩
  · intro haccepted
    by_contra hfirst
    rcases hstate (by simpa using hfirst) with hready | hretry <;> simp_all
  · intro htrue
    rw [htrue] at hred
    exact (isRedundant_eq_true.1 hred.symm).2.2.1
  · rintro rfl
    exact additionalSend hchain hsend

/-- Whatever the inputs of a run, every send hands out the signed bytes of a
planned call inside the window of its kind, so no preimage leaves earlier than
one tick before the target of its commitment; the state of a planned call moves
only as `BroadcastState.Moves` says, and one that is not being sent fails only
when its target has come or a shutdown gives its terminal reveal up; and an
accepted call is sent at most once more, under the conditions of
`AdditionalSend`. -/
theorem disclosure_and_delivery_windows (a b c : Nat) (inputs : List EngineInput) (i : Fin 3)
    {ops : List SlotOp} {op : SlotOp}
    (hops : ops ++ [op] <+: history cfg (Engine.new cfg a b c) inputs i) :
    let slot := (slotMachine cfg).state (slot₀ cfg i) ops
    let t := (slotMachine cfg).trace (slot₀ cfg i) ops
    (∀ tick target kind redundant task,
      Effect.handed tick target kind redundant task ∈ (op.run cfg slot).effects →
        ∃ signed ∈ periodCalls t, ∃ call ∈ slot.queue, signed.Records call ∧
          call.targetTick = target ∧ call.kind = kind ∧ task.txBytes = signed.txBytes ∧
          tick < target ∧ target ≤ tick + sendLead kind ∧
          (DistinctDraws cfg (Engine.new cfg a b c) inputs → ∀ j committed,
            Effect.signed committed ∈ runTrace cfg (Engine.new cfg a b c) inputs j →
              committed.preimage = some signed.input.reveal → committed.targetTick ≤ tick + 1) ∧
          (call.state = .accepted ↔ redundant = true) ∧
          (redundant = true → AdditionalSend slot tick target kind)) ∧
    (∀ call' ∈ (op.run cfg slot).slot.queue,
      (∃ call ∈ slot.queue, call.Keeps call' ∧
        (call'.state = call.state ∨ call.state.Moves call'.state) ∧
        (call.state = .ready ∨ call.state = .retry → call'.state = .failed →
          (∃ tick, op.tick = some tick ∧ call.targetTick ≤ tick) ∨
            (call.state = .retry ∧ call.kind = .terminalReveal ∧
              slot.state.isShutdownDrain = true))) ∨
      ∃ signed, Effect.signed signed ∈ (op.run cfg slot).effects ∧ call' = signed.planned) ∧
    ∀ target, (period (t ++ (op.run cfg slot).effects)).countP (Effect.resends target) ≤ 1 := by
  intro slot t
  have hrun : SlotRun cfg (slot₀ cfg i) t slot := slotMachine_run i ops
  refine ⟨?_, ?_, ?_⟩
  · intro tick target kind redundant task hsend
    obtain ⟨signed, hsigned, call, hcall, hrec, htarget, hkind, hbytes, hafter, hbefore, haccepted,
      hadditional⟩ := send_window hrun hsend
    refine ⟨signed, hsigned, call, hcall, hrec, htarget, hkind, hbytes, hafter, hbefore, ?_,
      haccepted, hadditional⟩
    intro hdraws j committed hcommitted hpreimage
    obtain ⟨p, -, hinv⟩ := hrun.planned
    obtain ⟨rest, hrest⟩ := hops
    have hbegun : t <+: runTrace cfg (Engine.new cfg a b c) inputs i := by
      rw [runTrace, ← hrest, List.append_assoc, Machine.trace_append]
      exact List.prefix_append _ _
    refine disclosed_after hdraws hinv hbegun hsigned ?_ hcommitted hpreimage
    rw [hrec.target, hrec.kind, htarget, hkind]
    exact hbefore
  · intro call' hmem
    rcases op.queueAfter slot call' hmem with ⟨call, hcall, hswept⟩ | hnew
    · have hok := slotMachine_taskOk i ops call hcall
      exact .inl ⟨call, hcall, hswept.keeps, hswept.moves hok, hswept.failed hok⟩
    · exact .inr hnew
  · have hnext : SlotRun cfg (slot₀ cfg i) (t ++ (op.run cfg slot).effects)
        (op.run cfg slot).slot := by
      rw [← slotMachine_trace_snoc, ← slotMachine_state_snoc]
      exact slotMachine_run i (ops ++ [op])
    exact hnext.sendInv.once

/-- At tick 6 the reveal for target 10 goes out, and what it reveals was
committed to for a target of at most 7. -/
theorem disclosure_and_delivery_windows_reveal :
    let inputs := steadyRun [0, 1, 2, 3, 4, 5, 6]
    let ops := history sampleConfig sampleEngine inputs 1
    let slot := (slotMachine sampleConfig).state (slot₀ sampleConfig 1) (ops.take 59)
    let t := (slotMachine sampleConfig).trace (slot₀ sampleConfig 1) (ops.take 59)
    ∃ op ∈ ops[59]?,
      Effect.handed 6 10 .revealAndCommit false
        { txBytes := 10 :: RevealAndCommitInput.encode
            { reveal := samplePreimage 7, commit := sampleConfig.commitDigest (samplePreimage 10) }
          attemptTimeoutMs := 1950 } ∈ (op.run sampleConfig slot).effects ∧
      ∃ signed ∈ periodCalls t, signed.txBytes = 10 :: RevealAndCommitInput.encode
          { reveal := samplePreimage 7, commit := sampleConfig.commitDigest (samplePreimage 10) } ∧
        ∀ j committed, Effect.signed committed ∈ runTrace sampleConfig sampleEngine inputs j →
          committed.preimage = some signed.input.reveal → committed.targetTick ≤ 7 := by
  intro inputs ops slot t
  have hsent : ∃ op ∈ ops[59]?, Effect.handed 6 10 .revealAndCommit false
      { txBytes := 10 :: RevealAndCommitInput.encode
          { reveal := samplePreimage 7, commit := sampleConfig.commitDigest (samplePreimage 10) }
        attemptTimeoutMs := 1950 } ∈ (op.run sampleConfig slot).effects := by decide +kernel
  obtain ⟨op, hop, hsend⟩ := hsent
  have hdraws : DistinctDraws sampleConfig sampleEngine inputs := by decide +kernel
  have hresult := @disclosure_and_delivery_windows sampleConfig 0 0 0 inputs 1 _ _
    (takeSnoc_isPrefix hop)
  obtain ⟨signed, hsigned, _, _, _, _, _, hbytes, _, _, hdisclosed, _⟩ := hresult.1 _ _ _ _ _ hsend
  exact ⟨op, hop, hsend, signed, hsigned, hbytes.symm, hdisclosed hdraws⟩

/-- The moves of a call that is sent before its target. -/
inductive BroadcastState.SentMoves : BroadcastState → BroadcastState → Prop where
  | send : SentMoves .ready .broadcasting
  | accept : SentMoves .broadcasting .accepted
  | refuse : SentMoves .broadcasting .retry
  | fail : SentMoves .broadcasting .failed
  | resend : SentMoves .retry .broadcasting
  | giveUp : SentMoves .retry .failed

/-- Twelve cycles, in which status freezes the chain of stream 1 before its call
for target 16 is sent, and a jump to that target. -/
def skippedRun : List EngineInput :=
  steadyRun [0, 1, 2, 3, 4, 5, 6, 7, 8, 9, 10, 11] ++ steadyRun [16]

/-- A call whose target comes before its first send fails unsent. -/
theorem failed_unsent :
    ¬ ∀ ops op, ops ++ [op] <+: history sampleConfig sampleEngine skippedRun 1 →
      let slot := (slotMachine sampleConfig).state (slot₀ sampleConfig 1) ops
      ∀ call ∈ slot.queue, ∀ call' ∈ (op.run sampleConfig slot).slot.queue,
        call'.targetTick = call.targetTick →
          call'.state = call.state ∨ call.state.SentMoves call'.state := by
  intro h
  obtain ⟨op, hop, call, hcall, call', hcall', htarget, hready, hfailed⟩ :
      let ops := history sampleConfig sampleEngine skippedRun 1
      let slot := (slotMachine sampleConfig).state (slot₀ sampleConfig 1) (ops.take 112)
      ∃ op ∈ ops[112]?, ∃ call ∈ slot.queue, ∃ call' ∈ (op.run sampleConfig slot).slot.queue,
        call'.targetTick = call.targetTick ∧ call.state = .ready ∧ call'.state = .failed := by
    decide +kernel
  rcases h _ _ (takeSnoc_isPrefix hop) call hcall call' hcall' htarget with hsame | hmoves
  · rw [hready, hfailed] at hsame
    cases hsame
  · rw [hready, hfailed] at hmoves
    cases hmoves

end RandomClient
