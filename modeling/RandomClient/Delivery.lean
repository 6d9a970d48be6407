import RandomClient.Status

/-!
# Delivery of planned calls

Expiry, dispatch and harvest of the planned calls of a slot, and the functions
that finish a drain or a frozen tail and prune the queue. Each loop over the
queue treats every call on its own: a small function decides what happens to a
call, and the loop maps it over the queue.
-/

namespace RandomClient

/-! ## Losing a chain -/

/-- `lose_chain`: discard the local chain and wait for a fresh absence. -/
def loseChain (absenceAfterTick : Nat) (absenceObserved : Bool) (slot : ManagedSlot) :
    SlotResult :=
  let oldTail := match slot.chain with
    | some chain => chain.lastTarget
    | none => slot.restartAt
  match checkedAdd oldTail streamCount with
  | none =>
    { slot := { slot with chain := none, restartAt := u32Max, state := .drained .failed }
      effects := abortChain slot.chain }
  | some restartAt =>
    { slot := { slot with
        chain := none
        restartAt := restartAt
        state := .waiting absenceAfterTick absenceObserved }
      effects := abortChain slot.chain }

/-- `complete_drain`. -/
def completeDrain (outcome : DrainOutcome) (slot : ManagedSlot) : SlotResult where
  slot := { slot with chain := none, state := .drained outcome }
  effects := abortChain slot.chain

/-! ## Expiry -/

/-- What `expire_calls` finds a call to be. -/
inductive Expiry where
  /-- The target is still ahead. -/
  | future
  /-- The target passed, and the call was accepted or had failed before. -/
  | settled
  /-- The target passed on a call retained from an older chain. -/
  | retained
  /-- The target passed on an undelivered call of the current chain. -/
  | expired
deriving DecidableEq, Repr

def expiryOf (currentTick firstTarget : Nat) (call : PlannedCall) : Expiry :=
  if currentTick < call.targetTick then .future
  else if call.state = .accepted ∨ call.state = .failed then .settled
  else if call.targetTick < firstTarget then .retained
  else .expired

/-- One call after the loop of `expire_calls`. -/
def expireCall (currentTick firstTarget : Nat) (call : PlannedCall) : PlannedCall :=
  match expiryOf currentTick firstTarget call with
  | .future => call
  | .settled => { call with broadcast := none }
  | .retained | .expired => { call with broadcast := none, state := .failed }

/-- The tasks the loop of `expire_calls` aborts. -/
def expireAborts (currentTick : Nat) (calls : List PlannedCall) : List Effect :=
  abortCalls (calls.filter fun call => call.targetTick ≤ currentTick)

/-- The calls of the current chain that expire undelivered. -/
def expiredCalls (currentTick firstTarget : Nat) (calls : List PlannedCall) :
    List PlannedCall :=
  calls.filter fun call => expiryOf currentTick firstTarget call = .expired

/-- `first_expired_normal`. -/
def firstExpiredNormal (expired : List PlannedCall) : Option Nat :=
  (expired.find? fun call => call.kind = .revealAndCommit).map PlannedCall.targetTick

/-- `attempted_terminal`: a terminal reveal that expired after a send. -/
def attemptedTerminal (expired : List PlannedCall) : Option Nat :=
  ((expired.filter fun call =>
    call.kind = .terminalReveal ∧ (call.state = .broadcasting ∨ call.state = .retry)).getLast?).map
      PlannedCall.targetTick

/-- The target whose collateral an expiry loses, by the state of the slot. -/
def expiryFailure (state : SlotState) (expired : List PlannedCall) : Option Nat :=
  match state with
  | .starting _ | .active => firstExpiredNormal expired
  | .draining _ _ => (firstExpiredNormal expired).or (attemptedTerminal expired)
  | .restarting _ _ _ _ | .waiting _ _ | .drained _ => none

/-- `expire_calls`. -/
def expireCalls (currentTick : Nat) (slot : ManagedSlot) : SlotResult :=
  match slot.chain with
  | none => { slot := slot }
  | some chain =>
    let expired := expiredCalls currentTick chain.firstTarget chain.calls
    let calls := chain.calls.map (expireCall currentTick chain.firstTarget)
    let swept : SlotResult :=
      { slot := { slot with chain := some { chain with calls := calls } }
        effects := expireAborts currentTick chain.calls }
    if expired.isEmpty then swept
    else
      let failure := match expiryFailure slot.state expired with
        | some target => [Effect.financialFailure target]
        | none => []
      let noted := { swept with effects := swept.effects ++ failure }
      match slot.state with
      | .starting _ | .active =>
        noted.followedBy (loseChain (saturatingAdd currentTick 1) false)
      | .draining _ _ => noted.followedBy (completeDrain .failed)
      | .restarting _ _ _ _ | .waiting _ _ | .drained _ => noted

/-! ## Dispatch -/

/-- `broadcast_attempt_timeout`, in milliseconds. -/
def broadcastAttemptTimeout (leadTicks tickDurationMs : Nat) : Nat :=
  let remaining := leadTicks * max tickDurationMs 1
  let reserve := min remaining pollIntervalMs
  let budget := max (remaining - reserve) 1
  min (min (max (budget / 2) minBroadcastAttemptMs) maxBroadcastAttemptMs) (max remaining 1)

/-- How far ahead of its target a call of the kind may be sent. -/
def sendLead : CallKind → Nat
  | .firstCommit => sendLeadTicks
  | .revealAndCommit | .terminalReveal => revealSendLeadTicks

/-- How far ahead of its target the additional broadcast of an accepted call may start. -/
def redundantLead : CallKind → Nat
  | .firstCommit => redundantSendLeadTicks
  | .revealAndCommit => 3
  | .terminalReveal => 0

/-- What `dispatch_calls` reads once before its loop. -/
structure DispatchContext where
  currentTick : Nat
  firstTarget : Nat
  redundantAllowed : Bool
  drain : Option (DrainReason × Nat)
  terminalReady : Bool
deriving DecidableEq, Repr

/-- What the loop of `dispatch_calls` does with a call. -/
inductive Dispatch where
  | skip
  | failTerminal
  | send (redundant : Bool)
deriving DecidableEq, Repr

/-- The condition for one additional broadcast of an accepted call. -/
def isRedundant (ctx : DispatchContext) (call : PlannedCall) : Bool :=
  ctx.redundantAllowed ∧ ctx.firstTarget ≤ call.targetTick ∧ call.state = .accepted ∧
    call.kind ≠ .terminalReveal ∧ call.redundantAttempted = false ∧
    tickDataPublicationLeadTicks < call.targetTick - ctx.currentTick ∧
    call.targetTick - ctx.currentTick ≤ redundantLead call.kind

/-- The decision of the loop of `dispatch_calls` for one call. -/
def dispatchOf (ctx : DispatchContext) (call : PlannedCall) : Dispatch :=
  let horizon := saturatingAdd ctx.currentTick (sendLead call.kind)
  if call.targetTick ≤ ctx.currentTick ∨ horizon < call.targetTick then .skip
  else if call.kind = .terminalReveal ∧ ctx.terminalReady = false then .skip
  else if isRedundant ctx call = false ∧ call.state ≠ .ready ∧ call.state ≠ .retry then .skip
  else if call.kind = .terminalReveal ∧ (ctx.drain.map Prod.fst) = some .shutdown ∧
      call.state = .retry then .failTerminal
  else .send (isRedundant ctx call)

/-- The task a send of the call spawns. -/
def broadcastTask (currentTick tickDurationMs : Nat) (call : PlannedCall) : BroadcastTask where
  txBytes := call.txBytes
  attemptTimeoutMs := broadcastAttemptTimeout (call.targetTick - currentTick) tickDurationMs

/-- One call after the loop of `dispatch_calls`. -/
def dispatchCall (ctx : DispatchContext) (tickDurationMs : Nat) (call : PlannedCall) :
    PlannedCall :=
  match dispatchOf ctx call with
  | .skip => call
  | .failTerminal => { call with state := .failed }
  | .send true =>
    { call with
      broadcast := some (broadcastTask ctx.currentTick tickDurationMs call)
      redundantAttempted := true }
  | .send false =>
    { call with
      broadcast := some (broadcastTask ctx.currentTick tickDurationMs call)
      state := .broadcasting }

/-- The effects of the loop of `dispatch_calls` for one call. -/
def dispatchEffects (ctx : DispatchContext) (tickDurationMs : Nat) (call : PlannedCall) :
    List Effect :=
  match dispatchOf ctx call with
  | .skip | .failTerminal => []
  | .send redundant =>
    (if call.kind = .firstCommit then [] else [.digest call.targetTick call.txBytes]) ++
      [.handed ctx.currentTick call.targetTick call.kind redundant
        (broadcastTask ctx.currentTick tickDurationMs call)]

/-- `terminal_ready`: every call of the current chain up to the terminal target was accepted. -/
def terminalReady (state : SlotState) (chain : Chain) : Bool :=
  match state with
  | .draining _ terminalTarget =>
    chain.calls.all fun call =>
      call.targetTick < chain.firstTarget ∨ call.kind = .terminalReveal ∨
        terminalTarget < call.targetTick ∨ call.state = .accepted
  | _ => true

/-- The context `dispatch_calls` computes for a chain. -/
def dispatchContext (currentTick : Nat) (state : SlotState) (chain : Chain) :
    DispatchContext where
  currentTick := currentTick
  firstTarget := chain.firstTarget
  redundantAllowed := state.isPlanning
  drain := match state with
    | .draining reason terminalTarget => some (reason, terminalTarget)
    | _ => none
  terminalReady := terminalReady state chain

/-- `failed_terminal_target`: the last terminal reveal the loop gave up. -/
def failedTerminalTarget (ctx : DispatchContext) (calls : List PlannedCall) : Option Nat :=
  ((calls.filter fun call => dispatchOf ctx call = .failTerminal).getLast?).map
    PlannedCall.targetTick

/-- `dispatch_calls`. -/
def dispatchCalls (currentTick tickDurationMs : Nat) (slot : ManagedSlot) : SlotResult :=
  match slot.chain with
  | none => { slot := slot }
  | some chain =>
    let ctx := dispatchContext currentTick slot.state chain
    let calls := chain.calls.map (dispatchCall ctx tickDurationMs)
    let failure := match failedTerminalTarget ctx chain.calls with
      | some target => [Effect.financialFailure target]
      | none => []
    { slot := { slot with chain := some { chain with calls := calls } }
      effects := chain.calls.flatMap (dispatchEffects ctx tickDurationMs) ++ failure }

/-! ## Harvest -/

/-- What `harvest_broadcasts` finds a call's task to be. `results` gives the
result of the task of a target once that task has finished. -/
inductive Harvest where
  /-- No task, or a task still running. -/
  | pending
  /-- The additional broadcast of an accepted call finished. -/
  | redundant (result : Delivery)
  /-- The backend accepted the call. -/
  | accepted
  /-- The one attempt of a shutdown's terminal reveal failed. -/
  | failedTerminal
  /-- The attempt failed and will be repeated. -/
  | retry
deriving DecidableEq, Repr

def harvestOf (shutdownDrain : Bool) (results : Nat → Option Delivery) (call : PlannedCall) :
    Harvest :=
  match call.broadcast, results call.targetTick with
  | some _, some result =>
    if call.state = .accepted then .redundant result
    else
      match result with
      | .ok => .accepted
      | .err => if shutdownDrain ∧ call.kind = .terminalReveal then .failedTerminal else .retry
  | _, _ => .pending

/-- Only the terminal reveal of a shutdown fails for good at its harvest. -/
theorem harvestOf_failedTerminal {shutdownDrain : Bool} {results : Nat → Option Delivery}
    {call : PlannedCall} (h : harvestOf shutdownDrain results call = .failedTerminal) :
    shutdownDrain = true ∧ call.kind = .terminalReveal := by
  unfold harvestOf at h
  split at h
  · split at h
    · cases h
    · split at h
      · cases h
      · split at h
        · assumption
        · cases h
  · cases h

/-- One call after the loop of `harvest_broadcasts`. -/
def harvestCall (shutdownDrain : Bool) (results : Nat → Option Delivery) (call : PlannedCall) :
    PlannedCall :=
  match harvestOf shutdownDrain results call with
  | .pending => call
  | .redundant _ => { call with broadcast := none }
  | .accepted => { call with broadcast := none, state := .accepted }
  | .failedTerminal => { call with broadcast := none, state := .failed }
  | .retry => { call with broadcast := none, state := .retry }

/-- The join of one call's task. -/
def harvestEffects (shutdownDrain : Bool) (results : Nat → Option Delivery)
    (call : PlannedCall) : List Effect :=
  match harvestOf shutdownDrain results call with
  | .pending => []
  | .redundant result => [.harvested call.targetTick call.kind true result]
  | .accepted => [.harvested call.targetTick call.kind false .ok]
  | .failedTerminal | .retry => [.harvested call.targetTick call.kind false .err]

/-- `accepted_normal_targets`. -/
def acceptedNormalTargets (shutdownDrain : Bool) (results : Nat → Option Delivery)
    (calls : List PlannedCall) : List Nat :=
  (calls.filter fun call =>
    harvestOf shutdownDrain results call = .accepted ∧ call.kind = .revealAndCommit).map
      PlannedCall.targetTick

/-- `failed_terminal_targets`. -/
def failedTerminalTargets (shutdownDrain : Bool) (results : Nat → Option Delivery)
    (calls : List PlannedCall) : List Nat :=
  (calls.filter fun call => harvestOf shutdownDrain results call = .failedTerminal).map
    PlannedCall.targetTick

/-- `matches!(state, Draining { reason: Shutdown, .. })`. -/
def SlotState.isShutdownDrain : SlotState → Bool
  | .draining .shutdown _ => true
  | _ => false

/-- `harvest_broadcasts`. -/
def harvestBroadcasts (results : Nat → Option Delivery) (slot : ManagedSlot) : SlotResult :=
  match slot.chain with
  | none => { slot := slot }
  | some chain =>
    let shutdownDrain := slot.state.isShutdownDrain
    { slot := { slot with chain := some { chain with
        calls := chain.calls.map (harvestCall shutdownDrain results) } }
      effects :=
        chain.calls.flatMap (harvestEffects shutdownDrain results) ++
        (acceptedNormalTargets shutdownDrain results chain.calls).map Effect.recordedOk ++
        (failedTerminalTargets shutdownDrain results chain.calls).map Effect.financialFailure }

/-! ## Finishing and pruning -/

/-- `finish_drain`. -/
def finishDrain (slot : ManagedSlot) : SlotResult :=
  if slot.state.isDraining then
    let terminalState := slot.chain.bind fun chain =>
      (chain.calls.find? fun call => call.kind = .terminalReveal).map PlannedCall.state
    match terminalState with
    | some .accepted => completeDrain .accepted slot
    | some .failed => completeDrain .failed slot
    | _ => { slot := slot }
  else { slot := slot }

/-- `finish_status_restart`. -/
def finishStatusRestart (currentTick : Nat) (slot : ManagedSlot) : SlotResult :=
  match slot.state with
  | .restarting frozenTail absenceAfterTick absenceObserved drainReason =>
    if currentTick < frozenTail then { slot := slot }
    else
      let state := match drainReason with
        | some _ => SlotState.drained .nothingToDrain
        | none => .waiting absenceAfterTick absenceObserved
      { slot := { slot with chain := none, state := state }
        effects := abortChain slot.chain }
  | _ => { slot := slot }

/-- The calls `prune_calls` keeps: retained calls until their target, calls of
the current chain until they are accepted and behind. -/
def keepsCall (currentTick firstTarget : Nat) (call : PlannedCall) : Bool :=
  if call.targetTick < firstTarget then currentTick < call.targetTick
  else currentTick ≤ call.targetTick ∨ call.state ≠ .accepted

/-- `prune_calls`. -/
def pruneCalls (currentTick : Nat) (slot : ManagedSlot) : SlotResult :=
  if slot.state.isDraining then { slot := slot }
  else
    match slot.chain with
    | none => { slot := slot }
    | some chain =>
      { slot := { slot with chain := some { chain with
          calls := chain.calls.filter (keepsCall currentTick chain.firstTarget) } } }

end RandomClient
