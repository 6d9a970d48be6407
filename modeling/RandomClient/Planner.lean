import RandomClient.Delivery

/-!
# Planning

Signing a fresh chain, its predictive continuation and its terminal reveal.
A signing attempt that fails leaves chain, outstanding preimage and queue as
they were.
-/

namespace RandomClient

/-- `next_stream_tick`: the first tick of the stream at or after the given one. -/
def nextStreamTick (atOrAfter stream : Nat) : Option Nat :=
  checkedAdd atOrAfter ((stream + streamCount - atOrAfter % streamCount) % streamCount)

/-- `build_transaction`. -/
def buildTransaction (cfg : Config) (env : SigningEnv) (input : RevealAndCommitInput)
    (targetTick : Nat) (key : SlotKey) : Except String Bytes :=
  if targetTick % streamCount ≠ key.stream then
    .error s!"internal scheduling error: tick {targetTick} does not match stream {key.stream}"
  else
    env.sign
      { contractIndex := randomContractIndex
        amount := cfg.collateral
        tick := targetTick
        inputType := revealAndCommitProcedure
        input := input.encode }

/-- The planned call a signed call becomes. -/
def SignedCall.planned (call : SignedCall) : PlannedCall where
  targetTick := call.targetTick
  txBytes := call.txBytes
  kind := call.kind
  state := .ready
  broadcast := none
  redundantAttempted := false

/-- Whether `start_if_ready` may create a chain. -/
def SlotState.readyToStart : SlotState → Bool
  | .waiting _ true => true
  | .restarting _ _ true none => true
  | _ => false

/-- `start_if_ready`. -/
def startIfReady (cfg : Config) (env : SigningEnv) (currentTick : Nat) (slot : ManagedSlot) :
    SlotResult :=
  if slot.state.readyToStart then
    match checkedAdd currentTick sendLeadTicks with
    | none => { slot := slot, error := some "initial target tick overflowed" }
    | some lead =>
      match nextStreamTick (max lead slot.restartAt) slot.key.stream with
      | none => { slot := slot, error := some "initial stream target overflowed" }
      | some target =>
        let nextPreimage := env.draw target
        let input : RevealAndCommitInput :=
          { reveal := Preimage.zero, commit := cfg.commitDigest nextPreimage }
        match buildTransaction cfg env input target slot.key with
        | .error err => { slot := slot, error := some err }
        | .ok txBytes =>
          let signed : SignedCall :=
            { targetTick := target
              kind := .firstCommit
              input := input
              txBytes := txBytes
              preimage := some nextPreimage
              plannedAt := some currentTick
              drain := none }
          -- older calls stay in the queue, but cannot gate this chain
          let older := match slot.chain with
            | some chain => chain.calls
            | none => []
          { slot := { slot with
              chain := some
                { firstTarget := target
                  lastTarget := target
                  confirmedThrough := none
                  statusSuspicion := none
                  outstandingPreimage := nextPreimage
                  calls := older ++ [signed.planned] }
              state := .starting target }
            effects := [.signed signed] }
  else { slot := slot }

/-- The outcome of one round of the loop of `extend_chain`. -/
inductive Extension where
  /-- The next target is past the horizon. -/
  | done
  | failed (err : String)
  | extended (chain : Chain) (signed : SignedCall)

/-- One round of the loop of `extend_chain`. -/
def extendOnce (cfg : Config) (env : SigningEnv) (currentTick horizon : Nat) (key : SlotKey)
    (chain : Chain) : Extension :=
  match checkedAdd chain.lastTarget streamCount with
  | none => .done
  | some target =>
    if horizon < target then .done
    else
      let nextPreimage := env.draw target
      let input : RevealAndCommitInput :=
        { reveal := chain.outstandingPreimage, commit := cfg.commitDigest nextPreimage }
      match buildTransaction cfg env input target key with
      | .error err => .failed err
      | .ok txBytes =>
        let signed : SignedCall :=
          { targetTick := target
            kind := .revealAndCommit
            input := input
            txBytes := txBytes
            preimage := some nextPreimage
            plannedAt := some currentTick
            drain := none }
        .extended
          { chain with
            calls := chain.calls ++ [signed.planned]
            lastTarget := target
            outstandingPreimage := nextPreimage }
          signed

/-- The loop of `extend_chain`. Each round moves the last target up by three,
so `horizon - lastTarget` rounds reach the horizon. -/
def extendLoop (cfg : Config) (env : SigningEnv) (currentTick horizon : Nat) (key : SlotKey) :
    Nat → Chain → Chain × List Effect × Option String
  | 0, chain => (chain, [], none)
  | fuel + 1, chain =>
    match extendOnce cfg env currentTick horizon key chain with
    | .done => (chain, [], none)
    | .failed err => (chain, [], some err)
    | .extended chain signed =>
      let (chain, effects, error) := extendLoop cfg env currentTick horizon key fuel chain
      (chain, .signed signed :: effects, error)

/-- `missed_target`: the continuation that was never planned and whose target has come. -/
def missedTarget (currentTick : Nat) (chain : Chain) : Option Nat :=
  (checkedAdd chain.lastTarget streamCount).filter fun target => target ≤ currentTick

/-- `extend_chain`. -/
def extendChain (cfg : Config) (env : SigningEnv) (currentTick : Nat) (slot : ManagedSlot) :
    SlotResult :=
  if slot.state.isPlanning then
    match slot.chain.bind (missedTarget currentTick) with
    | some missed =>
      -- planned failures first, then the unplanned gap
      (expireCalls currentTick slot).followedBy fun slot =>
        if slot.state.isPlanning then
          let lost := loseChain (saturatingAdd currentTick 1) false slot
          { lost with effects := .financialFailure missed :: lost.effects }
        else { slot := slot }
    | none =>
      match checkedAdd currentTick sendLeadTicks with
      | none => { slot := slot, error := some "planning horizon overflowed" }
      | some horizon =>
        match slot.chain with
        | none => { slot := slot }
        | some chain =>
          let (chain, effects, error) := extendLoop cfg env currentTick horizon slot.key
            (horizon - chain.lastTarget) chain
          { slot := { slot with chain := some chain }, effects := effects, error := error }
  else { slot := slot }

/-- The drain reason of a frozen tail once a further drain is asked for. -/
def joinDrainReason : Option DrainReason → DrainReason → DrainReason
  | _, .shutdown => .shutdown
  | some .shutdown, .epoch => .shutdown
  | some .epoch, .epoch | none, .epoch => .epoch

/-- `enter_drain`. -/
def enterDrain (cfg : Config) (env : SigningEnv) (reason : DrainReason) (slot : ManagedSlot) :
    SlotResult :=
  match slot.state with
  | .draining _ _ | .drained _ => { slot := slot }
  | .waiting _ _ => { slot := { slot with state := .drained .nothingToDrain } }
  | .restarting frozenTail absenceAfterTick absenceObserved drainReason =>
    { slot := { slot with
        state := .restarting frozenTail absenceAfterTick absenceObserved
          (some (joinDrainReason drainReason reason)) } }
  | .starting _ | .active =>
    match slot.chain with
    | none => { slot := slot, error := some "managed stream has no local chain" }
    | some chain =>
      match checkedAdd chain.lastTarget streamCount with
      | none => { slot := slot, error := some "terminal reveal target overflowed" }
      | some terminalTarget =>
        let input : RevealAndCommitInput :=
          { reveal := chain.outstandingPreimage, commit := Digest.zero }
        match buildTransaction cfg env input terminalTarget slot.key with
        | .error err => { slot := slot, error := some err }
        | .ok txBytes =>
          let signed : SignedCall :=
            { targetTick := terminalTarget
              kind := .terminalReveal
              input := input
              txBytes := txBytes
              preimage := none
              plannedAt := none
              drain := some reason }
          { slot := { slot with
              chain := some { chain with calls := chain.calls ++ [signed.planned] }
              state := .draining reason terminalTarget }
            effects := [.signed signed] }

/-- `reset_slots`, for one slot. -/
def resetSlot (slot : ManagedSlot) : SlotResult where
  slot := { slot with chain := none, state := .waiting 0 false, restartAt := 0 }
  effects := abortChain slot.chain ++ [.reset]

end RandomClient
