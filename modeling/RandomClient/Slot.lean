import RandomClient.Codec

/-!
# One stream's slot

The data of one managed slot: its planned calls, its chain, the suspicion
status observations raise against the chain, and the state of the slot. Every
operation of the engine on a slot is a function from a slot to a `SlotResult`:
the next slot, the effects outside the slot in the order they happen, and the
error that ends the operation early, if any.
-/

namespace RandomClient

/-! ## Planned calls -/

inductive CallKind where
  | firstCommit
  | revealAndCommit
  | terminalReveal
deriving DecidableEq, Repr

inductive BroadcastState where
  | ready
  | broadcasting
  | retry
  | accepted
  | failed
deriving DecidableEq, Repr

/-- A spawned broadcast: the bytes it hands to the backend and its time limit. -/
structure BroadcastTask where
  txBytes : Bytes
  attemptTimeoutMs : Nat
deriving DecidableEq, Repr

structure PlannedCall where
  targetTick : Nat
  txBytes : Bytes
  kind : CallKind
  state : BroadcastState
  broadcast : Option BroadcastTask
  redundantAttempted : Bool
deriving DecidableEq, Repr

/-! ## Status evidence -/

inductive StatusEvidence where
  | absent
  | foreign (lastUpdateTick : Nat)
  | lag (missingTarget : Nat)
deriving DecidableEq, Repr

/-- `StatusEvidence::agrees_with`: absence repeats, foreign ticks do not
regress, a lag misses the same target. -/
def StatusEvidence.agreesWith : StatusEvidence → StatusEvidence → Bool
  | .absent, .absent => true
  | .foreign previous, .foreign next => previous ≤ next
  | .lag previous, .lag next => next = previous
  | _, _ => false

structure StatusSuspicion where
  evidence : StatusEvidence
  confirmations : Nat
  firstRequestedTick : Nat
  lastRequestedTick : Nat
deriving DecidableEq, Repr

/-- `StatusSuspicion::new`. -/
def StatusSuspicion.new (evidence : StatusEvidence) (requestedTick : Nat) : StatusSuspicion where
  evidence := evidence
  confirmations := 1
  firstRequestedTick := requestedTick
  lastRequestedTick := requestedTick

/-- `StatusSuspicion::observe`. -/
def StatusSuspicion.observe (self : StatusSuspicion) (evidence : StatusEvidence)
    (requestedTick : Nat) : StatusSuspicion :=
  if requestedTick ≤ self.lastRequestedTick then self
  else if self.evidence.agreesWith evidence then
    { evidence := evidence
      confirmations := min (self.confirmations + 1) statusConfirmationsRequired
      firstRequestedTick := self.firstRequestedTick
      lastRequestedTick := requestedTick }
  else .new evidence requestedTick

/-- `StatusSuspicion::is_confirmed`. -/
def StatusSuspicion.isConfirmed (self : StatusSuspicion) : Bool :=
  statusConfirmationsRequired ≤ self.confirmations

/-! ## Chains -/

structure Chain where
  firstTarget : Nat
  lastTarget : Nat
  confirmedThrough : Option Nat
  statusSuspicion : Option StatusSuspicion
  outstandingPreimage : Preimage
  calls : List PlannedCall
deriving DecidableEq

/-- `Chain::owns_target`. -/
def Chain.ownsTarget (chain : Chain) (target : Nat) : Bool :=
  chain.firstTarget ≤ target ∧ target ≤ chain.lastTarget ∧
    (target - chain.firstTarget) % streamCount = 0

/-- `Chain::latest_target_before`: the greatest signed target below the tick. -/
def Chain.latestTargetBefore (chain : Chain) (tick : Nat) : Option Nat := do
  let previous ← Bounded.checkedSub tick 1
  let distance ← Bounded.checkedSub (min previous chain.lastTarget) chain.firstTarget
  checkedAdd chain.firstTarget (distance / streamCount * streamCount)

/-! ## The slot -/

inductive DrainReason where
  | epoch
  | shutdown
deriving DecidableEq, Repr

inductive DrainOutcome where
  | nothingToDrain
  | accepted
  | failed
deriving DecidableEq, Repr

inductive SlotState where
  | waiting (absenceAfterTick : Nat) (absenceObserved : Bool)
  | starting (firstTarget : Nat)
  | active
  | restarting (frozenTail absenceAfterTick : Nat) (absenceObserved : Bool)
      (drainReason : Option DrainReason)
  | draining (reason : DrainReason) (terminalTarget : Nat)
  | drained (outcome : DrainOutcome)
deriving DecidableEq, Repr

structure ManagedSlot where
  key : SlotKey
  state : SlotState
  chain : Option Chain
  restartAt : Nat
deriving DecidableEq

/-- The slot of a stream in a new engine. -/
def ManagedSlot.new (stream tier : Nat) : ManagedSlot where
  key := { stream := stream, collateralTier := tier }
  state := .waiting 0 false
  chain := none
  restartAt := 0

/-- `matches!(state, Starting { .. } | Active)`: the chain is being planned. -/
def SlotState.isPlanning : SlotState → Bool
  | .starting _ | .active => true
  | _ => false

/-- `matches!(state, Draining { .. })`. -/
def SlotState.isDraining : SlotState → Bool
  | .draining _ _ => true
  | _ => false

/-! ## Effects -/

/-- A call as it was signed: its target, its kind, the input, the signed
bytes, and what planning knew. `preimage` is the preimage drawn for the
commitment, absent for a terminal reveal; `plannedAt` is the tick planning saw
and `drain` the reason a terminal reveal was signed for. -/
structure SignedCall where
  targetTick : Nat
  kind : CallKind
  input : RevealAndCommitInput
  txBytes : Bytes
  preimage : Option Preimage
  plannedAt : Option Nat
  drain : Option DrainReason
deriving DecidableEq

/-- What a slot operation does outside its slot. -/
inductive Effect where
  /-- A call was signed and queued. -/
  | signed (call : SignedCall)
  /-- A broadcast task was spawned at the reported tick: its bytes go to the backend. -/
  | handed (currentTick targetTick : Nat) (kind : CallKind) (redundant : Bool)
      (task : BroadcastTask)
  /-- A finished broadcast task was joined. -/
  | harvested (targetTick : Nat) (kind : CallKind) (redundant : Bool) (result : Delivery)
  /-- A broadcast task was aborted. -/
  | aborted (targetTick : Nat) (task : BroadcastTask)
  /-- `record_send_outcome(target, Ok)` followed by `queue_tick_check(target)`. -/
  | recordedOk (targetTick : Nat)
  /-- `mark_financial_failure(target)`. -/
  | financialFailure (targetTick : Nat)
  /-- `target_digests.entry(target).or_insert_with(..)`. -/
  | digest (targetTick : Nat) (txBytes : Bytes)
  /-- A confirmed suspicion froze the chain; `restarting` is false when the tail
  leaves no restart tick. -/
  | froze (lastTarget : Nat) (restarting : Bool)
  /-- The epoch changed and the slot was reset. -/
  | reset
deriving DecidableEq

/-- The outcome of an operation on a slot. -/
structure SlotResult where
  slot : ManagedSlot
  effects : List Effect := []
  error : Option String := none

/-- Run `next` on the slot `r` left, as the source does after a call that
cannot fail or that it does not check. -/
def SlotResult.followedBy (r : SlotResult) (next : ManagedSlot → SlotResult) : SlotResult :=
  let r' := next r.slot
  { slot := r'.slot, effects := r.effects ++ r'.effects, error := r'.error }

/-- `abort_chain`: abort the task of every call. -/
def abortCalls (calls : List PlannedCall) : List Effect :=
  calls.filterMap fun call => call.broadcast.map fun task => .aborted call.targetTick task

/-- `abort_chain(self.slots[index].chain.take())`. -/
def abortChain (chain : Option Chain) : List Effect :=
  match chain with
  | some chain => abortCalls chain.calls
  | none => []

end RandomClient
