import RandomClient.Slot

/-!
# Status observations

What a decoded provider status does to a slot: `apply_status` and the
functions it calls, down to the freeze of a chain after three confirmations.
-/

namespace RandomClient

/-- A decoded provider status and the request it answers. -/
structure StatusObservation where
  epoch : Nat
  requestedTick : Nat
  status : ProviderStatus
  requestedTick_le : requestedTick ≤ u32Max

/-- The last update tick the observation reports for a slot, if it reports the slot. -/
def StatusObservation.observedTarget (observation : StatusObservation) (key : SlotKey) :
    Option Nat :=
  (observation.status.slot key).map ProviderSlot.lastUpdateTick

/-- `begin_status_restart`: freeze the signed tail of the chain. -/
def beginStatusRestart (absenceAfterTick : Nat) (absenceObserved : Bool) (slot : ManagedSlot) :
    SlotResult :=
  match slot.chain with
  | none => { slot := slot }
  | some chain =>
    match checkedAdd chain.lastTarget streamCount with
    | none =>
      { slot := { slot with chain := none, restartAt := u32Max, state := .drained .failed }
        effects := abortChain slot.chain ++ [.froze chain.lastTarget false] }
    | some restartAt =>
      { slot := { slot with
          restartAt := restartAt
          state := .restarting chain.lastTarget absenceAfterTick absenceObserved none }
        effects := [.froze chain.lastTarget true] }

/-- `financial_failure_target`: the first unconfirmed normal target of the
chain, when the evidence names one. -/
def financialFailureTarget (chain : Chain) (evidence : StatusEvidence) : Option Nat := do
  let target ← match evidence with
    | .absent => do checkedAdd (← chain.confirmedThrough) streamCount
    | .lag missingTarget => some missingTarget
    | .foreign _ => none
  if chain.firstTarget < target ∧ target ≤ chain.lastTarget then some target else none

/-- The freshness boundary and the absence flag a confirmed suspicion leaves. -/
def confirmedBoundary (suspicion : StatusSuspicion) : Nat × Bool :=
  match suspicion.evidence with
  | .absent => (suspicion.lastRequestedTick, true)
  | .foreign _ | .lag _ => (saturatingAdd suspicion.lastRequestedTick 1, false)

/-- Whether an observation was requested no later than the last one the suspicion counted. -/
def isStale (suspicion : Option StatusSuspicion) (requestedTick : Nat) : Bool :=
  suspicion.any fun current => requestedTick ≤ current.lastRequestedTick

/-- The suspicion after more evidence: the `map_or_else` of `observe_status_evidence`. -/
def suspicionAfter (suspicion : Option StatusSuspicion) (evidence : StatusEvidence)
    (requestedTick : Nat) : StatusSuspicion :=
  match suspicion with
  | none => .new evidence requestedTick
  | some current => current.observe evidence requestedTick

/-- `observe_status_evidence`: count the evidence, and freeze the chain at the
third confirmation. -/
def observeStatusEvidence (evidence : StatusEvidence) (requestedTick : Nat)
    (slot : ManagedSlot) : SlotResult :=
  match slot.chain with
  | none => { slot := slot }
  | some chain =>
    if isStale chain.statusSuspicion requestedTick then { slot := slot }
    else
      let suspicion := suspicionAfter chain.statusSuspicion evidence requestedTick
      let slot := { slot with chain := some { chain with statusSuspicion := some suspicion } }
      if suspicion.isConfirmed then
        let (absenceAfterTick, absenceObserved) := confirmedBoundary suspicion
        let failure := match financialFailureTarget chain suspicion.evidence with
          | some target => [Effect.financialFailure target]
          | none => []
        let frozen := beginStatusRestart absenceAfterTick absenceObserved slot
        { frozen with effects := failure ++ frozen.effects }
      else { slot := slot }

/-- What the first block of `apply_confirmation_watermark` makes of an owned
update tick. -/
inductive Acknowledgement where
  /-- The tick regresses, or repeats the watermark under a stale request. -/
  | ignored
  /-- The watermark may advance; nothing due is missing, or no missing target exists. -/
  | settled (chain : Chain)
  /-- The watermark may advance, but the target after it is due and missing. -/
  | missing (chain : Chain) (missingTarget : Nat)

/-- Whether the greatest signed target below the request tick is acknowledged. -/
def Chain.acknowledgeDue (confirmedTick requestedTick : Nat) (chain : Chain) : Acknowledgement :=
  match chain.latestTargetBefore requestedTick with
  | none => .settled { chain with statusSuspicion := none }
  | some latestDue =>
    if latestDue ≤ confirmedTick then .settled { chain with statusSuspicion := none }
    else
      match checkedAdd confirmedTick streamCount with
      | none => .settled chain
      | some missingTarget => .missing chain missingTarget

def Chain.acknowledge (confirmedTick requestedTick : Nat) (chain : Chain) : Acknowledgement :=
  if chain.confirmedThrough.any (fun previous => confirmedTick < previous) then .ignored
  else
    let advanced : Bool := chain.confirmedThrough ≠ some confirmedTick
    if !advanced && isStale chain.statusSuspicion requestedTick then .ignored
    else
      let chain := if advanced then
          { chain with confirmedThrough := some confirmedTick, statusSuspicion := none }
        else chain
      chain.acknowledgeDue confirmedTick requestedTick

/-- What the acknowledgement of an owned update tick does to the slot. -/
def applyAcknowledgement (requestedTick : Nat) (slot : ManagedSlot) :
    Acknowledgement → SlotResult
  | .ignored => { slot := slot }
  | .settled chain => { slot := { slot with chain := some chain } }
  | .missing chain missingTarget =>
    observeStatusEvidence (.lag missingTarget) requestedTick { slot with chain := some chain }

/-- `apply_confirmation_watermark`: an owned update tick advances the
watermark, clears the suspicion, or shows a due target missing. -/
def applyConfirmationWatermark (confirmedTick requestedTick : Nat) (slot : ManagedSlot) :
    SlotResult :=
  match slot.chain with
  | none => { slot := slot }
  | some chain =>
    applyAcknowledgement requestedTick slot (chain.acknowledge confirmedTick requestedTick)

/-- `chain_owns_target`. -/
def chainOwnsTarget (slot : ManagedSlot) (target : Nat) : Bool :=
  slot.chain.any fun chain => chain.ownsTarget target

/-- The freshness boundary and absence flag of a slot that waits for absence,
after an observation. An occupied report raises the boundary; an absent one
counts only from the boundary on. -/
def observeFreshness (absenceAfterTick : Nat) (absenceObserved : Bool)
    (observedTarget : Option Nat) (requestedTick : Nat) : Nat × Bool :=
  match observedTarget with
  | none =>
    if absenceAfterTick ≤ requestedTick then (absenceAfterTick, true)
    else (absenceAfterTick, absenceObserved)
  | some _ => (max absenceAfterTick (saturatingAdd requestedTick 1), false)

/-- `apply_status`. -/
def applyStatus (observation : StatusObservation) (slot : ManagedSlot) : SlotResult :=
  let observedTarget := observation.observedTarget slot.key
  let requestedTick := observation.requestedTick
  match slot.state with
  | .draining _ _ | .drained _ => { slot := slot }
  | .waiting absenceAfterTick absenceObserved =>
    let (absenceAfterTick, absenceObserved) :=
      observeFreshness absenceAfterTick absenceObserved observedTarget requestedTick
    { slot := { slot with state := .waiting absenceAfterTick absenceObserved } }
  | .starting firstTarget =>
    match observedTarget with
    | some confirmedTick =>
      if chainOwnsTarget slot confirmedTick then
        applyConfirmationWatermark confirmedTick requestedTick { slot with state := .active }
      else if firstTarget < requestedTick then
        observeStatusEvidence (.foreign confirmedTick) requestedTick slot
      else { slot := slot }
    | none =>
      if firstTarget < requestedTick then
        observeStatusEvidence .absent requestedTick slot
      else { slot := slot }
  | .active =>
    match observedTarget with
    | some confirmedTick =>
      if chainOwnsTarget slot confirmedTick then
        applyConfirmationWatermark confirmedTick requestedTick slot
      else observeStatusEvidence (.foreign confirmedTick) requestedTick slot
    | none => observeStatusEvidence .absent requestedTick slot
  | .restarting frozenTail absenceAfterTick absenceObserved drainReason =>
    let (absenceAfterTick, absenceObserved) :=
      observeFreshness absenceAfterTick absenceObserved observedTarget requestedTick
    { slot := { slot with
        state := .restarting frozenTail absenceAfterTick absenceObserved drainReason } }

end RandomClient
