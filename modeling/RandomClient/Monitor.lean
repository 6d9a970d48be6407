import Mathlib.Data.Finset.Card
import Mathlib.Data.Finset.Insert
import Mathlib.Data.List.AList
import Mathlib.Data.List.Sort
import RandomClient.Slot

/-!
# Delivery counters and tick checks

The part of the engine that counts financial outcomes and verifies target
ticks afterwards. The slots write to it and never read it: a slot operation
reaches it only through its effects (`Monitor.applyEffect`).
-/

namespace RandomClient

/-- The largest `u64`. -/
abbrev u64Max : Nat := 18446744073709551615

inductive SendOutcome where
  | ok
  | failed
  | empty
deriving DecidableEq, Repr

structure SendStats where
  ok : Nat
  failed : Nat
  empty : Nat
deriving DecidableEq, Repr

/-- `SendStats::increment`. -/
def SendStats.increment (stats : SendStats) : SendOutcome → SendStats
  | .ok => { stats with ok := Bounded.saturatingAdd u64Max stats.ok 1 }
  | .failed => { stats with failed := Bounded.saturatingAdd u64Max stats.failed 1 }
  | .empty => { stats with empty := Bounded.saturatingAdd u64Max stats.empty 1 }

/-- `SendStats::decrement`. -/
def SendStats.decrement (stats : SendStats) : SendOutcome → SendStats
  | .ok => { stats with ok := stats.ok - 1 }
  | .failed => { stats with failed := stats.failed - 1 }
  | .empty => { stats with empty := stats.empty - 1 }

/-- The active tick check. -/
structure PendingTickCheck where
  targetTick : Nat
  failures : Nat
deriving DecidableEq, Repr

/-- An entry of `ready_tick_checks`: a check that may start at `retryAt`. -/
structure ReadyTickCheck where
  retryAt : Nat
  targetTick : Nat
  failures : Nat
deriving DecidableEq, Repr

/-- The monitoring fields of the engine. `pendingTickChecks` is in ascending
order, as the source's ordered set iterates. -/
structure Monitor where
  sendStats : SendStats
  sendOutcomes : AList fun _ : Nat => SendOutcome
  pendingTickChecks : List Nat
  readyTickChecks : List ReadyTickCheck
  queuedTargetTicks : Finset Nat
  checkedTargetTicks : Finset Nat
  targetDigests : Nat → Option Digest
  tickCheck : Option PendingTickCheck
  nextTickCheckAt : Nat
  oldestTickCheck : Nat
  expiredTickChecks : Nat
  nextMonitorLogAt : Nat

/-- The monitoring fields of a new engine. -/
def Monitor.new (tickCheckAt monitorLogAt : Nat) : Monitor where
  sendStats := { ok := 0, failed := 0, empty := 0 }
  sendOutcomes := ∅
  pendingTickChecks := []
  readyTickChecks := []
  queuedTargetTicks := ∅
  checkedTargetTicks := ∅
  targetDigests := fun _ => none
  tickCheck := none
  nextTickCheckAt := tickCheckAt
  oldestTickCheck := 0
  expiredTickChecks := 0
  nextMonitorLogAt := monitorLogAt

/-- `transition_allowed` of `record_send_outcome`. -/
def transitionAllowed : Option SendOutcome → SendOutcome → Bool
  | none, _ => true
  | some .ok, .failed | some .ok, .empty | some .failed, .empty => true
  | some .ok, .ok | some .failed, .ok | some .failed, .failed | some .empty, _ => false

/-- `record_send_outcome`. -/
def Monitor.recordSendOutcome (target : Nat) (next : SendOutcome) (m : Monitor) : Monitor :=
  let previous := m.sendOutcomes.lookup target
  if transitionAllowed previous next then
    let stats := match previous with
      | some previous => m.sendStats.decrement previous
      | none => m.sendStats
    { m with
      sendStats := stats.increment next
      sendOutcomes := m.sendOutcomes.insert target next }
  else m

/-- `BTreeSet::insert` on an ascending list. -/
def insertSorted (target : Nat) (ticks : List Nat) : List Nat :=
  if target ∈ ticks then ticks else ticks.orderedInsert (· ≤ ·) target

/-- `queue_tick_check`. -/
def Monitor.queueTickCheck (target : Nat) (m : Monitor) : Monitor :=
  if m.oldestTickCheck ≤ target ∧ target ∉ m.checkedTargetTicks ∧
      target ∉ m.queuedTargetTicks then
    { m with
      queuedTargetTicks := insert target m.queuedTargetTicks
      pendingTickChecks := insertSorted target m.pendingTickChecks }
  else m

/-- `mark_financial_failure`. -/
def Monitor.markFinancialFailure (target : Nat) (m : Monitor) : Monitor :=
  (m.recordSendOutcome target .failed).queueTickCheck target

/-- What an effect of a slot does to the monitoring fields. -/
def Monitor.applyEffect (cfg : Config) (m : Monitor) : Effect → Monitor
  | .recordedOk target => (m.recordSendOutcome target .ok).queueTickCheck target
  | .financialFailure target => m.markFinancialFailure target
  | .digest target txBytes =>
    match m.targetDigests target with
    | some _ => m
    | none =>
      { m with targetDigests :=
          Function.update m.targetDigests target (some (cfg.transactionDigest txBytes)) }
  | .signed _ | .handed _ _ _ _ _ | .harvested _ _ _ _ | .aborted _ _ | .froze _ _ | .reset => m

/-- The monitoring part of `reset_slots`. -/
def Monitor.reset (tickCheckAt monitorLogAt : Nat) (m : Monitor) : Monitor :=
  { Monitor.new tickCheckAt monitorLogAt with sendStats := m.sendStats }

/-- `expire_tick_checks`. The aggregate log line resets the expiry counter. -/
def Monitor.expireTickChecks (cfg : Config) (currentTick now : Nat) (m : Monitor) : Monitor :=
  let oldest := max
    (currentTick - saturatingAdd cfg.revealCheckDelayTicks tickCheckWindow) m.oldestTickCheck
  let queued := m.queuedTargetTicks.filter fun tick => oldest ≤ tick
  let expired := Bounded.saturatingAdd u64Max m.expiredTickChecks
    (m.queuedTargetTicks.card - queued.card)
  let logged := expired ≠ 0 ∧ m.nextMonitorLogAt ≤ now
  { m with
    oldestTickCheck := oldest
    pendingTickChecks := m.pendingTickChecks.filter fun tick => oldest ≤ tick
    readyTickChecks := m.readyTickChecks.filter fun check => oldest ≤ check.targetTick
    queuedTargetTicks := queued
    checkedTargetTicks := m.checkedTargetTicks.filter fun tick => oldest ≤ tick
    targetDigests := fun tick => if oldest ≤ tick then m.targetDigests tick else none
    tickCheck := m.tickCheck.filter fun check => oldest ≤ check.targetTick
    expiredTickChecks := if logged then 0 else expired
    nextMonitorLogAt := if logged then now + monitorLogIntervalMs else m.nextMonitorLogAt }

/-- `BTreeMap::insert` on the ready checks, keyed by time and target. -/
def insertReady (check : ReadyTickCheck) (ready : List ReadyTickCheck) : List ReadyTickCheck :=
  ready.filter (fun other =>
    ¬ (other.retryAt = check.retryAt ∧ other.targetTick = check.targetTick)) ++ [check]

/-- The delay before a failed check may start again, in milliseconds. -/
def retryDelayMs (failures : Nat) : Nat := min (2 ^ min failures 5) 30 * 1000

/-- `harvest_tick_check`. `result` is the outcome of the active check once its
task has finished. -/
def Monitor.harvestTickCheck (result : Option (Except String TickTransactions)) (now : Nat)
    (m : Monitor) : Monitor :=
  match m.tickCheck, result with
  | some check, some (.ok observation) =>
    let m := { m with
      tickCheck := none
      queuedTargetTicks := m.queuedTargetTicks.erase check.targetTick
      checkedTargetTicks := insert check.targetTick m.checkedTargetTicks
      targetDigests := Function.update m.targetDigests check.targetTick none }
    if observation.hasTransactions then m else m.recordSendOutcome check.targetTick .empty
  | some check, some (.error _) =>
    { m with
      tickCheck := none
      readyTickChecks := insertReady
        { retryAt := now + retryDelayMs check.failures
          targetTick := check.targetTick
          failures := saturatingAdd check.failures 1 }
        m.readyTickChecks }
  | _, _ => m

/-- The verdict `harvest_tick_check` logs for a finished check. -/
def Monitor.inclusion (observation : TickTransactions) (target : Nat) (m : Monitor) :
    Option Bool :=
  (m.targetDigests target).bind observation.contains

/-- The ready check `max_by_key` returns: the newest target, and of one target
the latest entry. -/
def newestReady : List ReadyTickCheck → Option ReadyTickCheck
  | [] => none
  | check :: rest =>
    match newestReady rest with
    | none => some check
    | some best =>
      if best.targetTick < check.targetTick ∨
          (best.targetTick = check.targetTick ∧ best.retryAt < check.retryAt) then
        some check
      else some best

/-- `ensure_tick_check`. The clock is read once in the expiry and once after it. -/
def Monitor.ensureTickCheck (cfg : Config) (currentTick expireAt now : Nat) (m : Monitor) :
    Monitor :=
  let m := m.expireTickChecks cfg currentTick expireAt
  if m.tickCheck.isSome ∨ now < m.nextTickCheckAt then m
  else
    let eligible := m.pendingTickChecks.takeWhile fun target =>
      saturatingAdd target cfg.revealCheckDelayTicks ≤ currentTick
    let m := { m with
      pendingTickChecks := m.pendingTickChecks.drop eligible.length
      queuedTargetTicks := eligible.foldl (fun queued target => insert target queued)
        m.queuedTargetTicks
      readyTickChecks := eligible.foldl (fun ready target =>
        insertReady { retryAt := now, targetTick := target, failures := 0 } ready)
        m.readyTickChecks }
    match newestReady (m.readyTickChecks.filter fun check => check.retryAt ≤ now) with
    | none => m
    | some check =>
      { m with
        readyTickChecks := m.readyTickChecks.filter fun other =>
          ¬ (other.retryAt = check.retryAt ∧ other.targetTick = check.targetTick)
        tickCheck := some { targetTick := check.targetTick, failures := check.failures }
        nextTickCheckAt := now + cfg.emptyTickCheckIntervalMs }

end RandomClient
