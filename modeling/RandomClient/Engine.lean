import RandomClient.Lib.Machine
import RandomClient.Monitor
import RandomClient.Planner

/-!
# The provider engine

One cycle of the engine over its three slots, and whole runs of it. Every step
of a cycle that touches a slot is a `SlotOp`; the cycle performs them in the
source's order and logs them, so that the history of a slot can be read off the
log of a run. The outside world (the tick report, the clock, finished tasks,
drawn preimages, signatures, the shutdown request) is the input of the cycle.
-/

namespace RandomClient

/-! ## Operations on a slot -/

/-- The operations the engine performs on a slot. -/
inductive SlotOp where
  | reset
  | harvestBroadcasts (results : Nat → Option Delivery)
  | applyStatus (observation : StatusObservation)
  | enterDrain (env : SigningEnv) (reason : DrainReason)
  | startIfReady (env : SigningEnv) (currentTick : Nat)
  | extendChain (env : SigningEnv) (currentTick : Nat)
  | expireCalls (currentTick : Nat)
  | dispatchCalls (currentTick tickDurationMs : Nat)
  | finishDrain
  | finishStatusRestart (currentTick : Nat)
  | pruneCalls (currentTick : Nat)

/-- The source function behind an operation. -/
def SlotOp.run (cfg : Config) : SlotOp → ManagedSlot → SlotResult
  | .reset => resetSlot
  | .harvestBroadcasts results => RandomClient.harvestBroadcasts results
  | .applyStatus observation => RandomClient.applyStatus observation
  | .enterDrain env reason => RandomClient.enterDrain cfg env reason
  | .startIfReady env currentTick => RandomClient.startIfReady cfg env currentTick
  | .extendChain env currentTick => RandomClient.extendChain cfg env currentTick
  | .expireCalls currentTick => RandomClient.expireCalls currentTick
  | .dispatchCalls currentTick tickDurationMs =>
    RandomClient.dispatchCalls currentTick tickDurationMs
  | .finishDrain => RandomClient.finishDrain
  | .finishStatusRestart currentTick => RandomClient.finishStatusRestart currentTick
  | .pruneCalls currentTick => RandomClient.pruneCalls currentTick

/-- The slot as a machine over its operations. -/
def slotMachine (cfg : Config) : Machine ManagedSlot SlotOp Effect where
  step op slot := ((op.run cfg slot).slot, (op.run cfg slot).effects)

/-! ## The engine -/

inductive EpochPhase where
  | warmup (epoch readyTick : Nat)
  | active (epoch : Nat)
  | draining (epoch : Nat)
deriving DecidableEq, Repr

def EpochPhase.epoch : EpochPhase → Nat
  | .warmup epoch _ | .active epoch | .draining epoch => epoch

/-- The one status query in flight. -/
structure PendingStatusQuery where
  epoch : Nat
  requestedTick : Nat
  requestedTick_le : requestedTick ≤ u32Max

instance : DecidableEq PendingStatusQuery := fun p q =>
  decidable_of_iff (p.epoch = q.epoch ∧ p.requestedTick = q.requestedTick) <| by
    cases p
    cases q
    simp

structure Engine where
  slots : Fin 3 → ManagedSlot
  statusQuery : Option PendingStatusQuery
  nextStatusQueryAt : Nat
  epochPhase : Option EpochPhase
  monitor : Monitor

/-- `ProviderEngine::new`, with the instants it reads. -/
def Engine.new (cfg : Config) (statusQueryAt tickCheckAt monitorLogAt : Nat) : Engine where
  slots stream := ManagedSlot.new stream (collateralTier cfg.collateral)
  statusQuery := none
  nextStatusQueryAt := statusQueryAt
  epochPhase := none
  monitor := Monitor.new tickCheckAt monitorLogAt

/-! ## Wall-clock time -/

/-- A UTC time by its whole seconds since 1970-01-01 00:00:00, a Thursday. -/
structure DateTime where
  timestamp : Int
deriving DecidableEq, Repr

/-- Days since Monday. -/
def DateTime.weekday (t : DateTime) : Nat := ((t.timestamp / 86400 + 3) % 7).toNat

def DateTime.hour (t : DateTime) : Nat := (t.timestamp % 86400 / 3600).toNat

def DateTime.minute (t : DateTime) : Nat := (t.timestamp % 3600 / 60).toNat

def DateTime.second (t : DateTime) : Nat := (t.timestamp % 60).toNat

/-- `is_epoch_stop_window`. -/
def isEpochStopWindow (now : DateTime) (stopLeadTimeSecs : Nat) : Bool :=
  let secondsPerDay := 24 * 60 * 60
  let secondsPerWeek := 7 * secondsPerDay
  let wednesdayNoon := 2 * secondsPerDay + 12 * 60 * 60
  let seconds := now.weekday * secondsPerDay + now.hour * 60 * 60 + now.minute * 60 + now.second
  let untilBoundary :=
    if seconds ≤ wednesdayNoon then wednesdayNoon - seconds
    else secondsPerWeek - (seconds - wednesdayNoon)
  untilBoundary ≤ min stopLeadTimeSecs secondsPerWeek

/-! ## One cycle -/

/-- The instants one cycle reads, by the function that reads them. -/
structure Clock where
  resetTickCheckAt : Nat
  resetStatusAt : Nat
  resetMonitorAt : Nat
  statusAt : Nat
  statusStartedAt : Nat
  expireAt : Nat
  harvestAt : Nat
  ensureExpireAt : Nat
  ensureAt : Nat
deriving DecidableEq, Repr

/-- The outside world during one cycle. A result is present once its task has finished. -/
structure CycleInput where
  tick : Except String TickInfo
  now : DateTime
  statusResult : Option (Except String Bytes)
  broadcastResults : Fin 3 → Nat → Option Delivery
  cancelled : Bool
  env : Fin 3 → SigningEnv
  tickCheckResult : Option (Except String TickTransactions)
  clock : Clock

/-- A cycle in progress: the engine so far, the operations performed, and the
error the cycle returned with. After an error nothing more is performed. -/
structure Exec where
  engine : Engine
  log : List (Fin 3 × SlotOp)
  error : Option String

/-- Perform an operation on the slot of a stream. -/
def Exec.perform (cfg : Config) (stream : Fin 3) (op : SlotOp) (x : Exec) : Exec :=
  if x.error.isSome then x
  else
    let r := op.run cfg (x.engine.slots stream)
    { engine := { x.engine with
        slots := Function.update x.engine.slots stream r.slot
        monitor := r.effects.foldl (Monitor.applyEffect cfg) x.engine.monitor }
      log := x.log ++ [(stream, op)]
      error := r.error }

/-- A step of the cycle that touches no slot. -/
def Exec.modify (f : Engine → Engine) (x : Exec) : Exec :=
  if x.error.isSome then x else { x with engine := f x.engine }

/-- Perform operations on the slot of a stream, in order. -/
def Exec.performAll (cfg : Config) (stream : Fin 3) (ops : List SlotOp) (x : Exec) : Exec :=
  ops.foldl (fun x op => x.perform cfg stream op) x

/-- `for index in 0..self.slots.len()`. -/
def Exec.forSlots (cfg : Config) (ops : Fin 3 → List SlotOp) (x : Exec) : Exec :=
  ((x.performAll cfg 0 (ops 0)).performAll cfg 1 (ops 1)).performAll cfg 2 (ops 2)

/-- The end of the warmup, in `update_epoch_phase`. -/
def finishWarmup (tick : TickInfo) : EpochPhase → EpochPhase
  | .warmup epoch readyTick =>
    if epoch = tick.epoch ∧ readyTick ≤ tick.tick then .active tick.epoch
    else .warmup epoch readyTick
  | phase => phase

/-- The start of the pre-epoch drain, in `update_epoch_phase`. -/
def enterStopWindow (cfg : Config) (tick : TickInfo) (now : DateTime) : EpochPhase → EpochPhase
  | .active epoch =>
    if epoch = tick.epoch ∧ isEpochStopWindow now cfg.epochStopLeadTimeSecs then
      .draining tick.epoch
    else .active epoch
  | phase => phase

/-- The phase after `update_epoch_phase`, once the epoch is known to be current. -/
def advancePhase (cfg : Config) (tick : TickInfo) (now : DateTime) (phase : EpochPhase) :
    EpochPhase :=
  enterStopWindow cfg tick now (finishWarmup tick phase)

/-- The part of `reset_slots` that touches no slot. -/
def resetEngine (clock : Clock) (e : Engine) : Engine :=
  { e with
    statusQuery := none
    nextStatusQueryAt := clock.resetStatusAt
    monitor := e.monitor.reset clock.resetTickCheckAt clock.resetMonitorAt }

/-- `update_epoch_phase`. -/
def updateEpochPhase (cfg : Config) (tick : TickInfo) (input : CycleInput) (x : Exec) : Exec :=
  if x.engine.epochPhase.map EpochPhase.epoch = some tick.epoch then
    x.modify fun e =>
      { e with epochPhase := e.epochPhase.map (advancePhase cfg tick input.now) }
  else
    let x := (x.modify (resetEngine input.clock)).forSlots cfg fun _ => [.reset]
    x.modify fun e =>
      { e with epochPhase := some (advancePhase cfg tick input.now
          (.warmup tick.epoch (saturatingAdd tick.initialTick cfg.epochResumeDelayTicks))) }

/-- The observation `harvest_status_query` returns. -/
def harvestedObservation (e : Engine) (input : CycleInput) : Option StatusObservation :=
  match e.statusQuery, input.statusResult with
  | some query, some (.ok output) =>
    match ProviderStatus.decode output with
    | .ok status => some
        { epoch := query.epoch
          requestedTick := query.requestedTick
          status := status
          requestedTick_le := query.requestedTick_le }
    | .error _ => none
  | _, _ => none

/-- `harvest_status_query`: a finished query is consumed whatever its result. -/
def harvestStatusQuery (input : CycleInput) (e : Engine) : Engine :=
  if e.statusQuery.isSome ∧ input.statusResult.isSome then { e with statusQuery := none } else e

/-- `ensure_status_query`. -/
def ensureStatusQuery (tick : TickInfo) (clock : Clock) (e : Engine) : Engine :=
  if e.statusQuery.isSome ∨ clock.statusAt < e.nextStatusQueryAt then e
  else
    { e with
      nextStatusQueryAt := clock.statusStartedAt + statusQueryIntervalMs
      statusQuery := some
        { epoch := tick.epoch
          requestedTick := tick.tick
          requestedTick_le := tick.tick_le } }

/-- What a cycle plans: the drain reason, normal planning, or nothing. -/
inductive Plan where
  | drain (reason : DrainReason)
  | normal
  | none
deriving DecidableEq, Repr

/-- The branch of `cycle` after the status was applied. -/
def planOf (phase : Option EpochPhase) (epoch : Nat) (cancelled : Bool) : Plan :=
  if cancelled then .drain .shutdown
  else if phase = some (.draining epoch) then .drain .epoch
  else if phase = some (.active epoch) then .normal
  else .none

/-- The planning operations of a cycle on one slot. -/
def planOps (plan : Plan) (tick : TickInfo) (env : SigningEnv) : List SlotOp :=
  match plan with
  | .drain reason => [.enterDrain env reason]
  | .normal => [.startIfReady env tick.tick, .extendChain env tick.tick]
  | .none => []

/-- The delivery operations of a cycle on one slot. -/
def deliveryOps (tick : TickInfo) : List SlotOp :=
  [.expireCalls tick.tick, .dispatchCalls tick.tick tick.tickDurationMs, .finishDrain,
    .finishStatusRestart tick.tick, .pruneCalls tick.tick]

/-- The status operation of a cycle on one slot. -/
def statusOps (observation : Option StatusObservation) (epoch : Nat) : List SlotOp :=
  match observation with
  | some observation => if observation.epoch = epoch then [.applyStatus observation] else []
  | none => []

/-- The operations of a cycle on one slot after the epoch phase is updated. -/
def harvestAndApply (cfg : Config) (tick : TickInfo) (input : CycleInput) (x : Exec) : Exec :=
  let observation := harvestedObservation x.engine input
  ((x.modify (harvestStatusQuery input)).forSlots cfg
    fun stream => [.harvestBroadcasts (input.broadcastResults stream)]).forSlots cfg
      fun _ => statusOps observation tick.epoch

/-- The end of a cycle: the status query and the tick checks. -/
def finishCycle (cfg : Config) (tick : TickInfo) (input : CycleInput) (plan : Plan)
    (e : Engine) : Engine :=
  let e := ensureStatusQuery tick input.clock e
  let m := e.monitor.expireTickChecks cfg tick.tick input.clock.expireAt
  let m := m.harvestTickCheck input.tickCheckResult input.clock.harvestAt
  let m := match plan with
    | .drain _ => m
    | .normal | .none =>
      m.ensureTickCheck cfg tick.tick input.clock.ensureExpireAt input.clock.ensureAt
  { e with monitor := m }

/-- A cycle that obtained the tick report. -/
def cycleAt (cfg : Config) (tick : TickInfo) (input : CycleInput) (e : Engine) : Exec :=
  let x := updateEpochPhase cfg tick input { engine := e, log := [], error := none }
  let x := harvestAndApply cfg tick input x
  let plan := planOf x.engine.epochPhase tick.epoch input.cancelled
  let x := x.forSlots cfg fun stream => planOps plan tick (input.env stream)
  let x := x.forSlots cfg fun _ => deliveryOps tick
  x.modify (finishCycle cfg tick input plan)

/-- `ProviderEngine::cycle`. -/
def cycle (cfg : Config) (input : CycleInput) (e : Engine) : Exec :=
  match input.tick with
  | .error err => { engine := e, log := [], error := some err }
  | .ok tick => cycleAt cfg tick input e

/-! ## Runs -/

/-- One step of `ProviderEngine::run`: a cycle, or the drain entry after the
shutdown observer finished. -/
inductive EngineInput where
  | cycle (input : CycleInput)
  | shutdown (env : Fin 3 → SigningEnv)

/-- The step of `run` for an input. -/
def engineStep (cfg : Config) (input : EngineInput) (e : Engine) : Exec :=
  match input with
  | .cycle input => cycle cfg input e
  | .shutdown env =>
    Exec.forSlots cfg (fun stream => [.enterDrain (env stream) .shutdown])
      { engine := e, log := [], error := none }

/-- The engine as a machine whose effects are the slot operations it performs. -/
def engineMachine (cfg : Config) : Machine Engine EngineInput (Fin 3 × SlotOp) where
  step input e := ((engineStep cfg input e).engine, (engineStep cfg input e).log)

/-- The operations of a log on the slot of one stream. -/
def slotLog (stream : Fin 3) (log : List (Fin 3 × SlotOp)) : List SlotOp :=
  log.filterMap fun entry => if entry.1 = stream then some entry.2 else none

/-! ## A sample environment

A configuration and inputs with concrete values, on which closed instances of
later results run. The commitment digests are KangarooTwelve values. -/

/-- A preimage of 512 equal bytes. -/
def samplePreimage (n : Nat) : Preimage := List.Vector.replicate 512 (UInt8.ofNat n)

/-- The KangarooTwelve digests of `samplePreimage 0`, `samplePreimage 1`, …, big-endian. -/
def sampleDigests : List Nat :=
  [0x38985b291880374b4f65e49d89c4dab74662e5e825f17d453928e3e3214e510c,
   0x9d25863c79d138381cb8bafd9e23a9fce3efaaf409b36dec4dc9acce3d1a9226,
   0x76fe1efc0028a8ba43d7daa906de07888e9dd3f8cff00791ad021d3cfb181e0c,
   0x0fbaaea790b109972faca8b23306ec9a2e27fca1fb7086ff66507a90663574a9,
   0x6656811ef14c7369da63501272b204e931fd258f87e76ca00958e025f3d02a8d,
   0x3ac1e8701435d8cf53d64e5c893cb77b346b9fd2c255b3d964f7e9ae87a348f2,
   0xf2b4d84045a3de691d6fa652d7464917bb6bf330fefa7a8a7b6c04569fcb854a,
   0xfdbd686a798deacbede9ddb5a9d104ef040bcd077e774b3f84da4a1ebdd962b9,
   0x41e3d3369ad9ab7f311dcea1ed50622761caba1fbff71c43f731f484c84a6972,
   0x3f0b2e45cf4be752a12fd5a870125681583f45b88c04c33cb70e42c7a37b2dbf,
   0x45dd14358ecc96afb73c333f1e6dab8feee9fbc0d0d8710ce2d6ca492640e207,
   0x434e12db41b7ff2e56c751f76d46d286f92f526ec2f0772fc18f61e44fcc18e4,
   0x98d09ff60c1431516bab440c9e0008ede678305be5a7048da394bfbb632690f5,
   0xfa2f6de920841f1304c454a35526a1a2c09536d3d344560fed4525c49ecbd7b7,
   0x0c9e240106de3e9204c3a333d24444f9f854022d158b7bb3365ab18e9ad24e8f,
   0x5094916d78b2afd0e759ea006ce47c6e097fc2760880eddc64515c1bdc19d76c,
   0xd64f120b57555c13d5d3c5daeb343c87541be1d93665095c81f428187376e5fb,
   0xe0d8ad8a910be263a566275cf8f7a218f341d3013b029a7cb67dc739491bcb3e,
   0xb37a758a919bd0e46baab3828364e7d1a20f594c2fe2355de342827fd9aec7bd,
   0xbd728e34caa82b7dabf5deed1eec9ef6e9c4185bbbaf3612425f0677e45bd1ed,
   0x12b7d46f161f02f1ea77dfe6239d9e62857d0b535bf225ba27cfdf3cace73779,
   0xd3d1511e53c4866d02e255ad94cf478f21ed0c3554aace2559b592e34bb3b513,
   0x9342bfc82c2a36408da2e1feeede815491c008a4185939b780270ca48fe9d906,
   0x6daae7679bcf80d9a9709828d2d66f6b93d3d248d032bf163d3ae92a2e4cecdf]

def sampleConfig : Config where
  collateral := 10
  epochStopLeadTimeSecs := 600
  epochResumeDelayTicks := 0
  emptyTickCheckIntervalMs := 1000
  revealCheckDelayTicks := 10
  commitDigest preimage := List.Vector.ofFn fun i =>
    UInt8.ofNat (sampleDigests.getD preimage.head.toNat 0 / 256 ^ (31 - i.val))
  transactionDigest _ := Digest.zero

def sampleEnv : SigningEnv where
  draw target := samplePreimage target
  sign ticket := .ok (UInt8.ofNat ticket.tick :: ticket.input)

theorem sampleTick_le (tick : Fin 256) : tick.val ≤ u32Max :=
  tick.isLt.le.trans (by decide)

def sampleTick (epoch : Nat) (tick : Fin 256) : TickInfo where
  epoch := epoch
  tick := tick
  initialTick := 0
  tickDurationMs := 1000
  tick_le := sampleTick_le tick

/-- A status response that reports no slot. -/
def emptyStatus : Bytes := List.replicate providerStatusSize 0

/-- A cycle at an instant far from the epoch stop window. -/
def sampleCycle (instant : Nat) (tick : TickInfo) (status : Option Bytes)
    (results : Nat → Option Delivery) : EngineInput :=
  .cycle
    { tick := .ok tick
      now := { timestamp := 0 }
      statusResult := status.map .ok
      broadcastResults := fun _ => results
      cancelled := false
      env := fun _ => sampleEnv
      tickCheckResult := none
      clock :=
        { resetTickCheckAt := instant, resetStatusAt := instant, resetMonitorAt := instant
          statusAt := instant, statusStartedAt := instant, expireAt := instant
          harvestAt := instant, ensureExpireAt := instant, ensureAt := instant } }

/-- Cycles of epoch 1 at the given ticks, with every broadcast accepted and no
slot reported. -/
def steadyRun (ticks : List (Fin 256)) : List EngineInput :=
  ticks.map fun tick =>
    sampleCycle (1000 * tick.val) (sampleTick 1 tick) (some emptyStatus) fun _ => some .ok

/-- A new engine with the sample configuration. -/
def sampleEngine : Engine := Engine.new sampleConfig 0 0 0

end RandomClient
