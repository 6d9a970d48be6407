import Mathlib.Data.Bool.AllAny
import RandomClient.Schedule

/-!
# No miss of one's own making

Cycles of one epoch whose reported ticks rise by three at most, with every
broadcast of one cycle accepted by the harvest of the next: a chain that starts
in such a run keeps every target. `PacedRun` collects what is assumed of the
ticks and the broadcasts, `ChainRun` adds a stream whose chain starts, and
`ChainRun.punctual` carries the schedule of `RandomClient.Schedule` along it.
-/

namespace RandomClient

variable {cfg : Config}

/-! ## The epoch goes on -/

/-- The engine provides in the epoch, or drains before its end. -/
def InEpoch (e : Engine) (epoch : Nat) : Prop :=
  e.epochPhase = some (.active epoch) ∨ e.epochPhase = some (.draining epoch)

section InEpoch

variable {e : Engine} {tick : TickInfo} {epoch : Nat}

theorem InEpoch.unchanged (h : InEpoch e epoch) (hepoch : tick.epoch = epoch) :
    epochChanges e tick = false := by
  rcases h with hphase | hphase <;> simp [epochChanges, hphase, EpochPhase.epoch, hepoch]

theorem InEpoch.phaseAfter (h : InEpoch e epoch) (hepoch : tick.epoch = epoch)
    (input : CycleInput) : RandomClient.phaseAfter cfg tick input e = some (.active epoch) ∨
      RandomClient.phaseAfter cfg tick input e = some (.draining epoch) := by
  unfold RandomClient.phaseAfter
  rw [h.unchanged hepoch, if_neg Bool.false_ne_true]
  rcases h with hphase | hphase
  · rw [hphase]
    simp only [Option.map_some, advancePhase, finishWarmup, enterStopWindow]
    split
    · right
      rw [hepoch]
    · exact .inl rfl
  · rw [hphase]
    exact .inr rfl

/-- A cycle of the epoch plans or drains. -/
theorem InEpoch.plans (h : InEpoch e epoch) (hepoch : tick.epoch = epoch) (input : CycleInput) :
    planOf (RandomClient.phaseAfter cfg tick input e) tick.epoch input.cancelled ≠ .none := by
  unfold planOf
  split
  · nofun
  · rcases @InEpoch.phaseAfter cfg e tick epoch h hepoch input with hphase | hphase
    · rw [hphase, hepoch]
      simp
    · rw [hphase, hepoch]
      simp

theorem InEpoch.step (h : InEpoch e epoch) {input : EngineInput}
    (hepoch : ∀ tick ∈ input.report, tick.epoch = epoch) :
    InEpoch (engineStep cfg input e).engine epoch := by
  cases input with
  | shutdown env =>
    unfold InEpoch
    simp only [engineStep, Exec.forSlots_phase]
    exact h
  | cycle input =>
    cases hreport : input.tick with
    | error err =>
      simp only [engineStep, cycle, hreport]
      exact h
    | ok tick =>
      unfold InEpoch
      simp only [engineStep, cycle, hreport, cycleAt_phase]
      exact h.phaseAfter (hepoch tick (by simp [EngineInput.report, hreport])) input

theorem InEpoch.run (h : InEpoch e epoch) {inputs : List EngineInput}
    (hepoch : ∀ tick ∈ reports inputs, tick.epoch = epoch) :
    InEpoch ((engineMachine cfg).state e inputs) epoch := by
  induction inputs using List.reverseRecOn with
  | nil => exact h
  | append_singleton inputs input ih =>
    rw [reports_snoc] at hepoch
    rw [Machine.state_snoc]
    apply InEpoch.step
    · apply ih
      intro tick hmem
      exact hepoch tick (List.mem_append_left _ hmem)
    · intro tick hmem
      exact hepoch tick (List.mem_append_right _ (Option.mem_toList.2 hmem))

end InEpoch

/-! ## Paced runs -/

/-- The step enters the drain of the streams. -/
def EngineInput.drains (cfg : Config) (e : Engine) : EngineInput → Bool
  | .shutdown _ => true
  | .cycle input =>
    match input.tick with
    | .error _ => false
    | .ok tick =>
      match planOf (phaseAfter cfg tick input e) tick.epoch input.cancelled with
      | .drain _ => true
      | .normal | .none => false

/-- A step of the run entered the drain. -/
def drainEntered (cfg : Config) (e : Engine) (inputs : List EngineInput) : Bool :=
  (engineMachine cfg).track (fun e input entered => entered || input.drains cfg e) e false inputs

/-- The targets of the broadcasts a stream started in the latest cycle. -/
def lastSends (cfg : Config) (e : Engine) (inputs : List EngineInput) (i : Fin 3) : List Nat :=
  (engineMachine cfg).track (fun e input sent =>
    if input.report.isSome then handedTargets (runTrace cfg e [input] i) else sent) e [] inputs

/-- The ticks the slot holds lie sixteen below the largest `u32`. -/
structure ManagedSlot.HeldInRange (slot : ManagedSlot) : Prop where
  restart : InRange slot.restartAt
  chain : ∀ chain, slot.chain = some chain → InRange chain.lastTarget

theorem ManagedSlot.HeldInRange.room {slot : ManagedSlot} (h : slot.HeldInRange) : slot.Room := by
  have hrestart := h.restart
  unfold InRange at hrestart
  refine ⟨by omega, ?_⟩
  intro chain hchain
  have hlast := h.chain chain hchain
  unfold InRange at hlast
  exact ⟨by omega, .inr (by omega)⟩

/-- A run within one epoch from its active phase on. All ticks lie sixteen below the
largest `u32`: those the slots hold at its start, those reported, and the tails
that status freezes. -/
structure PacedRun (cfg : Config) (e : Engine) (epoch : Nat) (inputs : List EngineInput) :
    Prop where
  active : e.epochPhase = some (.active epoch)
  epochs : ∀ tick ∈ reports inputs, tick.epoch = epoch
  /-- Reported ticks never decrease, and rise by three at most. -/
  pace : (reports inputs).IsChain fun previous next =>
    previous.tick ≤ next.tick ∧ next.tick ≤ previous.tick + 3
  held : ∀ i, (e.slots i).HeldInRange
  range : RunInRange cfg e inputs
  /-- Every broadcast started in one cycle has succeeded when the next one harvests. -/
  delivered : ∀ done input rest tick, inputs = done ++ .cycle input :: rest → input.tick = .ok tick →
    ∀ i, ∀ target ∈ lastSends cfg e done i, input.broadcastResults i target = some .ok

theorem lastSends_snoc (e : Engine) (inputs : List EngineInput) (input : EngineInput) (i : Fin 3) :
    lastSends cfg e (inputs ++ [input]) i =
      if input.report.isSome then
        handedTargets (runTrace cfg ((engineMachine cfg).state e inputs) [input] i)
      else lastSends cfg e inputs i :=
  Machine.track_snoc ..

theorem drainEntered_snoc (e : Engine) (inputs : List EngineInput) (input : EngineInput) :
    drainEntered cfg e (inputs ++ [input]) =
      (drainEntered cfg e inputs || input.drains cfg ((engineMachine cfg).state e inputs)) :=
  Machine.track_snoc ..

theorem PacedRun.init {e : Engine} {epoch : Nat} {xs ys : List EngineInput}
    (h : PacedRun cfg e epoch (xs ++ ys)) : PacedRun cfg e epoch xs where
  active := h.active
  epochs tick hmem := by
    apply h.epochs
    rw [reports_append]
    exact List.mem_append_left _ hmem
  pace := by
    have hpace := h.pace
    rw [reports_append] at hpace
    exact hpace.left_of_append
  held := h.held
  range := h.range.init
  delivered done input rest tick hsplit :=
    h.delivered done input (rest ++ ys) tick (by rw [hsplit, List.append_assoc, List.cons_append])

/-! ## One step on the stream -/

section Punctual

variable {i : Fin 3}

/-- The stream after a step of the run. A drain that goes on waits for a tick to come. -/
structure Punctual (cfg : Config) (i : Fin 3) (base ops : List SlotOp) (last : Nat)
    (sent : List Nat) (planned : Bool) : Prop where
  course : OnCourse cfg i base (PlannedCall.OnTime last sent) (last + 3) planned ops
  waits : ∀ reason target,
    ((slotMachine cfg).state (slot₀ cfg i) (base ++ ops)).state = .draining reason target → last < target

/-- The drain entry at a requested shutdown. -/
theorem Punctual.shutdown {base ops : List SlotOp} {last : Nat} {sent : List Nat} {planned : Bool}
    (h : Punctual cfg i base ops last sent planned) (env : SigningEnv)
    (hok : (enterDrain cfg env .shutdown
      ((slotMachine cfg).state (slot₀ cfg i) (base ++ ops))).error = none) :
    Punctual cfg i base (ops ++ [.enterDrain env .shutdown]) last sent false := by
  refine ⟨?_, ?_⟩
  · apply h.course.enterDrain env .shutdown hok
    intro call hstate htask hahead
    refine .waiting hstate htask ?_
    have hlead : sendLead call.kind ≤ sendLeadTicks := by
      cases call.kind <;> decide
    simp only [sendLeadTicks] at hlead
    simp only [streamCount] at hahead
    omega
  · intro reason target hdraining
    rw [← List.append_assoc, slotMachine_state_snoc] at hdraining
    rcases h.course.enterDrain_cases env .shutdown hok with
      ⟨-, hidle⟩ | ⟨_, signed, -, hahead, -, hslot, -⟩
    · rw [hidle] at hdraining
      exact h.waits reason target hdraining
    · rw [hslot] at hdraining
      cases hdraining
      omega

theorem handedTargets_append (t u : List Effect) :
    handedTargets (t ++ u) = handedTargets t ++ handedTargets u := List.filterMap_append

/-- One cycle: what it reads, what it plans and what it delivers. -/
theorem Punctual.cycle {base ops : List SlotOp} {last : Nat} {sent : List Nat} {planned : Bool}
    (h : Punctual cfg i base ops last sent planned) {tick : TickInfo} (hpace : tick.tick ≤ last + 3)
    (hrange : InRange tick.tick) {results : Nat → Option Delivery}
    (hok : ∀ target ∈ sent, results target = some .ok) {reading : List SlotOp}
    {observation : Option StatusObservation}
    (hreading : reading = [.harvestBroadcasts results] ++ statusOps observation tick.epoch)
    {plan : Plan} (hplan : plan ≠ .none) {env : SigningEnv}
    (hfree : ∀ tail restarting, Effect.froze tail restarting ∉ (slotMachine cfg).trace
      ((slotMachine cfg).state (slot₀ cfg i) (base ++ ops)) reading)
    (hplans : failsOn cfg ((slotMachine cfg).state
      ((slotMachine cfg).state (slot₀ cfg i) (base ++ ops)) reading) (planOps plan tick env) = false) :
    let more := reading ++ planOps plan tick env ++ deliveryOps tick
    Punctual cfg i base (ops ++ more) tick.tick
      (handedTargets ((slotMachine cfg).trace
        ((slotMachine cfg).state (slot₀ cfg i) (base ++ ops)) more))
      (planned && decide (plan = .normal)) := by
  intro more
  subst hreading
  have hread := h.course.reads hpace hok observation tick.epoch hfree
  rw [← Machine.state_append, List.append_assoc] at hplans
  have hplanned := hread.plans hrange hplan hplans
  rw [List.append_assoc] at hplanned
  have hsent : ∀ target ∈ handedTargets ((slotMachine cfg).trace ((slotMachine cfg).state
      (slot₀ cfg i) (base ++ (ops ++ ([.harvestBroadcasts results] ++
        statusOps observation tick.epoch ++ planOps plan tick env)))) (deliveryOps tick)),
      target ∈ handedTargets ((slotMachine cfg).trace
        ((slotMachine cfg).state (slot₀ cfg i) (base ++ ops)) more) := by
    intro target hmem
    rw [Machine.trace_append, handedTargets_append, ← Machine.state_append]
    simp only [List.append_assoc] at hmem ⊢
    exact List.mem_append_right _ hmem
  have hdelivered := hplanned.deliver hrange hsent
  rw [List.append_assoc] at hdelivered
  exact ⟨hdelivered.1, hdelivered.2⟩

/-- Operations that plan nothing sign nothing. -/
theorem unsigned_of_quiets {ops : List SlotOp} (h : ∀ op ∈ ops, op.isQuiet = true)
    (slot : ManagedSlot) (call : SignedCall) :
    Effect.signed call ∉ (slotMachine cfg).trace slot ops := by
  intro hmem
  rcases Machine.mem_trace _ hmem with ⟨front, op, back, rfl, hop⟩
  exact SlotOp.unsigned_of_quiet (h op (by simp)) _ call hop

/-- The cycle that starts a chain, whatever it read before. -/
theorem Punctual.start {base reading : List SlotOp} (hquiet : ∀ op ∈ reading, op.isQuiet = true)
    {tick : TickInfo} (hrange : InRange tick.tick) {env : SigningEnv} {first : SignedCall}
    (hsigned : Effect.signed first ∈ (startIfReady cfg env tick.tick
      ((slotMachine cfg).state (slot₀ cfg i) (base ++ reading))).effects)
    (hplans : failsOn cfg ((slotMachine cfg).state (slot₀ cfg i) (base ++ reading))
      (planOps .normal tick env) = false) :
    let ops := reading ++ planOps .normal tick env ++ deliveryOps tick
    Punctual cfg i base ops tick.tick
      (handedTargets ((slotMachine cfg).trace ((slotMachine cfg).state (slot₀ cfg i) base) ops))
      true := by
  intro ops
  have hunsigned : signedCalls ((slotMachine cfg).trace
      ((slotMachine cfg).state (slot₀ cfg i) base) reading) = [] := by
    rw [List.eq_nil_iff_forall_not_mem]
    intro call hmem
    exact unsigned_of_quiets hquiet _ call (mem_signedCalls.1 hmem)
  have hopened := OnCourse.opened hunsigned hsigned
  simp only [planOps, failsOn, Bool.or_false, Bool.or_eq_false_iff] at hplans
  have herror := Option.isNone_iff_eq_none.1 (Option.isSome_eq_false_iff.1 hplans.2)
  have hlead : tick.tick + sendLeadTicks ≤ u32Max := by
    unfold InRange at hrange
    simp only [sendLeadTicks]
    omega
  have hextended := hopened.extendChain env hlead (by
    rw [← List.append_assoc, slotMachine_state_snoc]
    exact herror)
  have hsent : ∀ target ∈ handedTargets ((slotMachine cfg).trace ((slotMachine cfg).state
      (slot₀ cfg i) (base ++ (reading ++ [.startIfReady env tick.tick] ++
        [.extendChain env tick.tick]))) (deliveryOps tick)),
      target ∈ handedTargets ((slotMachine cfg).trace
        ((slotMachine cfg).state (slot₀ cfg i) base) ops) := by
    intro target hmem
    rw [Machine.trace_append, handedTargets_append, ← Machine.state_append]
    simp only [planOps, List.append_assoc, List.cons_append, List.nil_append] at hmem ⊢
    exact List.mem_append_right _ hmem
  have hdelivered := hextended.deliver hrange hsent
  have hops : reading ++ [.startIfReady env tick.tick] ++ [.extendChain env tick.tick] ++
      deliveryOps tick = ops := by
    simp [ops, planOps]
  rw [hops] at hdelivered
  exact ⟨hdelivered.1, hdelivered.2⟩

end Punctual

/-! ## The steps of a paced run -/

section Steps

variable {a b c : Nat} {pre xs : List EngineInput} {epoch : Nat} {input : EngineInput}

theorem PacedRun.inEpoch
    (h : PacedRun cfg ((engineMachine cfg).state (Engine.new cfg a b c) pre) epoch xs) :
    InEpoch ((engineMachine cfg).state (Engine.new cfg a b c) (pre ++ xs)) epoch := by
  rw [Machine.state_append]
  exact InEpoch.run (.inl h.active) h.epochs

theorem PacedRun.report {e : Engine} (h : PacedRun cfg e epoch (xs ++ [input])) {tick : TickInfo}
    (hreport : input.report = some tick) : tick.epoch = epoch ∧ InRange tick.tick ∧
      ∀ last ∈ (reports xs).getLast?, last.tick ≤ tick.tick ∧ tick.tick ≤ last.tick + 3 := by
  have hmem : tick ∈ reports (xs ++ [input]) := by
    rw [reports_snoc, hreport]
    simp
  have hpace := h.pace
  rw [reports_snoc, hreport] at hpace
  refine ⟨h.epochs tick hmem, h.range.reports tick hmem, ?_⟩
  intro last hlast
  exact (List.isChain_append.1 hpace).2.2 last hlast tick rfl

/-- Every step of a paced run plans, and performs on every stream all it has to. -/
theorem PacedRun.whole
    (h : PacedRun cfg ((engineMachine cfg).state (Engine.new cfg a b c) pre) epoch (xs ++ [input]))
    (hsigns : input.Signs) (i : Fin 3) :
    let e := (engineMachine cfg).state (Engine.new cfg a b c) (pre ++ xs)
    failsOn cfg (entrySlot cfg e input i) (planningOps cfg e input i) = false ∧
      slotLog i (engineStep cfg input e).log =
        entryOps e input i ++ planningOps cfg e input i ++ deliveringOps input := by
  have hplans := h.range.plans (fun j => (h.held j).room) hsigns
  exact ⟨hplans i, engineStep_whole hplans i⟩

/-- What a cycle of the epoch reads. -/
theorem entryOps_inEpoch {e : Engine} (h : InEpoch e epoch) {cycleInput : CycleInput}
    {tick : TickInfo} (htick : cycleInput.tick = .ok tick) (hepoch : tick.epoch = epoch) (i : Fin 3) :
    entryOps e (.cycle cycleInput) i = [.harvestBroadcasts (cycleInput.broadcastResults i)] ++
      statusOps (observationOf tick cycleInput e) tick.epoch := by
  simp [entryOps, htick, readingOps, h.unchanged hepoch]

/-- One step of the engine on a stream on course. -/
theorem Punctual.step {e : Engine} {i : Fin 3} {base ops : List SlotOp} {last : Nat}
    {sent : List Nat} {planned : Bool} (h : Punctual cfg i base ops last sent planned)
    (hslot : e.slots i = (slotMachine cfg).state (slot₀ cfg i) (base ++ ops)) (hphase : InEpoch e epoch)
    (hreport : ∀ tick ∈ input.report, tick.epoch = epoch ∧ InRange tick.tick ∧ tick.tick ≤ last + 3)
    (hplans : failsOn cfg (entrySlot cfg e input i) (planningOps cfg e input i) = false)
    (hok : ∀ cycleInput tick, input = .cycle cycleInput → cycleInput.tick = .ok tick →
      ∀ target ∈ sent, cycleInput.broadcastResults i target = some .ok)
    (hfree : ∀ tail restarting, Effect.froze tail restarting ∉
      (slotMachine cfg).trace (e.slots i) (entryOps e input i)) :
    let more := entryOps e input i ++ planningOps cfg e input i ++ deliveringOps input
    Punctual cfg i base (ops ++ more) ((input.report.map TickInfo.tick).getD last)
      (if input.report.isSome then handedTargets ((slotMachine cfg).trace (e.slots i) more) else sent)
      (planned && !input.drains cfg e) := by
  intro more
  cases input with
  | shutdown env =>
    simp only [planningOps, failsOn, Bool.or_false] at hplans
    have herror := Option.isNone_iff_eq_none.1 (Option.isSome_eq_false_iff.1 hplans)
    have hentered := h.shutdown (env i) (by rw [← hslot]; exact herror)
    rw [show (planned && !EngineInput.drains cfg e (.shutdown env)) = false by
      simp [EngineInput.drains]]
    exact hentered
  | cycle cycleInput =>
    cases htick : cycleInput.tick with
    | error err =>
      have hmore : more = [] := by simp [more, entryOps, planningOps, deliveringOps, htick]
      rw [hmore, List.append_nil]
      simp only [EngineInput.report, EngineInput.drains, htick, Option.map_none, Option.getD_none,
        Option.isSome_none, Bool.false_eq_true, if_false, Bool.not_false, Bool.and_true]
      exact h
    | ok tick =>
      rcases hreport tick (by simp [EngineInput.report, htick]) with ⟨hepoch, hrange, hpace⟩
      have hplan := @InEpoch.plans cfg e tick epoch hphase hepoch cycleInput
      have hreading := entryOps_inEpoch hphase htick hepoch i
      simp only [planningOps, htick] at hplans
      unfold entrySlot at hplans
      rw [hslot] at hplans hfree
      have hcycle := h.cycle hpace hrange (hok cycleInput tick rfl htick) hreading hplan hfree hplans
      have hdrains : (!EngineInput.drains cfg e (.cycle cycleInput)) = decide
          (planOf (phaseAfter cfg tick cycleInput e) tick.epoch cycleInput.cancelled = .normal) := by
        simp only [EngineInput.drains, htick]
        cases hkind : planOf (phaseAfter cfg tick cycleInput e) tick.epoch cycleInput.cancelled with
        | none => exact absurd hkind hplan
        | drain | normal => rfl
      simp only [EngineInput.report, htick, Option.map_some, Option.getD_some, Option.isSome_some,
        if_true, hdrains, hslot]
      simp only [planningOps, deliveringOps, htick, more]
      exact hcycle

end Steps

/-! ## A chain that starts in a paced run -/

/-- A paced run whose step `start` signs the first commit of a chain of stream `i`
with a wallet that signs, and after which nothing freezes that chain. -/
structure ChainRun (cfg : Config) (a b c : Nat) (pre : List EngineInput) (epoch : Nat)
    (before : List EngineInput) (start : EngineInput) (later : List EngineInput) (i : Fin 3)
    (first : SignedCall) : Prop where
  paced : PacedRun cfg ((engineMachine cfg).state (Engine.new cfg a b c) pre) epoch
    (before ++ start :: later)
  signs : ∀ input ∈ before ++ start :: later, input.Signs
  starts : Effect.signed first ∈
    runTrace cfg ((engineMachine cfg).state (Engine.new cfg a b c) (pre ++ before)) [start] i
  kind : first.kind = .firstCommit
  free : ∀ tail restarting, Effect.froze tail restarting ∉
    runTrace cfg ((engineMachine cfg).state (Engine.new cfg a b c) (pre ++ before ++ [start])) later i

section ChainRun

variable {a b c : Nat} {pre : List EngineInput} {epoch : Nat} {before : List EngineInput}
  {start : EngineInput} {later : List EngineInput} {i : Fin 3} {first : SignedCall}

theorem ChainRun.init {mid more : List EngineInput}
    (h : ChainRun cfg a b c pre epoch before start (mid ++ more) i first) :
    ChainRun cfg a b c pre epoch before start mid i first where
  paced := by
    have hpaced := h.paced
    rw [← List.cons_append, ← List.append_assoc] at hpaced
    exact hpaced.init
  signs input hmem := by
    apply h.signs
    rw [← List.cons_append, ← List.append_assoc]
    exact List.mem_append_left _ hmem
  starts := h.starts
  kind := h.kind
  free tail restarting hmem := by
    apply h.free tail restarting
    rw [runTrace_append]
    exact List.mem_append_left _ hmem

theorem ChainRun.paced_start (h : ChainRun cfg a b c pre epoch before start later i first) :
    PacedRun cfg ((engineMachine cfg).state (Engine.new cfg a b c) pre) epoch (before ++ [start]) := by
  have hall := h.paced
  rw [← List.singleton_append, ← List.append_assoc] at hall
  exact hall.init

/-- The operations on the stream before the step that starts the chain. -/
def opsBefore (cfg : Config) (a b c : Nat) (pre before : List EngineInput) (i : Fin 3) :
    List SlotOp :=
  history cfg (Engine.new cfg a b c) (pre ++ before) i

/-- The operations on the stream from that step on. -/
def opsSince (cfg : Config) (a b c : Nat) (pre before steps : List EngineInput) (i : Fin 3) :
    List SlotOp :=
  history cfg ((engineMachine cfg).state (Engine.new cfg a b c) (pre ++ before)) steps i

theorem state_of_ops (cfg : Config) (a b c : Nat) (pre before steps : List EngineInput) (i : Fin 3) :
    ((engineMachine cfg).state (Engine.new cfg a b c) (pre ++ before ++ steps)).slots i =
      (slotMachine cfg).state (slot₀ cfg i)
        (opsBefore cfg a b c pre before i ++ opsSince cfg a b c pre before steps i) := by
  rw [slots_of_log, history_append]
  rfl

theorem trace_of_ops (cfg : Config) (a b c : Nat) (pre before steps : List EngineInput) (i : Fin 3) :
    runTrace cfg (Engine.new cfg a b c) (pre ++ before ++ steps) i =
      (slotMachine cfg).trace (slot₀ cfg i)
        (opsBefore cfg a b c pre before i ++ opsSince cfg a b c pre before steps i) := by
  unfold runTrace
  rw [history_append]
  rfl

theorem trace_since (cfg : Config) (a b c : Nat) (pre before steps : List EngineInput) (i : Fin 3) :
    runTrace cfg ((engineMachine cfg).state (Engine.new cfg a b c) (pre ++ before)) steps i =
      (slotMachine cfg).trace ((slotMachine cfg).state (slot₀ cfg i)
        (opsBefore cfg a b c pre before i)) (opsSince cfg a b c pre before steps i) := by
  unfold runTrace
  rw [slots_of_log]
  rfl

theorem history_one (e : Engine) (input : EngineInput) (i : Fin 3) :
    history cfg e [input] i = slotLog i (engineStep cfg input e).log :=
  history_snoc cfg e [] input i

theorem runTrace_one (e : Engine) (input : EngineInput) (i : Fin 3) :
    runTrace cfg e [input] i =
      (slotMachine cfg).trace (e.slots i) (slotLog i (engineStep cfg input e).log) :=
  runTrace_snoc e [] input i

/-- The step that starts the chain is a cycle that plans. -/
theorem ChainRun.started (h : ChainRun cfg a b c pre epoch before start later i first) :
    let e := (engineMachine cfg).state (Engine.new cfg a b c) (pre ++ before)
    ∃ cycleInput tick, start = .cycle cycleInput ∧ cycleInput.tick = .ok tick ∧
      planOf (phaseAfter cfg tick cycleInput e) tick.epoch cycleInput.cancelled = .normal ∧
      Effect.signed first ∈ (startIfReady cfg (cycleInput.env i) tick.tick
        (entrySlot cfg e start i)).effects := by
  intro e
  have hpaced := h.paced_start
  have hlog := (hpaced.whole (h.signs start (by simp)) i).2
  have hsigned := h.starts
  rw [runTrace_one, hlog, List.append_assoc, Machine.trace_append, Machine.trace_append] at hsigned
  have hmem : Effect.signed first ∈ (slotMachine cfg).trace (entrySlot cfg e start i)
      (planningOps cfg e start i) := by
    rcases List.mem_append.1 hsigned with hread | hrest
    · exact absurd hread (unsigned_of_quiets (fun op hop => entryOps_quiet hop) _ first)
    · rcases List.mem_append.1 hrest with hplan | hdeliver
      · exact hplan
      · exact absurd hdeliver (unsigned_of_quiets (fun op hop => deliveringOps_quiet hop) _ first)
  -- a drain entry signs a terminal reveal, an extension a reveal+commit
  rcases Machine.mem_trace _ hmem with ⟨front, op, back, hops, hop⟩
  have hemits := (SlotOp.emits hop).resolve_left (by nofun)
  have hkind := h.kind
  cases hemits with
  | closes hclose =>
    rw [hclose] at hkind
    cases hkind
  | continues hcontinue =>
    rw [hcontinue] at hkind
    cases hkind
  | starts =>
    cases hstart : start with
    | shutdown env =>
      rw [hstart] at hops
      cases front with
      | nil => cases hops
      | cons op front => cases front <;> cases hops
    | cycle cycleInput =>
      rw [hstart] at hops
      cases htick : cycleInput.tick with
      | error err =>
        simp [planningOps, htick] at hops
      | ok tick =>
        simp only [planningOps, htick] at hops
        cases hplan : planOf (phaseAfter cfg tick cycleInput e) tick.epoch cycleInput.cancelled with
        | none =>
          rw [hplan] at hops
          simp [planOps] at hops
        | drain reason =>
          rw [hplan] at hops
          cases front with
          | nil => cases hops
          | cons op front => cases front <;> cases hops
        | normal =>
          rw [hplan] at hops
          refine ⟨cycleInput, tick, rfl, htick, hplan, ?_⟩
          cases front with
          | nil =>
            cases hops
            rw [hstart] at hop
            exact hop
          | cons op front =>
            cases front with
            | nil => cases hops
            | cons op front => cases front <;> cases hops

/-- Along the run the stream stays on course. -/
theorem ChainRun.punctual (h : ChainRun cfg a b c pre epoch before start later i first) :
    ∃ last, (reports (before ++ start :: later)).getLast? = some last ∧
      Punctual cfg i (opsBefore cfg a b c pre before i)
        (opsSince cfg a b c pre before (start :: later) i) last.tick
        (lastSends cfg ((engineMachine cfg).state (Engine.new cfg a b c) pre)
          (before ++ start :: later) i)
        (!drainEntered cfg ((engineMachine cfg).state (Engine.new cfg a b c) (pre ++ before))
          (start :: later)) := by
  induction later using List.reverseRecOn with
  | nil =>
    rcases h.started with ⟨cycleInput, tick, rfl, htick, hplan, hsigned⟩
    have hreport : (EngineInput.cycle cycleInput).report = some tick := by
      simp [EngineInput.report, htick]
    have hpaced := h.paced
    rcases hpaced.whole (h.signs _ (by simp)) i with ⟨hplans, hlog⟩
    rcases hpaced.report hreport with ⟨hepoch, hrange, -⟩
    refine ⟨tick, by rw [reports_snoc, hreport]; simp, ?_⟩
    have hslot := slots_of_log cfg (Engine.new cfg a b c) (pre ++ before) i
    have hops : opsSince cfg a b c pre before [.cycle cycleInput] i =
        entryOps ((engineMachine cfg).state (Engine.new cfg a b c) (pre ++ before))
          (.cycle cycleInput) i ++ planOps .normal tick (cycleInput.env i) ++ deliveryOps tick := by
      unfold opsSince
      rw [history_one, hlog]
      simp only [planningOps, deliveringOps, htick, hplan]
    have hentry : entrySlot cfg ((engineMachine cfg).state (Engine.new cfg a b c) (pre ++ before))
        (.cycle cycleInput) i = (slotMachine cfg).state (slot₀ cfg i)
          (opsBefore cfg a b c pre before i ++
            entryOps ((engineMachine cfg).state (Engine.new cfg a b c) (pre ++ before))
              (.cycle cycleInput) i) := by
      unfold entrySlot
      rw [hslot]
      exact (Machine.state_append ..).symm
    simp only [planningOps, htick, hplan] at hplans
    rw [hentry] at hsigned hplans
    have hstart := Punctual.start (fun op hop => entryOps_quiet hop) hrange hsigned hplans
    have hdrains : drainEntered cfg ((engineMachine cfg).state (Engine.new cfg a b c) (pre ++ before))
        [.cycle cycleInput] = false := by
      rw [← List.nil_append [EngineInput.cycle cycleInput], drainEntered_snoc]
      simp [drainEntered, Machine.track, EngineInput.drains, htick, hplan]
    rw [hdrains, lastSends_snoc, hreport, ← Machine.state_append, trace_since, hops]
    exact hstart
  | append_singleton later input ih =>
    rcases ih h.init with ⟨last, hlast, hpunctual⟩
    have hsplit : before ++ start :: (later ++ [input]) = before ++ start :: later ++ [input] := by
      simp
    have hpaced := h.paced
    rw [hsplit] at hpaced ⊢
    have hsigns := h.signs input (by simp)
    rcases hpaced.whole hsigns i with ⟨hplans, hlog⟩
    have hinEpoch := hpaced.init.inEpoch
    rw [← List.append_assoc] at hplans hlog hinEpoch
    generalize he : (engineMachine cfg).state (Engine.new cfg a b c)
      (pre ++ before ++ start :: later) = e at hplans hlog hinEpoch
    have hslot : e.slots i = (slotMachine cfg).state (slot₀ cfg i)
        (opsBefore cfg a b c pre before i ++ opsSince cfg a b c pre before (start :: later) i) := by
      rw [← he]
      exact state_of_ops cfg a b c pre before (start :: later) i
    have hops : opsSince cfg a b c pre before (start :: (later ++ [input])) i =
        opsSince cfg a b c pre before (start :: later) i ++
          (entryOps e input i ++ planningOps cfg e input i ++ deliveringOps input) := by
      unfold opsSince
      rw [← List.cons_append, history_snoc, ← Machine.state_append, he, hlog]
    have hsends : lastSends cfg ((engineMachine cfg).state (Engine.new cfg a b c) pre)
        (before ++ start :: later ++ [input]) i =
        if input.report.isSome then handedTargets ((slotMachine cfg).trace (e.slots i)
          (entryOps e input i ++ planningOps cfg e input i ++ deliveringOps input))
        else lastSends cfg ((engineMachine cfg).state (Engine.new cfg a b c) pre)
          (before ++ start :: later) i := by
      rw [lastSends_snoc, ← Machine.state_append, ← List.append_assoc, he, runTrace_one, hlog]
    have hdrains : drainEntered cfg ((engineMachine cfg).state (Engine.new cfg a b c) (pre ++ before))
        (start :: (later ++ [input])) =
        (drainEntered cfg ((engineMachine cfg).state (Engine.new cfg a b c) (pre ++ before))
          (start :: later) || input.drains cfg e) := by
      rw [← List.cons_append, drainEntered_snoc, ← Machine.state_append, he]
    have hreport : ∀ tick ∈ input.report,
        tick.epoch = epoch ∧ InRange tick.tick ∧ tick.tick ≤ last.tick + 3 := by
      intro tick htick
      rcases hpaced.report htick with ⟨hepoch, hrange, hpace⟩
      exact ⟨hepoch, hrange, (hpace last hlast).2⟩
    have hok : ∀ cycleInput tick, input = .cycle cycleInput → cycleInput.tick = .ok tick →
        ∀ target ∈ lastSends cfg ((engineMachine cfg).state (Engine.new cfg a b c) pre)
          (before ++ start :: later) i, cycleInput.broadcastResults i target = some .ok := by
      rintro cycleInput tick rfl htick
      exact hpaced.delivered (before ++ start :: later) cycleInput [] tick rfl htick i
    have hfree : ∀ tail restarting, Effect.froze tail restarting ∉
        (slotMachine cfg).trace (e.slots i) (entryOps e input i) := by
      intro tail restarting hmem
      apply h.free tail restarting
      have hstate : (engineMachine cfg).state (Engine.new cfg a b c)
          (pre ++ before ++ [start] ++ later) = e := by
        rw [List.append_assoc (pre ++ before)]
        exact he
      rw [runTrace_snoc, ← Machine.state_append, hstate, hlog, Machine.trace_append,
        Machine.trace_append]
      exact List.mem_append_right _ (List.mem_append_left _ (List.mem_append_left _ hmem))
    have hstep := hpunctual.step hslot hinEpoch hreport hplans hok hfree
    rw [hops, hsends, hdrains, Bool.not_or]
    cases hsome : input.report with
    | none =>
      rw [hsome] at hstep
      refine ⟨last, ?_, hstep⟩
      rw [reports_snoc, hsome]
      simpa using hlast
    | some tick =>
      rw [hsome] at hstep
      refine ⟨tick, ?_, hstep⟩
      rw [reports_snoc, hsome]
      simp

/-! ### What is kept -/

/-- The calls of the chain are those signed since its start. -/
theorem ChainRun.signed_iff (h : ChainRun cfg a b c pre epoch before start later i first)
    {call : SignedCall} :
    call ∈ currentChain (runTrace cfg (Engine.new cfg a b c) (pre ++ before ++ start :: later) i) ↔
      Effect.signed call ∈
        runTrace cfg ((engineMachine cfg).state (Engine.new cfg a b c) (pre ++ before))
          (start :: later) i := by
  rcases h.punctual with ⟨last, -, hpunctual⟩
  rw [trace_of_ops, hpunctual.course.signed, mem_signedCalls, trace_since]

/-- A call that came due was accepted by the harvest of the cycle. -/
theorem ChainRun.accepted {cycleInput : CycleInput}
    (h : ChainRun cfg a b c pre epoch before start (later ++ [.cycle cycleInput]) i first)
    {tick : TickInfo} (htick : cycleInput.tick = .ok tick) {call : SignedCall}
    (hsigned : Effect.signed call ∈
      runTrace cfg ((engineMachine cfg).state (Engine.new cfg a b c) (pre ++ before))
        (start :: later) i)
    (hdue : call.targetTick ≤ tick.tick) :
    AcceptedIn (runTrace cfg (Engine.new cfg a b c) (pre ++ before ++ start :: later) i ++
      (harvestBroadcasts (cycleInput.broadcastResults i)
        (((engineMachine cfg).state (Engine.new cfg a b c) (pre ++ before ++ start :: later)).slots
          i)).effects) call.targetTick := by
  rcases h.init.punctual with ⟨last, hlast, hpunctual⟩
  have hpaced := h.paced
  rw [← List.cons_append, ← List.append_assoc] at hpaced
  have hreport : (EngineInput.cycle cycleInput).report = some tick := by
    simp [EngineInput.report, htick]
  have hpace := ((hpaced.report hreport).2.2 last hlast).2
  have hharvested := hpunctual.course.harvest hpace
    (hpaced.delivered (before ++ start :: later) cycleInput [] tick rfl htick i)
  have hmem : call ∈ currentChain ((slotMachine cfg).trace (slot₀ cfg i)
      (opsBefore cfg a b c pre before i ++ (opsSince cfg a b c pre before (start :: later) i ++
        [.harvestBroadcasts (cycleInput.broadcastResults i)]))) := by
    rw [hharvested.signed, mem_signedCalls, Machine.trace_append, ← trace_since]
    exact List.mem_append_left _ hsigned
  have haccepted := hharvested.accepted_by hmem hdue
  rw [← List.append_assoc, slotMachine_trace_snoc] at haccepted
  rw [trace_of_ops, state_of_ops]
  exact haccepted

/-- Until a drain is entered the chain is planned. -/
theorem ChainRun.planning (h : ChainRun cfg a b c pre epoch before start later i first)
    (hnone : drainEntered cfg ((engineMachine cfg).state (Engine.new cfg a b c) (pre ++ before))
      (start :: later) = false) :
    (((engineMachine cfg).state (Engine.new cfg a b c) (pre ++ before ++ start :: later)).slots
      i).state.isPlanning = true := by
  rcases h.punctual with ⟨last, -, hpunctual⟩
  have hstage := hpunctual.course.stage
  rw [hnone] at hstage
  rw [state_of_ops]
  cases hstage with
  | planning hstate => exact hstate

/-- No reported tick is past the last one. -/
theorem PacedRun.le_last {e : Engine} {inputs : List EngineInput} (h : PacedRun cfg e epoch inputs)
    {last : TickInfo} (hlast : (reports inputs).getLast? = some last) :
    ∀ tick ∈ reports inputs, tick.tick ≤ last.tick := by
  rcases List.getLast?_eq_some_iff.1 hlast with ⟨earlier, hearlier⟩
  have hrise : ((reports inputs).map TickInfo.tick).IsChain (· ≤ ·) := by
    rw [List.isChain_map]
    exact h.pace.imp fun _ _ hpace => hpace.1
  intro tick hmem
  rw [hearlier] at hmem hrise
  rcases List.mem_append.1 hmem with hold | hsame
  · rw [List.map_append] at hrise
    exact (List.pairwise_append.1 hrise.pairwise).2.2 _ (List.mem_map_of_mem hold) last.tick (by simp)
  · rw [List.mem_singleton.1 hsame]

/-- After a drain entry the terminal reveal is accepted once its tick is reported. -/
theorem ChainRun.drained (h : ChainRun cfg a b c pre epoch before start later i first)
    (hentered : drainEntered cfg ((engineMachine cfg).state (Engine.new cfg a b c) (pre ++ before))
      (start :: later) = true) :
    let slot := ((engineMachine cfg).state (Engine.new cfg a b c)
      (pre ++ before ++ start :: later)).slots i
    ∃ terminal, Effect.signed terminal ∈
      runTrace cfg ((engineMachine cfg).state (Engine.new cfg a b c) (pre ++ before))
        (start :: later) i ∧ terminal.kind = .terminalReveal ∧
      (slot.state.isDraining = true ∨ slot.state = .drained .accepted) ∧
      (slot.state = .drained .accepted →
        AcceptedIn (runTrace cfg (Engine.new cfg a b c) (pre ++ before ++ start :: later) i)
          terminal.targetTick) ∧
      ∀ tick ∈ reports (start :: later), terminal.targetTick ≤ tick.tick →
        slot.state = .drained .accepted := by
  intro slot
  rcases h.punctual with ⟨last, hlast, hpunctual⟩
  have hcourse := hpunctual.course
  rw [hentered] at hcourse
  rcases hcourse.terminal rfl with ⟨terminal, hmem, hkind, htarget⟩
  rw [← trace_of_ops] at hmem
  have hslot : slot = (slotMachine cfg).state (slot₀ cfg i)
      (opsBefore cfg a b c pre before i ++ opsSince cfg a b c pre before (start :: later) i) :=
    state_of_ops cfg a b c pre before (start :: later) i
  have hstage : slot.state.isDraining = true ∨ slot.state = .drained .accepted := by
    rw [hslot]
    cases hcourse.stage with
    | draining hstate => exact .inl hstate
    | drained hstate => exact .inr hstate
  refine ⟨terminal, h.signed_iff.1 hmem, hkind, hstage, ?_, ?_⟩
  · intro hstate
    rw [trace_of_ops] at hmem ⊢
    apply hcourse.closed _ terminal hmem
    have hpresent := (@slotShape cfg i (opsBefore cfg a b c pre before i ++
      opsSince cfg a b c pre before (start :: later) i)).present
    rw [← hslot, hstate] at hpresent
    rw [← hslot]
    simpa [SlotState.isPlanning, SlotState.isRestarting, SlotState.isDraining] using hpresent
  · intro tick htick hreached
    rcases hstage with hdraining | hdrained
    · -- a drain that goes on waits for a tick that was not reported yet
      cases hstate : slot.state with
      | draining reason target =>
        rw [hslot] at hstate
        have hwaits := hpunctual.waits reason target hstate
        rw [htarget reason target hstate] at hwaits
        have hreported : tick ∈ reports (before ++ start :: later) := by
          rw [reports_append]
          exact List.mem_append_right _ htick
        have hle := h.paced.le_last hlast tick hreported
        omega
      | _ =>
        rw [hstate] at hdraining
        cases hdraining
    · exact hdrained

/-! ### No target fails -/

/-- Without a reset, an outcome is failed that was failed before, or that was
marked as a financial failure. -/
theorem failed_of_ops {ops : List MonitorOp} (hreset : ∀ op ∈ ops, op.isReset = false) {m : Monitor}
    {target : Nat}
    (h : ((monitorMachine cfg).state m ops).sendOutcomes.lookup target = some .failed) :
    m.sendOutcomes.lookup target = some .failed ∨
      Effect.financialFailure target ∈ bookedEffects ops := by
  induction ops using List.reverseRecOn with
  | nil => exact .inl h
  | append_singleton ops op ih =>
    rw [Machine.state_snoc] at h
    rw [bookedEffects_append]
    rcases MonitorOp.lookup_run (hreset op (by simp)) h with hbefore | ⟨hrecords, -⟩
    · rcases ih (fun op' hmem => hreset op' (List.mem_append_left _ hmem)) hbefore with hold | hnew
      · exact .inl hold
      · exact .inr (List.mem_append_left _ hnew)
    · right
      apply List.mem_append_right
      rcases MonitorOp.records_cases hrecords with ⟨-, hok⟩ | ⟨rfl, -⟩ | ⟨hempty, -⟩
      · cases hok
      · simp [bookedEffects]
      · cases hempty

/-- What a run books is an effect of one of the streams. -/
theorem mem_ledger_run {e : Engine} {inputs : List EngineInput} {effect : Effect}
    (h : effect ∈ bookedEffects (ledger cfg e inputs)) : ∃ j, effect ∈ runTrace cfg e inputs j := by
  induction inputs using List.reverseRecOn with
  | nil => cases h
  | append_singleton inputs input ih =>
    rw [ledger_snoc, bookedEffects_append, stepLedger_effects] at h
    rcases List.mem_append.1 h with hold | hnew
    · rcases ih hold with ⟨j, hmem⟩
      refine ⟨j, ?_⟩
      rw [runTrace_snoc]
      exact List.mem_append_left _ hmem
    · rcases slotsMachine_mem hnew with ⟨j, hmem⟩
      refine ⟨j, ?_⟩
      rw [runTrace_snoc]
      exact List.mem_append_right _ hmem

/-- The monitor is not reset while the epoch goes on. -/
theorem InEpoch.ledger_unreset {e : Engine} (h : InEpoch e epoch) {inputs : List EngineInput}
    (hepoch : ∀ tick ∈ reports inputs, tick.epoch = epoch) :
    ∀ op ∈ ledger cfg e inputs, op.isReset = false := by
  induction inputs using List.reverseRecOn with
  | nil => intro op hop; cases hop
  | append_singleton inputs input ih =>
    rw [reports_snoc] at hepoch
    have hbefore : ∀ tick ∈ reports inputs, tick.epoch = epoch := fun tick hmem =>
      hepoch tick (List.mem_append_left _ hmem)
    intro op hop
    rw [ledger_snoc] at hop
    rcases List.mem_append.1 hop with hold | hnew
    · exact ih hbefore op hold
    · rcases @stepLedger_cases cfg input ((engineMachine cfg).state e inputs) with
        ⟨tick, _, _, _, hreport, hchange, -⟩ | ⟨-, hquiet⟩
      · have hsame := (@InEpoch.run cfg e epoch h inputs hbefore).unchanged
          (hepoch tick (List.mem_append_right _ (by rw [hreport]; exact List.mem_singleton_self tick)))
        rw [hchange] at hsame
        cases hsame
      · exact hquiet op hnew

/-- The first commit is signed after what its cycle read, and the rest follows it. -/
theorem ChainRun.trace_split (h : ChainRun cfg a b c pre epoch before start later i first) :
    let e := (engineMachine cfg).state (Engine.new cfg a b c) (pre ++ before)
    .reset ∉ entryOps e start i ∧
      (∃ env tick, (slotMachine cfg).trace (slot₀ cfg i)
        (opsBefore cfg a b c pre before i ++ entryOps e start i ++ [.startIfReady env tick]) =
          (slotMachine cfg).trace (slot₀ cfg i)
            (opsBefore cfg a b c pre before i ++ entryOps e start i) ++ [.signed first]) ∧
      ∃ u, runTrace cfg e (start :: later) i =
        (slotMachine cfg).trace (e.slots i) (entryOps e start i) ++ [.signed first] ++ u := by
  intro e
  rcases h.started with ⟨cycleInput, tick, rfl, htick, hplan, hsigned⟩
  have heffects := (startIfReady_opens hsigned).2.2.1
  have hpaced := h.paced_start
  have hlog := (hpaced.whole (h.signs _ (by simp)) i).2
  have hepoch := (hpaced.report (by simp [EngineInput.report, htick] : _ = some tick)).1
  refine ⟨?_, ⟨cycleInput.env i, tick.tick, ?_⟩, ?_⟩
  · rw [entryOps_inEpoch hpaced.init.inEpoch htick hepoch]
    simp only [statusOps]
    repeat' split
    all_goals simp
  · have hslot : (slotMachine cfg).state (slot₀ cfg i) (opsBefore cfg a b c pre before i) =
        e.slots i := (slots_of_log cfg (Engine.new cfg a b c) (pre ++ before) i).symm
    rw [slotMachine_trace_snoc, Machine.state_append, hslot]
    exact congrArg _ heffects
  · have hstart : ∀ ops, (slotMachine cfg).trace (entrySlot cfg e (.cycle cycleInput) i)
        (.startIfReady (cycleInput.env i) tick.tick :: ops) = [.signed first] ++ (slotMachine cfg).trace
          (startIfReady cfg (cycleInput.env i) tick.tick
            (entrySlot cfg e (.cycle cycleInput) i)).slot ops := by
      intro ops
      rw [← heffects]
      rfl
    rw [← List.singleton_append, runTrace_append, runTrace_one, hlog]
    simp only [planningOps, htick, hplan, planOps]
    rw [List.append_assoc, Machine.trace_append]
    rw [show (slotMachine cfg).state (e.slots i) (entryOps e (.cycle cycleInput) i) =
      entrySlot cfg e (.cycle cycleInput) i from rfl, List.cons_append, hstart]
    simp only [List.append_assoc]
    exact ⟨_, rfl⟩

/-- A call of the epoch signed earlier targets a tick before the chain. -/
theorem ChainRun.before_first (h : ChainRun cfg a b c pre epoch before start later i first)
    {front back : List SlotOp}
    (hsplit : entryOps ((engineMachine cfg).state (Engine.new cfg a b c) (pre ++ before)) start i =
      front ++ back) {signed : SignedCall}
    (hmem : signed ∈ periodCalls ((slotMachine cfg).trace (slot₀ cfg i)
      (opsBefore cfg a b c pre before i ++ front))) : signed.targetTick < first.targetTick := by
  rcases h.trace_split with ⟨hreset, ⟨env, tick, htrace⟩, -⟩
  have hquiet : Effect.reset ∉ (slotMachine cfg).trace ((slotMachine cfg).state (slot₀ cfg i)
      (opsBefore cfg a b c pre before i ++ front)) back := by
    apply trace_quiet
    rw [hsplit] at hreset
    exact fun hback => hreset (List.mem_append_right _ hback)
  have hspaced := (slotMachine_run i (opsBefore cfg a b c pre before i ++
    entryOps ((engineMachine cfg).state (Engine.new cfg a b c) (pre ++ before)) start i ++
      [.startIfReady env tick]) : SlotRun cfg (slot₀ cfg i) _ _).slotInv.planned.spaced
  rw [htrace, periodCalls_signed, hsplit, ← List.append_assoc, Machine.trace_append] at hspaced
  have hold := (periodCalls_isPrefix hquiet _).subset hmem
  have hle := (List.pairwise_append.1 hspaced).2.2 signed hold first (by simp)
  simp only [streamCount] at hle
  omega

/-- What the cycle that starts the chain reads blames earlier targets only. -/
theorem ChainRun.reading_failure (h : ChainRun cfg a b c pre epoch before start later i first)
    {target : Nat} :
    let e := (engineMachine cfg).state (Engine.new cfg a b c) (pre ++ before)
    Effect.financialFailure target ∈ (slotMachine cfg).trace (e.slots i) (entryOps e start i) →
      target < first.targetTick := by
  intro e hmem
  rcases Machine.mem_trace _ hmem with ⟨front, op, back, hsplit, hop⟩
  have hquiet : op.tick = none := entryOps_tick (by rw [hsplit]; simp)
  have hslot : e.slots i = (slotMachine cfg).state (slot₀ cfg i) (opsBefore cfg a b c pre before i) :=
    slots_of_log cfg (Engine.new cfg a b c) (pre ++ before) i
  rw [hslot, ← Machine.state_append] at hop
  have hinv := (slotMachine_run i (opsBefore cfg a b c pre before i ++ front) :
    SlotRun cfg (slot₀ cfg i) _ _).slotInv
  -- whatever is blamed at no tick was signed before
  have hsigned : ∃ signed ∈ periodCalls ((slotMachine cfg).trace (slot₀ cfg i)
      (opsBefore cfg a b c pre before i ++ front)), signed.targetTick = target := by
    have hrecorded : ∀ chain call, ((slotMachine cfg).state (slot₀ cfg i)
        (opsBefore cfg a b c pre before i ++ front)).chain = some chain → call ∈ chain.calls →
        call.targetTick = target → ∃ signed ∈ periodCalls ((slotMachine cfg).trace (slot₀ cfg i)
          (opsBefore cfg a b c pre before i ++ front)), signed.targetTick = target := by
      rintro chain call hchain hcall rfl
      rw [← queue_of_chain hchain] at hcall
      rcases hinv.queue.recorded call hcall with ⟨signed, hperiod, hrecords⟩
      exact ⟨signed, hperiod, hrecords.target⟩
    have hfailure := mem_failures.2 hop
    cases @loses_of_ops cfg i (opsBefore cfg a b c pre before i ++ front) op with
    | nothing hnone =>
      change target ∈ failures (op.run cfg _).effects at hfailure
      rw [hnone] at hfailure
      cases hfailure
    | target hone _ _ hcause =>
      change target ∈ failures (op.run cfg _).effects at hfailure
      rw [hone] at hfailure
      cases List.mem_singleton.1 hfailure
      cases hcause with
      | evidence hplanning hchain hfirst howns =>
        rcases revealed_of_owned i _ hplanning hchain hfirst howns with ⟨signed, hperiod, htarget, -⟩
        exact ⟨signed, hperiod, htarget⟩
      | missed _ _ _ htick =>
        rw [hquiet] at htick
        cases htick
      | expired hchain hcall _ htarget => exact hrecorded _ _ hchain hcall htarget
      | terminal _ hchain hcall _ htarget => exact hrecorded _ _ hchain hcall htarget
  rcases hsigned with ⟨signed, hperiod, rfl⟩
  exact h.before_first hsplit hperiod

/-- After the first commit nothing is marked as a financial failure. -/
theorem ChainRun.unblamed (h : ChainRun cfg a b c pre epoch before start later i first)
    {target : Nat} (hle : first.targetTick ≤ target) : Effect.financialFailure target ∉
      runTrace cfg ((engineMachine cfg).state (Engine.new cfg a b c) (pre ++ before))
        (start :: later) i := by
  intro hmem
  rcases h.trace_split with ⟨-, -, u, hu⟩
  rcases h.punctual with ⟨last, -, hpunctual⟩
  have hlossless := hpunctual.course.lossless
  have hsigned := hpunctual.course.signed
  rw [← trace_since, hu] at hsigned
  rw [Machine.trace_append, ← trace_since, hu, ← List.append_assoc, ← List.append_assoc] at hlossless
  -- the current chain is `first` and what was signed after it
  have hcalls : currentChain ((slotMachine cfg).trace (slot₀ cfg i)
      (opsBefore cfg a b c pre before i ++ opsSince cfg a b c pre before (start :: later) i)) =
        first :: signedCalls u := by
    rw [hsigned, signedCalls_append, signedCalls_append]
    have hnone : signedCalls ((slotMachine cfg).trace
        (((engineMachine cfg).state (Engine.new cfg a b c) (pre ++ before)).slots i)
        (entryOps ((engineMachine cfg).state (Engine.new cfg a b c) (pre ++ before)) start i)) = [] := by
      rw [List.eq_nil_iff_forall_not_mem]
      intro call hcall
      exact unsigned_of_quiets (fun op hop => entryOps_quiet hop) _ call (mem_signedCalls.1 hcall)
    rw [hnone]
    rfl
  have hunstarted : ∀ e ∈ u, e.starts = false := by
    intro e he
    cases e with
    | signed call =>
      have hlater := currentChain_tail_kind ((slotMachine cfg).trace (slot₀ cfg i)
        (opsBefore cfg a b c pre before i ++ opsSince cfg a b c pre before (start :: later) i)) call
      rw [hcalls] at hlater
      simpa [Effect.starts] using hlater (mem_signedCalls.2 he)
    | _ => rfl
  have hkept : failures u = [] := by
    rw [chainFailures_of_unstarted hunstarted, List.append_eq_nil_iff] at hlossless
    exact hlossless.2
  rw [hu] at hmem
  rcases List.mem_append.1 hmem with hfront | hafter
  · rcases List.mem_append.1 hfront with hread | hstart
    · have hlt := h.reading_failure hread
      omega
    · cases List.mem_singleton.1 hstart
  · have hfailure := mem_failures.2 hafter
    rw [hkept] at hfailure
    cases hfailure

/-- While ticks never decreased before, no target of the chain had failed before it started. -/
theorem ChainRun.unfailed_before (h : ChainRun cfg a b c pre epoch before start later i first)
    (hrise : RisingReports (pre ++ before ++ [start])) {target : Nat}
    (hmod : target % streamCount = i) (hle : first.targetTick ≤ target) :
    ((engineMachine cfg).state (Engine.new cfg a b c) (pre ++ before)).monitor.sendOutcomes.lookup
      target ≠ some .failed := by
  intro hfailed
  rcases h.started with ⟨cycleInput, tick, hcycle, htick, -, hsigned⟩
  have hlead := (startIfReady_opens hsigned).2.1
  have hreport : start.report = some tick := by simp [hcycle, EngineInput.report, htick]
  unfold RisingReports at hrise
  rw [reports_snoc, hreport, List.isChain_append] at hrise
  have hrecords : Records (runTrace cfg (Engine.new cfg a b c) (pre ++ before) i) target := by
    rcases recorded_of_lookup a b c (pre ++ before) i hmod hfailed with hok | ⟨-, hlost⟩
    · exact .inl hok
    · exact .inr hlost
  have hticks := @ticksRise_of_reports cfg a b c _ hrise.1 i
  cases (outcomeInv i (opsBefore cfg a b c pre before i) hticks.1).blamed target hrecords with
  | reveal hmem htarget =>
    have hlt := h.before_first (List.nil_append _).symm (by rw [List.append_nil]; exact hmem)
    omega
  | terminal hmem htarget =>
    have hlt := h.before_first (List.nil_append _).symm (by rw [List.append_nil]; exact hmem)
    omega
  | unplanned hcame =>
    -- it came by the last tick reported before the start
    have hpaced := h.paced_start
    have hepoch := epoch_of_reports cfg a b c (pre ++ before)
    have hlast := hcame.trans hticks.2
    cases hreported : (reports (pre ++ before)).getLast? with
    | none =>
      rw [hreported] at hepoch
      rcases hpaced.init.inEpoch with hphase | hphase <;> rw [hphase] at hepoch <;> cases hepoch
    | some previous =>
      rw [hreported] at hepoch hlast
      have hsame : previous.epoch = tick.epoch := by
        rw [(hpaced.report hreport).1]
        rcases hpaced.init.inEpoch with hphase | hphase <;> rw [hphase] at hepoch <;>
          exact (Option.some.inj hepoch).symm
      have hrises := hrise.2.2 previous hreported tick rfl hsame
      simp only [Option.map_some, Option.getD_some] at hlast
      simp only [sendLeadTicks] at hlead
      omega

/-- No target of the chain comes to be recorded as failed. -/
theorem ChainRun.unfailed (h : ChainRun cfg a b c pre epoch before start later i first)
    {target : Nat} (hmod : target % streamCount = i) (hle : first.targetTick ≤ target)
    (hfailed : ((engineMachine cfg).state (Engine.new cfg a b c)
      (pre ++ before ++ start :: later)).monitor.sendOutcomes.lookup target = some .failed) :
    ((engineMachine cfg).state (Engine.new cfg a b c) (pre ++ before)).monitor.sendOutcomes.lookup
      target = some .failed := by
  have hphase := h.paced_start.init.inEpoch
  have hepochs : ∀ tick ∈ reports (start :: later), tick.epoch = epoch := by
    intro tick hmem
    apply h.paced.epochs
    rw [reports_append]
    exact List.mem_append_right _ hmem
  rw [Machine.state_append, monitor_of_ledger] at hfailed
  rcases failed_of_ops (hphase.ledger_unreset hepochs) hfailed with hbefore | hnew
  · exact hbefore
  · -- only the stream of the target blames it
    rcases mem_ledger_run hnew with ⟨j, hmem⟩
    have hown : target % streamCount = j := by
      refine @booked_mod cfg j (opsBefore cfg a b c pre before j ++
        opsSince cfg a b c pre before (start :: later) j) (.financialFailure target) target ?_ rfl
      rw [Machine.trace_append, ← trace_since]
      exact List.mem_append_right _ hmem
    rw [hmod, Fin.val_inj] at hown
    rw [← hown] at hmem
    exact absurd hmem (h.unblamed hle)

end ChainRun

/-- In a paced run the chain is planned until a drain is entered, its calls are
accepted by the harvest of the first cycle whose tick reaches their target, none of
its targets comes to be recorded as failed, and a drain ends with the acceptance of
the terminal reveal. Only a target that failed before the chain started, on reported
ticks that fell back, is still recorded so. -/
theorem no_self_inflicted_miss (cfg : Config) (a b c : Nat) (pre : List EngineInput) (epoch : Nat)
    (before : List EngineInput) (start : EngineInput) (later : List EngineInput) (i : Fin 3)
    (first : SignedCall) (h : ChainRun cfg a b c pre epoch before start later i first)
    (mid : List EngineInput) (hmid : mid <+: later) :
    let new := Engine.new cfg a b c
    let e := (engineMachine cfg).state new (pre ++ before)
    let steps := start :: mid
    let e' := (engineMachine cfg).state new (pre ++ before ++ steps)
    (drainEntered cfg e steps = false → (e'.slots i).state.isPlanning = true) ∧
    (∀ done cycleInput rest tick, steps = done ++ .cycle cycleInput :: rest →
      cycleInput.tick = .ok tick → ∀ call, Effect.signed call ∈ runTrace cfg e done i →
        call.targetTick ≤ tick.tick →
          let slot := ((engineMachine cfg).state new (pre ++ before ++ done)).slots i
          AcceptedIn (runTrace cfg new (pre ++ before ++ done) i ++
            (harvestBroadcasts (cycleInput.broadcastResults i) slot).effects) call.targetTick) ∧
    (∀ target, target % streamCount = i → first.targetTick ≤ target →
      e'.monitor.sendOutcomes.lookup target = some .failed →
        e.monitor.sendOutcomes.lookup target = some .failed ∧
          ¬ RisingReports (pre ++ before ++ [start])) ∧
    (drainEntered cfg e steps = true → ∃ terminal, Effect.signed terminal ∈ runTrace cfg e steps i ∧
      terminal.kind = .terminalReveal ∧
      ((e'.slots i).state.isDraining = true ∨ (e'.slots i).state = .drained .accepted) ∧
      ((e'.slots i).state = .drained .accepted →
        AcceptedIn (runTrace cfg new (pre ++ before ++ steps) i) terminal.targetTick) ∧
      ∀ tick ∈ reports steps, terminal.targetTick ≤ tick.tick →
        (e'.slots i).state = .drained .accepted) := by
  intro new e steps e'
  rcases hmid with ⟨more, rfl⟩
  have hrun := h.init
  refine ⟨hrun.planning, ?_, ?_, hrun.drained⟩
  · intro done cycleInput rest tick hsteps htick call hsigned hdue
    cases done with
    | nil => cases hsigned
    | cons step done =>
      rw [List.cons_append, List.cons.injEq] at hsteps
      rcases hsteps with ⟨rfl, rfl⟩
      rw [← List.singleton_append, ← List.append_assoc] at hrun
      exact hrun.init.accepted htick hsigned hdue
  · intro target hmod hle hfailed
    have hbefore := hrun.unfailed hmod hle hfailed
    refine ⟨hbefore, ?_⟩
    intro hrise
    exact hrun.unfailed_before hrise hmod hle hbefore

/-- A cycle that finds every broadcast task finished with success. -/
def pacedCycle (status : Option Bytes) (cancelled : Bool) (tick : Fin 256) : EngineInput :=
  .cycle
    { tick := .ok (sampleTick 1 tick)
      now := { timestamp := 0 }
      statusResult := status.map .ok
      broadcastResults := fun _ _ => some .ok
      cancelled := cancelled
      env := fun _ => sampleEnv
      tickCheckResult := none
      clock :=
        { resetTickCheckAt := 0, resetStatusAt := 0, resetMonitorAt := 0, statusAt := 0
          statusStartedAt := 0, expireAt := 0, harvestAt := 0, ensureExpireAt := 0, ensureAt := 0 } }

/-- The cycle at tick 1, in which the query of tick 0 finds no slot reported. -/
def pacedStart : EngineInput := pacedCycle (some emptyStatus) false 1

/-- Cycles at rising ticks, with a shutdown request after tick 8. -/
def pacedSteps : List EngineInput :=
  [4, 5, 8].map (pacedCycle none false) ++ [.shutdown fun _ => sampleEnv] ++
    [9, 12, 15, 18].map (pacedCycle none true)

theorem pacedCycle_accepts {status : Option Bytes} {cancelled : Bool} {tick : Fin 256}
    {input : CycleInput} (h : pacedCycle status cancelled tick = .cycle input) (i : Fin 3)
    (target : Nat) : input.broadcastResults i target = some .ok := by
  cases h
  rfl

theorem unfrozen_of_all {t : List Effect}
    (h : (t.all fun | .froze _ _ => false | _ => true) = true) (tail : Nat) (restarting : Bool) :
    Effect.froze tail restarting ∉ t := by
  intro hmem
  cases List.all_eq_true.1 h _ hmem

/-- The whole run is paced, and starts the chain of stream 1 at tick 1. -/
theorem pacedSteps_chainRun : ChainRun sampleConfig 0 0 0 (steadyRun [0]) 1 []
    pacedStart pacedSteps 1 retriedCommit where
  paced :=
    { active := by decide +kernel
      epochs := List.all_iff_forall_prop.1 (by decide +kernel)
      pace := by decide +kernel
      held := by
        have hfresh : ∀ i, (((engineMachine sampleConfig).state (Engine.new sampleConfig 0 0 0)
            (steadyRun [0])).slots i).restartAt = 0 ∧ (((engineMachine sampleConfig).state
              (Engine.new sampleConfig 0 0 0) (steadyRun [0])).slots i).chain = none := by
          decide +kernel
        intro i
        refine ⟨?_, ?_⟩
        · rw [(hfresh i).1]
          decide
        · intro chain hchain
          rw [(hfresh i).2] at hchain
          cases hchain
      range :=
        { reports := List.all_iff_forall_prop.1 (by decide +kernel)
          frozen := by
            have hnone : ∀ i, ((runTrace sampleConfig ((engineMachine sampleConfig).state
                (Engine.new sampleConfig 0 0 0) (steadyRun [0]))
                ([] ++ pacedStart :: pacedSteps) i).all
                  fun | .froze _ _ => false | _ => true) = true := by
              decide +kernel
            intro i tail restarting hmem
            exact absurd hmem (unfrozen_of_all (hnone i) tail restarting) }
      delivered := by
        intro done input rest tick hsplit _ i target _
        have hmem : EngineInput.cycle input ∈ pacedStart :: pacedSteps := by
          rw [← List.nil_append (_ :: pacedSteps), hsplit]
          simp
        simp only [pacedStart, pacedSteps, List.map_cons, List.map_nil, List.cons_append, List.nil_append,
          List.mem_cons, List.not_mem_nil, or_false] at hmem
        rcases hmem with h | h | h | h | h | h | h | h | h
        all_goals
          first
          | exact pacedCycle_accepts h.symm i target
          | cases h }
  signs := by
    intro input hmem
    simp only [pacedStart, pacedSteps, List.map_cons, List.map_nil, List.cons_append, List.nil_append,
      List.mem_cons, List.not_mem_nil, or_false] at hmem
    rcases hmem with rfl | rfl | rfl | rfl | rfl | rfl | rfl | rfl | rfl <;>
      exact fun _ _ => ⟨_, rfl⟩
  starts := by decide +kernel
  kind := rfl
  free := unfrozen_of_all (by decide +kernel)

/-- The chain of stream 1 is planned up to tick 8 and drained at tick 18, its
terminal reveal at tick 16. -/
theorem no_self_inflicted_miss_shutdown :
    (((engineMachine sampleConfig).state (Engine.new sampleConfig 0 0 0)
      (steadyRun [0] ++ pacedStart :: pacedSteps.take 3)).slots 1).state.isPlanning = true ∧
    (((engineMachine sampleConfig).state (Engine.new sampleConfig 0 0 0)
      (steadyRun [0] ++ pacedStart :: pacedSteps)).slots 1).state = .drained .accepted := by
  have hplanned := no_self_inflicted_miss sampleConfig 0 0 0 (steadyRun [0]) 1 [] pacedStart
    pacedSteps 1 retriedCommit pacedSteps_chainRun (pacedSteps.take 3) (List.take_prefix 3 pacedSteps)
  have hclosed := no_self_inflicted_miss sampleConfig 0 0 0 (steadyRun [0]) 1 [] pacedStart
    pacedSteps 1 retriedCommit pacedSteps_chainRun pacedSteps List.prefix_rfl
  simp only [List.append_nil] at hplanned hclosed
  have hopen : drainEntered sampleConfig ((engineMachine sampleConfig).state
      (Engine.new sampleConfig 0 0 0) (steadyRun [0])) (pacedStart :: pacedSteps.take 3) = false := by
    decide +kernel
  have hentered : drainEntered sampleConfig ((engineMachine sampleConfig).state
      (Engine.new sampleConfig 0 0 0) (steadyRun [0])) (pacedStart :: pacedSteps) = true := by
    decide +kernel
  have hreported : sampleTick 1 18 ∈ reports (pacedStart :: pacedSteps) :=
    List.mem_of_getLast? (by decide +kernel)
  have hle : ∀ call ∈ signedCalls (runTrace sampleConfig ((engineMachine sampleConfig).state
      (Engine.new sampleConfig 0 0 0) (steadyRun [0])) (pacedStart :: pacedSteps) 1),
      call.targetTick ≤ (sampleTick 1 18).tick :=
    List.all_iff_forall_prop.1 (by decide +kernel)
  rcases hclosed.2.2.2 hentered with ⟨terminal, hsigned, -, -, -, hends⟩
  exact ⟨hplanned.1 hopen, hends _ hreported (hle terminal (mem_signedCalls.2 hsigned))⟩

end RandomClient
