import RandomClient.History
import RandomClient.Plan

/-!
# The atomic changes of a slot

Every operation of the engine on a slot is a sequence of a few kinds of change
(`SlotStep`): sign one call, change what status is known, sweep the queue, drop
the chain. `SlotOp.steps` says so for all operations at once, and what a slot
does over a whole history is then a run of these changes. Invariants of slots
are proved for one change.
-/

namespace RandomClient

variable (cfg : Config)

/-- The effects that only keep the books. -/
def Effect.isNote : Effect → Bool
  | .aborted _ _ | .recordedOk _ | .financialFailure _ | .digest _ _ => true
  | _ => false

/-- The planned calls of a slot. -/
def ManagedSlot.queue (slot : ManagedSlot) : List PlannedCall :=
  match slot.chain with
  | some chain => chain.calls
  | none => []

/-- The chain a first commit opens, behind the calls already queued. -/
def freshChain (older : List PlannedCall) (call : SignedCall) (next : Preimage) : Chain where
  firstTarget := call.targetTick
  lastTarget := call.targetTick
  confirmedThrough := none
  statusSuspicion := none
  outstandingPreimage := next
  calls := older ++ [call.planned]

/-- A chain with one more continuation. -/
def Chain.extendBy (chain : Chain) (call : SignedCall) (next : Preimage) : Chain :=
  { chain with
    lastTarget := call.targetTick
    outstandingPreimage := next
    calls := chain.calls ++ [call.planned] }

/-- One atomic change of a slot, with its effects. -/
inductive SlotStep : ManagedSlot → List Effect → ManagedSlot → Prop where
  | note {slot : ManagedSlot} {effects : List Effect} (h : ∀ e ∈ effects, e.isNote = true) :
      SlotStep slot effects slot
  | reset {slot : ManagedSlot} : SlotStep slot [.reset] (resetSlot slot).slot
  | start {slot : ManagedSlot} {call : SignedCall} {next : Preimage}
      (hready : slot.state.readyToStart = true)
      (hcall : Starts cfg slot.key.stream slot.restartAt call next) :
      SlotStep slot [.signed call]
        { slot with
          chain := some (freshChain slot.queue call next)
          state := .starting call.targetTick }
  | extend {slot : ManagedSlot} {chain : Chain} {call : SignedCall} {next : Preimage}
      (hstate : slot.state.isPlanning = true) (hchain : slot.chain = some chain)
      (hcall : Extends cfg slot.key.stream chain.lastTarget chain.outstandingPreimage call next) :
      SlotStep slot [.signed call] { slot with chain := some (chain.extendBy call next) }
  | close {slot : ManagedSlot} {chain : Chain} {reason : DrainReason} {call : SignedCall}
      (hstate : slot.state.isPlanning = true) (hchain : slot.chain = some chain)
      (hcall : Closes slot.key.stream chain.lastTarget chain.outstandingPreimage reason call) :
      SlotStep slot [.signed call]
        { slot with
          chain := some { chain with calls := chain.calls ++ [call.planned] }
          state := .draining reason call.targetTick }
  | watch {slot : ManagedSlot} {chain : Chain} {state : SlotState} {confirmed : Option Nat}
      {suspicion : Option StatusSuspicion}
      (hstate : slot.state.isPlanning = true) (hchain : slot.chain = some chain)
      (hnext : state = slot.state ∨ state = .active) :
      SlotStep slot []
        { slot with
          state := state
          chain := some
            { chain with confirmedThrough := confirmed, statusSuspicion := suspicion } }
  | freeze {slot : ManagedSlot} {chain : Chain} {absenceAfterTick : Nat} {absenceObserved : Bool}
      (hstate : slot.state.isPlanning = true) (hchain : slot.chain = some chain) :
      SlotStep slot [.froze chain.lastTarget true]
        { slot with
          restartAt := chain.lastTarget + streamCount
          state := .restarting chain.lastTarget absenceAfterTick absenceObserved none }
  | exhaust {slot : ManagedSlot} {chain : Chain}
      (hstate : slot.state.isPlanning = true) (hchain : slot.chain = some chain) :
      SlotStep slot [.froze chain.lastTarget false]
        { slot with chain := none, restartAt := u32Max, state := .drained .failed }
  | wait {slot : ManagedSlot} {after after' : Nat} {observed observed' : Bool}
      (hstate : slot.state = .waiting after observed) :
      SlotStep slot [] { slot with state := .waiting after' observed' }
  | hold {slot : ManagedSlot} {tail after after' : Nat} {observed observed' : Bool}
      {drain drain' : Option DrainReason} (hstate : slot.state = .restarting tail after observed drain) :
      SlotStep slot [] { slot with state := .restarting tail after' observed' drain' }
  | harvest {slot : ManagedSlot} {chain : Chain} (results : Nat → Option Delivery)
      (hchain : slot.chain = some chain) :
      SlotStep slot (chain.calls.flatMap (harvestEffects slot.state.isShutdownDrain results))
        { slot with chain := some { chain with
            calls := chain.calls.map (harvestCall slot.state.isShutdownDrain results) } }
  | expire {slot : ManagedSlot} {chain : Chain} (currentTick : Nat)
      (hchain : slot.chain = some chain) :
      SlotStep slot []
        { slot with chain := some { chain with
            calls := chain.calls.map (expireCall currentTick chain.firstTarget) } }
  | dispatch {slot : ManagedSlot} {chain : Chain} (currentTick tickDurationMs : Nat)
      (hchain : slot.chain = some chain) :
      SlotStep slot
        (chain.calls.flatMap (dispatchEffects (dispatchContext currentTick slot.state chain)
          tickDurationMs))
        { slot with chain := some { chain with
            calls := chain.calls.map (dispatchCall (dispatchContext currentTick slot.state chain)
              tickDurationMs) } }
  | prune {slot : ManagedSlot} {chain : Chain} (currentTick : Nat)
      (hstate : slot.state.isDraining = false) (hchain : slot.chain = some chain) :
      SlotStep slot []
        { slot with chain := some { chain with
            calls := chain.calls.filter (keepsCall currentTick chain.firstTarget) } }
  | lose {slot : ManagedSlot} {chain : Chain} {absenceAfterTick : Nat}
      (hstate : slot.state.isPlanning = true) (hchain : slot.chain = some chain) :
      SlotStep slot []
        { slot with
          chain := none
          restartAt := chain.lastTarget + streamCount
          state := .waiting absenceAfterTick false }
  | settle {slot : ManagedSlot} {tail after : Nat} {observed : Bool}
      (hstate : slot.state = .restarting tail after observed none) :
      SlotStep slot [] { slot with chain := none, state := .waiting after observed }
  | rest {slot : ManagedSlot} {after : Nat} {observed : Bool}
      (hstate : slot.state = .waiting after observed) :
      SlotStep slot [] { slot with state := .drained .nothingToDrain }
  | abandon {slot : ManagedSlot} {restartAt : Nat} {outcome : DrainOutcome} :
      SlotStep slot []
        { slot with chain := none, restartAt := restartAt, state := .drained outcome }

/-- Sequences of atomic changes. -/
abbrev SlotRun : ManagedSlot → List Effect → ManagedSlot → Prop := LabelledRun (SlotStep cfg)

variable {cfg}

theorem SlotStep.key {slot slot' : ManagedSlot} {u : List Effect} (h : SlotStep cfg slot u slot') :
    slot'.key = slot.key := by
  cases h <;> rfl

/-! ## Notes -/

theorem abortCalls_notes {calls : List PlannedCall} {e : Effect} (h : e ∈ abortCalls calls) :
    e.isNote = true := by
  obtain ⟨call, -, hcall⟩ := List.mem_filterMap.1 h
  obtain ⟨task, -, rfl⟩ := Option.map_eq_some_iff.1 hcall
  rfl

theorem abortChain_notes {chain : Option Chain} {e : Effect} (h : e ∈ abortChain chain) :
    e.isNote = true := by
  cases chain with
  | none => cases h
  | some chain => exact abortCalls_notes h

/-- The optional failure record of expiry, dispatch and freeze. -/
theorem failure_notes (failure : Option Nat) {e : Effect}
    (h : e ∈ (match failure with
      | some target => [Effect.financialFailure target]
      | none => [])) : e.isNote = true := by
  cases failure with
  | none => cases h
  | some target =>
    rw [List.mem_singleton.1 h]
    rfl

/-- A run may keep books before its first change. -/
theorem SlotRun.after_notes {slot slot' : ManagedSlot} {notes u : List Effect}
    (h : ∀ e ∈ notes, e.isNote = true) (hrun : SlotRun cfg slot u slot') :
    SlotRun cfg slot (notes ++ u) slot' :=
  .cons (.note h) hrun

/-- A change whose effects are all notes. -/
theorem SlotRun.noted {slot slot' : ManagedSlot} {notes : List Effect}
    (h : ∀ e ∈ notes, e.isNote = true) (hstep : SlotStep cfg slot [] slot') :
    SlotRun cfg slot notes slot' := by
  have hrun := SlotRun.after_notes h (.single hstep)
  simpa using hrun

/-! ## Signing -/

theorem buildTransaction_ok {env : SigningEnv} {input : RevealAndCommitInput} {targetTick : Nat}
    {key : SlotKey} {txBytes : Bytes}
    (h : buildTransaction cfg env input targetTick key = .ok txBytes) :
    targetTick % streamCount = key.stream ∧ env.sign
      { contractIndex := randomContractIndex
        amount := cfg.collateral
        tick := targetTick
        inputType := revealAndCommitProcedure
        input := input.encode } = .ok txBytes := by
  unfold buildTransaction at h
  split at h
  · cases h
  · rename_i hmod
    exact ⟨not_not.1 hmod, h⟩

/-- `next_stream_tick` returns the least tick of the stream. -/
theorem nextStreamTick_isLeast {atOrAfter stream target : Nat} (hstream : stream < streamCount)
    (h : nextStreamTick atOrAfter stream = some target) :
    target ≤ u32Max ∧ IsLeast {t | t % streamCount = stream ∧ atOrAfter ≤ t} target := by
  unfold nextStreamTick at h
  obtain ⟨hsum, hle⟩ := Bounded.checkedAdd_eq_some.1 h
  simp only [streamCount] at *
  refine ⟨hle, ⟨?_, ?_⟩, ?_⟩
  · omega
  · omega
  · rintro t ⟨hmod, hat⟩
    omega

theorem startIfReady_steps (env : SigningEnv) (currentTick : Nat) {slot : ManagedSlot}
    (hstream : slot.key.stream < streamCount) :
    SlotRun cfg slot (startIfReady cfg env currentTick slot).effects
      (startIfReady cfg env currentTick slot).slot := by
  unfold startIfReady
  split
  · rename_i hready
    split
    · exact .nil
    · rename_i lead hlead
      split
      · exact .nil
      · rename_i target htarget
        dsimp only
        split
        · exact .nil
        · rename_i txBytes hbuild
          obtain ⟨hsum, -⟩ := Bounded.checkedAdd_eq_some.1 hlead
          obtain ⟨hle, hleast⟩ := nextStreamTick_isLeast hstream htarget
          rw [← hsum] at hleast
          exact .single (.start hready
            { kind := rfl, reveal := rfl, commit := rfl, preimage := rfl, drain := rfl
              target_le := hle, least := ⟨currentTick, rfl, by simpa [and_assoc] using hleast⟩ })
  · exact .nil

/-- One round of the loop of `extend_chain` signs the next continuation. -/
theorem extendOnce_extends {env : SigningEnv} {currentTick horizon : Nat} {key : SlotKey}
    {chain chain' : Chain} {call : SignedCall}
    (h : extendOnce cfg env currentTick horizon key chain = .extended chain' call) :
    ∃ next, Extends cfg key.stream chain.lastTarget chain.outstandingPreimage call next ∧
      chain' = chain.extendBy call next := by
  unfold extendOnce at h
  split at h
  · cases h
  · rename_i target htarget
    split at h
    · cases h
    · dsimp only at h
      split at h
      · cases h
      · rename_i txBytes hbuild
        obtain ⟨hsum, hle⟩ := Bounded.checkedAdd_eq_some.1 htarget
        cases h
        exact ⟨env.draw target,
          { kind := rfl, target := hsum.symm, target_le := hle,
            target_mod := (buildTransaction_ok hbuild).1, reveal := rfl, commit := rfl,
            preimage := rfl, drain := rfl }, rfl⟩

theorem extendLoop_steps (env : SigningEnv) (currentTick horizon fuel : Nat) (key : SlotKey)
    (chain : Chain) {slot : ManagedSlot} (hkey : slot.key = key)
    (hstate : slot.state.isPlanning = true) (hchain : slot.chain = some chain) :
    SlotRun cfg slot (extendLoop cfg env currentTick horizon key fuel chain).2.1
      { slot with
        chain := some (extendLoop cfg env currentTick horizon key fuel chain).1 } := by
  induction fuel generalizing slot chain with
  | zero =>
    simp only [extendLoop, ← hchain]
    exact .nil
  | succ fuel ih =>
    simp only [extendLoop]
    split
    · rw [← hchain]
      exact .nil
    · rw [← hchain]
      exact .nil
    · rename_i chain' call honce
      obtain ⟨next, hcall, rfl⟩ := extendOnce_extends honce
      rw [← hkey] at hcall
      have hstep : SlotStep cfg slot [.signed call]
          { slot with chain := some (chain.extendBy call next) } := .extend hstate hchain hcall
      exact .cons hstep (ih _ hkey hstate rfl)

/-! ## Losing and draining -/

theorem loseChain_chain (after : Nat) (observed : Bool) (slot : ManagedSlot) :
    (loseChain after observed slot).slot.chain = none := by
  unfold loseChain
  dsimp only
  split <;> rfl

/-- A chain being planned is lost: the slot waits, or is drained when no restart tick is left. -/
theorem loseChain_steps (absenceAfterTick : Nat) {slot : ManagedSlot} {chain : Chain}
    (hstate : slot.state.isPlanning = true) (hchain : slot.chain = some chain) :
    SlotRun cfg slot (loseChain absenceAfterTick false slot).effects
      (loseChain absenceAfterTick false slot).slot := by
  have haborts : ∀ e ∈ abortChain (some chain), e.isNote = true := fun _ he => abortChain_notes he
  simp only [loseChain, hchain]
  split
  · exact .noted haborts .abandon
  · rename_i restartAt hrestart
    obtain ⟨hsum, -⟩ := Bounded.checkedAdd_eq_some.1 hrestart
    rw [← hsum]
    exact .noted haborts (.lose hstate hchain)

theorem completeDrain_steps (outcome : DrainOutcome) (slot : ManagedSlot) :
    SlotRun cfg slot (completeDrain outcome slot).effects (completeDrain outcome slot).slot :=
  .noted (fun _ => abortChain_notes) .abandon

theorem SlotRun.followedBy {slot : ManagedSlot} {r : SlotResult} {next : ManagedSlot → SlotResult}
    (hr : SlotRun cfg slot r.effects r.slot)
    (hnext : SlotRun cfg r.slot (next r.slot).effects (next r.slot).slot) :
    SlotRun cfg slot (r.followedBy next).effects (r.followedBy next).slot := hr.trans hnext

/-- Expiry sweeps the queue and then loses the chain, ends the drain or does nothing more. -/
theorem expireCalls_steps (currentTick : Nat) (slot : ManagedSlot) :
    SlotRun cfg slot (expireCalls currentTick slot).effects
      (expireCalls currentTick slot).slot := by
  unfold expireCalls
  split
  · exact .nil
  · rename_i chain hchain
    dsimp only
    have hsweep : SlotStep cfg slot [] { slot with chain := some { chain with
        calls := chain.calls.map (expireCall currentTick chain.firstTarget) } } :=
      .expire currentTick hchain
    have haborts : ∀ e ∈ expireAborts currentTick chain.calls, e.isNote = true :=
      fun _ => abortCalls_notes
    split
    · exact .noted haborts hsweep
    · -- the failure record follows the aborts; what happens next depends on the state
      have hnotes : ∀ e ∈ expireAborts currentTick chain.calls ++
          (match expiryFailure slot.state (expiredCalls currentTick chain.firstTarget chain.calls)
            with
          | some target => [Effect.financialFailure target]
          | none => []), e.isNote = true := by
        intro e he
        rcases List.mem_append.1 he with he | he
        · exact haborts e he
        · exact failure_notes _ he
      have hnoted := SlotRun.noted hnotes hsweep
      split
      · rename_i hstate
        exact hnoted.followedBy (loseChain_steps _ (by simp [hstate, SlotState.isPlanning]) rfl)
      · rename_i hstate
        exact hnoted.followedBy (loseChain_steps _ (by simp [hstate, SlotState.isPlanning]) rfl)
      · exact hnoted.followedBy (completeDrain_steps _ _)
      · exact hnoted
      · exact hnoted
      · exact hnoted

/-- After an expiry that left it planning, a slot holds its chain with the queue swept. -/
theorem expireCalls_of_planning {currentTick : Nat} {slot : ManagedSlot} {chain : Chain}
    (hstate : slot.state.isPlanning = true) (hchain : slot.chain = some chain)
    (hafter : (expireCalls currentTick slot).slot.state.isPlanning = true) :
    (expireCalls currentTick slot).slot = { slot with chain := some { chain with
      calls := chain.calls.map (expireCall currentTick chain.firstTarget) } } := by
  have hlose : ∀ after slot, (loseChain after false slot).slot.state.isPlanning = false := by
    intro after slot
    unfold loseChain
    dsimp only
    split <;> rfl
  simp only [expireCalls, hchain] at hafter ⊢
  split at hafter
  · rename_i hempty
    rw [if_pos hempty]
  · split at hafter
    · simp [SlotResult.followedBy, hlose] at hafter
    · simp [SlotResult.followedBy, hlose] at hafter
    · cases hafter
    all_goals
      rename_i hother
      simp [hother, SlotState.isPlanning] at hstate

theorem extendChain_steps (env : SigningEnv) (currentTick : Nat) (slot : ManagedSlot) :
    SlotRun cfg slot (extendChain cfg env currentTick slot).effects
      (extendChain cfg env currentTick slot).slot := by
  unfold extendChain
  split
  · rename_i hstate
    split
    · rename_i missed hmissed
      obtain ⟨chain, hchain, -⟩ := Option.bind_eq_some_iff.1 hmissed
      refine (expireCalls_steps currentTick slot).followedBy ?_
      split
      · -- a slot that is still planning kept its chain, which is lost now
        rename_i hafter
        rw [expireCalls_of_planning hstate hchain hafter]
        have hnote : ∀ e ∈ [Effect.financialFailure missed], e.isNote = true := by
          simp [Effect.isNote]
        exact SlotRun.after_notes hnote (loseChain_steps _ hstate rfl)
      · exact .nil
    · split
      · exact .nil
      · rename_i horizon hhorizon
        split
        · exact .nil
        · rename_i chain hchain
          exact extendLoop_steps env currentTick horizon _ slot.key chain rfl hstate hchain
  · exact .nil

theorem enterDrain_steps (env : SigningEnv) (reason : DrainReason) (slot : ManagedSlot) :
    SlotRun cfg slot (enterDrain cfg env reason slot).effects
      (enterDrain cfg env reason slot).slot := by
  unfold enterDrain
  split
  · exact .nil
  · exact .nil
  · rename_i hstate
    exact .single (.rest hstate)
  · rename_i hstate
    exact .single (.hold hstate)
  all_goals
    rename_i hstate
    split
    · exact .nil
    · rename_i chain hchain
      split
      · exact .nil
      · rename_i terminalTarget hterminal
        dsimp only
        split
        · exact .nil
        · rename_i txBytes hbuild
          obtain ⟨hsum, hle⟩ := Bounded.checkedAdd_eq_some.1 hterminal
          refine .single (.close (by simp [hstate, SlotState.isPlanning]) hchain
            { kind := rfl, target := hsum.symm, target_le := hle,
              target_mod := (buildTransaction_ok hbuild).1, reveal := rfl, commit := rfl,
              preimage := rfl, drain := rfl })

/-! ## Delivery and finishing -/

theorem dispatchCalls_steps (currentTick tickDurationMs : Nat) (slot : ManagedSlot) :
    SlotRun cfg slot (dispatchCalls currentTick tickDurationMs slot).effects
      (dispatchCalls currentTick tickDurationMs slot).slot := by
  unfold dispatchCalls
  split
  · exact .nil
  · rename_i chain hchain
    exact (LabelledRun.single (.dispatch currentTick tickDurationMs hchain)).trans
      (.single (.note fun _ he => failure_notes _ he))

theorem harvestBroadcasts_steps (results : Nat → Option Delivery) (slot : ManagedSlot) :
    SlotRun cfg slot (harvestBroadcasts results slot).effects
      (harvestBroadcasts results slot).slot := by
  unfold harvestBroadcasts
  split
  · exact .nil
  · rename_i chain hchain
    dsimp only
    rw [List.append_assoc]
    refine (LabelledRun.single (.harvest results hchain)).trans (.single (.note ?_))
    intro e he
    rcases List.mem_append.1 he with he | he
    · obtain ⟨_, -, rfl⟩ := List.mem_map.1 he
      rfl
    · obtain ⟨_, -, rfl⟩ := List.mem_map.1 he
      rfl

theorem finishDrain_steps (slot : ManagedSlot) :
    SlotRun cfg slot (finishDrain slot).effects (finishDrain slot).slot := by
  unfold finishDrain
  split
  · dsimp only
    split
    · exact completeDrain_steps _ _
    · exact completeDrain_steps _ _
    · exact .nil
  · exact .nil

theorem finishStatusRestart_steps (currentTick : Nat) (slot : ManagedSlot) :
    SlotRun cfg slot (finishStatusRestart currentTick slot).effects
      (finishStatusRestart currentTick slot).slot := by
  unfold finishStatusRestart
  split
  · rename_i hstate
    split
    · exact .nil
    · dsimp only
      split
      · exact .noted (fun _ he => abortChain_notes he) .abandon
      · exact .noted (fun _ he => abortChain_notes he) (.settle hstate)
  · exact .nil

theorem pruneCalls_steps (currentTick : Nat) (slot : ManagedSlot) :
    SlotRun cfg slot (pruneCalls currentTick slot).effects (pruneCalls currentTick slot).slot := by
  unfold pruneCalls
  split
  · exact .nil
  · rename_i hstate
    split
    · exact .nil
    · rename_i chain hchain
      exact .single (.prune currentTick (by simpa using hstate) hchain)

/-! ## Status -/

theorem beginStatusRestart_steps (absenceAfterTick : Nat) (absenceObserved : Bool)
    {slot : ManagedSlot} (hstate : slot.state.isPlanning = true) :
    SlotRun cfg slot (beginStatusRestart absenceAfterTick absenceObserved slot).effects
      (beginStatusRestart absenceAfterTick absenceObserved slot).slot := by
  unfold beginStatusRestart
  split
  · exact .nil
  · rename_i chain hchain
    split
    · exact .after_notes (fun _ he => abortChain_notes he) (.single (.exhaust hstate hchain))
    · rename_i restartAt hrestart
      obtain ⟨hsum, -⟩ := Bounded.checkedAdd_eq_some.1 hrestart
      rw [← hsum]
      exact .single (.freeze hstate hchain)

theorem observeStatusEvidence_steps (evidence : StatusEvidence) (requestedTick : Nat)
    {slot : ManagedSlot} (hstate : slot.state.isPlanning = true) :
    SlotRun cfg slot (observeStatusEvidence evidence requestedTick slot).effects
      (observeStatusEvidence evidence requestedTick slot).slot := by
  unfold observeStatusEvidence
  split
  · exact .nil
  · rename_i chain hchain
    split
    · exact .nil
    · generalize suspicionAfter chain.statusSuspicion evidence requestedTick = suspicion
      have hwatch : SlotStep cfg slot []
          { slot with chain := some { chain with statusSuspicion := some suspicion } } :=
        .watch hstate hchain (.inl rfl)
      dsimp only
      split
      · exact .silent hwatch (SlotRun.after_notes (fun _ he => failure_notes _ he)
          (beginStatusRestart_steps _ _ hstate))
      · exact .single hwatch

/-- An acknowledgement changes what status is known of the chain and nothing else. -/
theorem Chain.acknowledge_chain {confirmedTick requestedTick : Nat} {chain chain' : Chain}
    (h : chain.acknowledge confirmedTick requestedTick = .settled chain' ∨
      ∃ target, chain.acknowledge confirmedTick requestedTick = .missing chain' target) :
    ∃ confirmed suspicion, chain' =
      { chain with confirmedThrough := confirmed, statusSuspicion := suspicion } := by
  unfold Chain.acknowledge Chain.acknowledgeDue at h
  dsimp only at h
  repeat' split at h
  all_goals
    rcases h with h | ⟨target, h⟩
    all_goals cases h
    all_goals exact ⟨_, _, rfl⟩

theorem applyConfirmationWatermark_steps (confirmedTick requestedTick : Nat) {slot : ManagedSlot}
    (hstate : slot.state.isPlanning = true) :
    SlotRun cfg slot (applyConfirmationWatermark confirmedTick requestedTick slot).effects
      (applyConfirmationWatermark confirmedTick requestedTick slot).slot := by
  unfold applyConfirmationWatermark applyAcknowledgement
  split
  · exact .nil
  · rename_i chain hchain
    have hwatch : ∀ confirmed suspicion, SlotStep cfg slot [] { slot with chain := some { chain with
        confirmedThrough := confirmed, statusSuspicion := suspicion } } :=
      fun confirmed suspicion => .watch hstate hchain (.inl rfl)
    split
    · exact .nil
    · rename_i chain' hack
      obtain ⟨confirmed, suspicion, rfl⟩ := Chain.acknowledge_chain (.inl hack)
      exact .single (hwatch _ _)
    · rename_i chain' target hack
      obtain ⟨confirmed, suspicion, rfl⟩ := Chain.acknowledge_chain (.inr ⟨target, hack⟩)
      exact .silent (hwatch _ _) (observeStatusEvidence_steps _ _ hstate)

/-- The state field alone may change from Starting to Active. -/
theorem SlotRun.activate {slot : ManagedSlot} {chain : Chain}
    (hstate : slot.state.isPlanning = true) (hchain : slot.chain = some chain) :
    SlotRun cfg slot [] { slot with state := .active } := by
  have hstep : SlotStep cfg slot [] { slot with state := .active, chain := some chain } :=
    .watch hstate hchain (.inr rfl)
  rw [← hchain] at hstep
  exact .single hstep

theorem applyStatus_steps (observation : StatusObservation) (slot : ManagedSlot) :
    SlotRun cfg slot (applyStatus observation slot).effects (applyStatus observation slot).slot := by
  unfold applyStatus
  dsimp only
  split
  · exact .nil
  · exact .nil
  · rename_i hstate
    exact .single (.wait hstate)
  · rename_i firstTarget hstate
    have hplanning : slot.state.isPlanning = true := by simp [hstate, SlotState.isPlanning]
    split
    · rename_i confirmedTick hobserved
      split
      · rename_i howns
        obtain ⟨chain, hchain, -⟩ := (Option.any_eq_true _ _).1 howns
        have hactive : SlotRun cfg slot [] { slot with state := .active } :=
          .activate hplanning hchain
        exact hactive.trans (applyConfirmationWatermark_steps _ _ rfl)
      · split
        · exact observeStatusEvidence_steps _ _ hplanning
        · exact .nil
    · split
      · exact observeStatusEvidence_steps _ _ hplanning
      · exact .nil
  · rename_i hstate
    have hplanning : slot.state.isPlanning = true := by simp [hstate, SlotState.isPlanning]
    split
    · split
      · exact applyConfirmationWatermark_steps _ _ hplanning
      · exact observeStatusEvidence_steps _ _ hplanning
    · exact observeStatusEvidence_steps _ _ hplanning
  · rename_i hstate
    exact .single (.hold hstate)

/-! ## All operations -/

theorem resetSlot_steps (slot : ManagedSlot) :
    SlotRun cfg slot (resetSlot slot).effects (resetSlot slot).slot :=
  SlotRun.after_notes (fun _ he => abortChain_notes he) (.single .reset)

/-- Every operation on a slot is a sequence of atomic changes. -/
theorem SlotOp.steps (op : SlotOp) {slot : ManagedSlot} (hstream : slot.key.stream < streamCount) :
    SlotRun cfg slot (op.run cfg slot).effects (op.run cfg slot).slot := by
  cases op with
  | reset => exact resetSlot_steps slot
  | harvestBroadcasts results => exact harvestBroadcasts_steps results slot
  | applyStatus observation => exact applyStatus_steps observation slot
  | enterDrain env reason => exact enterDrain_steps env reason slot
  | startIfReady env currentTick => exact startIfReady_steps env currentTick hstream
  | extendChain env currentTick => exact extendChain_steps env currentTick slot
  | expireCalls currentTick => exact expireCalls_steps currentTick slot
  | dispatchCalls currentTick tickDurationMs =>
    exact dispatchCalls_steps currentTick tickDurationMs slot
  | finishDrain => exact finishDrain_steps slot
  | finishStatusRestart currentTick => exact finishStatusRestart_steps currentTick slot
  | pruneCalls currentTick => exact pruneCalls_steps currentTick slot

theorem SlotRun.key {slot slot' : ManagedSlot} {u : List Effect} (h : SlotRun cfg slot u slot') :
    slot'.key = slot.key :=
  h.invariant (fun s _ => s.key = slot.key) (fun _ _ _ _ hs hstep => hstep.key.trans hs) rfl (t := [])

/-- The history of a slot is a sequence of atomic changes. -/
theorem slotMachine_run (i : Fin 3) (ops : List SlotOp) :
    SlotRun cfg (slot₀ cfg i) ((slotMachine cfg).trace (slot₀ cfg i) ops)
      ((slotMachine cfg).state (slot₀ cfg i) ops) := by
  have hstream : ∀ slot : ManagedSlot, slot.key = (slot₀ cfg i).key →
      slot.key.stream < streamCount := by
    intro slot hkey
    rw [hkey]
    exact i.isLt
  refine (slotMachine cfg).labelledRun (I := fun slot => slot.key = (slot₀ cfg i).key) ?_ ?_ rfl ops
  · intro op slot hkey
    exact (op.steps (hstream slot hkey)).key.trans hkey
  · intro op slot hkey
    exact op.steps (hstream slot hkey)

theorem slotMachine_key (i : Fin 3) (ops : List SlotOp) :
    ((slotMachine cfg).state (slot₀ cfg i) ops).key = (slot₀ cfg i).key :=
  (slotMachine_run i ops).key

/-! ## Which operation has which effects -/

/-- The environment an operation signs with. -/
def SlotOp.signingEnv : SlotOp → Option SigningEnv
  | .enterDrain env _ | .startIfReady env _ | .extendChain env _ => some env
  | _ => none

/-- The bytes of the call are the signature over its input. -/
def SignedWith (cfg : Config) (env : SigningEnv) (call : SignedCall) : Prop :=
  env.sign
    { contractIndex := randomContractIndex
      amount := cfg.collateral
      tick := call.targetTick
      inputType := revealAndCommitProcedure
      input := call.input.encode } = .ok call.txBytes

/-- What an operation can do beyond keeping the books. -/
inductive SlotOp.Emits (cfg : Config) : SlotOp → Effect → Prop where
  | reset : Emits cfg .reset .reset
  | harvested {results : Nat → Option Delivery} {target : Nat} {kind : CallKind}
      {redundant : Bool} {result : Delivery} :
      Emits cfg (.harvestBroadcasts results) (.harvested target kind redundant result)
  | froze {observation : StatusObservation} {tail : Nat} {restarting : Bool} :
      Emits cfg (.applyStatus observation) (.froze tail restarting)
  | closes {env : SigningEnv} {reason : DrainReason} {call : SignedCall}
      (hkind : call.kind = .terminalReveal) (hplanned : call.plannedAt = none)
      (hsigned : SignedWith cfg env call) :
      Emits cfg (.enterDrain env reason) (.signed call)
  | starts {env : SigningEnv} {currentTick : Nat} {call : SignedCall}
      (hkind : call.kind = .firstCommit) (hplanned : call.plannedAt = some currentTick)
      (hpreimage : call.preimage = some (env.draw call.targetTick))
      (hsigned : SignedWith cfg env call) :
      Emits cfg (.startIfReady env currentTick) (.signed call)
  | continues {env : SigningEnv} {currentTick : Nat} {call : SignedCall}
      (hkind : call.kind = .revealAndCommit) (hplanned : call.plannedAt = some currentTick)
      (hpreimage : call.preimage = some (env.draw call.targetTick))
      (hsigned : SignedWith cfg env call) :
      Emits cfg (.extendChain env currentTick) (.signed call)
  | handed {currentTick tickDurationMs target : Nat} {kind : CallKind} {redundant : Bool}
      {task : BroadcastTask} :
      Emits cfg (.dispatchCalls currentTick tickDurationMs)
        (.handed currentTick target kind redundant task)

theorem loseChain_notes {absenceAfterTick : Nat} {absenceObserved : Bool} {slot : ManagedSlot}
    {e : Effect} (h : e ∈ (loseChain absenceAfterTick absenceObserved slot).effects) :
    e.isNote = true := by
  unfold loseChain at h
  dsimp only at h
  split at h <;> exact abortChain_notes h

theorem completeDrain_notes {outcome : DrainOutcome} {slot : ManagedSlot} {e : Effect}
    (h : e ∈ (completeDrain outcome slot).effects) : e.isNote = true := abortChain_notes h

theorem expireCalls_notes {currentTick : Nat} {slot : ManagedSlot} {e : Effect}
    (h : e ∈ (expireCalls currentTick slot).effects) : e.isNote = true := by
  unfold expireCalls at h
  split at h
  · cases h
  · dsimp only at h
    split at h
    · exact abortCalls_notes h
    · have hnoted : ∀ {failure : Option Nat} {calls : List PlannedCall} {e : Effect},
          e ∈ expireAborts currentTick calls ++ (match failure with
            | some target => [Effect.financialFailure target]
            | none => []) → e.isNote = true := by
        intro failure calls e he
        rcases List.mem_append.1 he with he | he
        · exact abortCalls_notes he
        · exact failure_notes _ he
      split at h
      · rcases List.mem_append.1 h with h | h
        · exact hnoted h
        · exact loseChain_notes h
      · rcases List.mem_append.1 h with h | h
        · exact hnoted h
        · exact loseChain_notes h
      · rcases List.mem_append.1 h with h | h
        · exact hnoted h
        · exact completeDrain_notes h
      · exact hnoted h
      · exact hnoted h
      · exact hnoted h

theorem extendLoop_emits {env : SigningEnv} {currentTick horizon fuel : Nat} {key : SlotKey}
    {chain : Chain} {e : Effect}
    (h : e ∈ (extendLoop cfg env currentTick horizon key fuel chain).2.1) :
    SlotOp.Emits cfg (.extendChain env currentTick) e := by
  induction fuel generalizing chain with
  | zero => cases h
  | succ fuel ih =>
    simp only [extendLoop] at h
    split at h
    · cases h
    · cases h
    · rename_i chain' call honce
      rcases List.mem_cons.1 h with rfl | h
      · unfold extendOnce at honce
        split at honce
        · cases honce
        · split at honce
          · cases honce
          · dsimp only at honce
            split at honce
            · cases honce
            · cases honce
              exact .continues rfl rfl rfl (buildTransaction_ok ‹_›).2
      · exact ih h

theorem beginStatusRestart_emits {after : Nat} {observed : Bool} {slot : ManagedSlot}
    {observation : StatusObservation} {e : Effect}
    (h : e ∈ (beginStatusRestart after observed slot).effects) :
    e.isNote = true ∨ SlotOp.Emits cfg (.applyStatus observation) e := by
  unfold beginStatusRestart at h
  split at h
  · cases h
  · split at h
    · rcases List.mem_append.1 h with h | h
      · exact .inl (abortChain_notes h)
      · rw [List.mem_singleton.1 h]
        exact .inr .froze
    · rw [List.mem_singleton.1 h]
      exact .inr .froze

theorem observeStatusEvidence_emits {evidence : StatusEvidence} {requestedTick : Nat}
    {slot : ManagedSlot} {observation : StatusObservation} {e : Effect}
    (h : e ∈ (observeStatusEvidence evidence requestedTick slot).effects) :
    e.isNote = true ∨ SlotOp.Emits cfg (.applyStatus observation) e := by
  unfold observeStatusEvidence at h
  split at h
  · cases h
  · split at h
    · cases h
    · dsimp only at h
      split at h
      · rcases List.mem_append.1 h with h | h
        · exact .inl (failure_notes _ h)
        · exact beginStatusRestart_emits h
      · cases h

theorem applyConfirmationWatermark_emits {confirmedTick requestedTick : Nat} {slot : ManagedSlot}
    {observation : StatusObservation} {e : Effect}
    (h : e ∈ (applyConfirmationWatermark confirmedTick requestedTick slot).effects) :
    e.isNote = true ∨ SlotOp.Emits cfg (.applyStatus observation) e := by
  unfold applyConfirmationWatermark applyAcknowledgement at h
  split at h
  · cases h
  · split at h
    · cases h
    · cases h
    · exact observeStatusEvidence_emits h

theorem applyStatus_emits {observation : StatusObservation} {slot : ManagedSlot} {e : Effect}
    (h : e ∈ (applyStatus observation slot).effects) :
    e.isNote = true ∨ SlotOp.Emits cfg (.applyStatus observation) e := by
  unfold applyStatus at h
  dsimp only at h
  repeat' split at h
  all_goals
    first
    | cases h
    | exact observeStatusEvidence_emits h
    | exact applyConfirmationWatermark_emits h

theorem extendChain_emits {env : SigningEnv} {currentTick : Nat} {slot : ManagedSlot} {e : Effect}
    (h : e ∈ (extendChain cfg env currentTick slot).effects) :
    e.isNote = true ∨ SlotOp.Emits cfg (.extendChain env currentTick) e := by
  unfold extendChain at h
  split at h
  · split at h
    · -- a missed target: the expiry, then the loss
      rcases List.mem_append.1 h with h | h
      · exact .inl (expireCalls_notes h)
      · dsimp only at h
        split at h
        · rcases List.mem_cons.1 h with rfl | h
          · exact .inl rfl
          · exact .inl (loseChain_notes h)
        · cases h
    · split at h
      · cases h
      · split at h
        · cases h
        · exact .inr (extendLoop_emits h)
  · cases h

theorem startIfReady_emits {env : SigningEnv} {currentTick : Nat} {slot : ManagedSlot} {e : Effect}
    (h : e ∈ (startIfReady cfg env currentTick slot).effects) :
    SlotOp.Emits cfg (.startIfReady env currentTick) e := by
  unfold startIfReady at h
  split at h
  · split at h
    · cases h
    · split at h
      · cases h
      · dsimp only at h
        split at h
        · cases h
        · rw [List.mem_singleton.1 h]
          exact .starts rfl rfl rfl (buildTransaction_ok ‹_›).2
  · cases h

theorem enterDrain_emits {env : SigningEnv} {reason : DrainReason} {slot : ManagedSlot} {e : Effect}
    (h : e ∈ (enterDrain cfg env reason slot).effects) :
    SlotOp.Emits cfg (.enterDrain env reason) e := by
  unfold enterDrain at h
  split at h
  · cases h
  · cases h
  · cases h
  · cases h
  all_goals
    split at h
    · cases h
    · split at h
      · cases h
      · dsimp only at h
        split at h
        · cases h
        · rw [List.mem_singleton.1 h]
          exact .closes rfl rfl (buildTransaction_ok ‹_›).2

theorem harvestBroadcasts_emits {results : Nat → Option Delivery} {slot : ManagedSlot} {e : Effect}
    (h : e ∈ (harvestBroadcasts results slot).effects) :
    e.isNote = true ∨ SlotOp.Emits cfg (.harvestBroadcasts results) e := by
  unfold harvestBroadcasts at h
  split at h
  · cases h
  · rcases List.mem_append.1 h with h | h
    · rcases List.mem_append.1 h with h | h
      · obtain ⟨call, -, he⟩ := List.mem_flatMap.1 h
        unfold harvestEffects at he
        split at he
        · cases he
        all_goals
          rw [List.mem_singleton.1 he]
          exact .inr .harvested
      · obtain ⟨_, -, rfl⟩ := List.mem_map.1 h
        exact .inl rfl
    · obtain ⟨_, -, rfl⟩ := List.mem_map.1 h
      exact .inl rfl

theorem dispatchCalls_emits {currentTick tickDurationMs : Nat} {slot : ManagedSlot} {e : Effect}
    (h : e ∈ (dispatchCalls currentTick tickDurationMs slot).effects) :
    e.isNote = true ∨ SlotOp.Emits cfg (.dispatchCalls currentTick tickDurationMs) e := by
  unfold dispatchCalls at h
  split at h
  · cases h
  · rcases List.mem_append.1 h with h | h
    · obtain ⟨call, -, he⟩ := List.mem_flatMap.1 h
      unfold dispatchEffects at he
      split at he
      · cases he
      · cases he
      · rcases List.mem_append.1 he with he | he
        · split at he
          · cases he
          · rw [List.mem_singleton.1 he]
            exact .inl rfl
        · rw [List.mem_singleton.1 he]
          exact .inr .handed
    · exact .inl (failure_notes _ h)

theorem finishDrain_notes {slot : ManagedSlot} {e : Effect} (h : e ∈ (finishDrain slot).effects) :
    e.isNote = true := by
  unfold finishDrain at h
  split at h
  · dsimp only at h
    split at h
    · exact completeDrain_notes h
    · exact completeDrain_notes h
    · cases h
  · cases h

theorem finishStatusRestart_notes {currentTick : Nat} {slot : ManagedSlot} {e : Effect}
    (h : e ∈ (finishStatusRestart currentTick slot).effects) : e.isNote = true := by
  unfold finishStatusRestart at h
  split at h
  · split at h
    · cases h
    · exact abortChain_notes h
  · cases h

/-- An operation keeps the books or does what `SlotOp.Emits` lists. -/
theorem SlotOp.emits {op : SlotOp} {slot : ManagedSlot} {e : Effect}
    (h : e ∈ (op.run cfg slot).effects) : e.isNote = true ∨ op.Emits cfg e := by
  cases op with
  | reset =>
    rcases List.mem_append.1 h with h | h
    · exact .inl (abortChain_notes h)
    · rw [List.mem_singleton.1 h]
      exact .inr .reset
  | harvestBroadcasts results => exact harvestBroadcasts_emits h
  | applyStatus observation => exact applyStatus_emits h
  | enterDrain env reason => exact .inr (enterDrain_emits h)
  | startIfReady env currentTick => exact .inr (startIfReady_emits h)
  | extendChain env currentTick => exact extendChain_emits h
  | expireCalls currentTick => exact .inl (expireCalls_notes h)
  | dispatchCalls currentTick tickDurationMs => exact dispatchCalls_emits h
  | finishDrain => exact .inl (finishDrain_notes h)
  | finishStatusRestart currentTick => exact .inl (finishStatusRestart_notes h)
  | pruneCalls currentTick =>
    simp only [SlotOp.run, RandomClient.pruneCalls] at h
    repeat' split at h
    all_goals cases h

/-! ## Sweeps keep the state -/

theorem harvestBroadcasts_state (results : Nat → Option Delivery) (slot : ManagedSlot) :
    (harvestBroadcasts results slot).slot.state = slot.state := by
  unfold harvestBroadcasts
  split <;> rfl

theorem dispatchCalls_state (currentTick tickDurationMs : Nat) (slot : ManagedSlot) :
    (dispatchCalls currentTick tickDurationMs slot).slot.state = slot.state := by
  unfold dispatchCalls
  split <;> rfl

theorem pruneCalls_state (currentTick : Nat) (slot : ManagedSlot) :
    (pruneCalls currentTick slot).slot.state = slot.state := by
  unfold pruneCalls
  split
  · rfl
  · split <;> rfl

end RandomClient
