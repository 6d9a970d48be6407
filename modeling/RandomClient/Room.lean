import RandomClient.Extension
import RandomClient.Outcomes

/-!
# Room below the largest tick

While reported ticks stay sixteen below the largest `u32`, the tick arithmetic
of planning does not overflow: restart ticks and last targets keep a distance
from it (`ManagedSlot.Room`). If the wallet signs as well, no stream fails to
plan or to enter its drain, so that a step performs on every stream all it has
to (`engineStep_whole`).
-/

namespace RandomClient

variable {cfg : Config}

/-- The tick lies sixteen below the largest `u32`. -/
def InRange (tick : Nat) : Prop := tick + 16 ≤ u32Max

instance (tick : Nat) : Decidable (InRange tick) := inferInstanceAs (Decidable (_ ≤ _))

/-! ## What an observation leaves alone -/

/-- The slot plans as before, restarts where it would have and has the same calls. -/
structure ManagedSlot.SameCalls (slot slot' : ManagedSlot) : Prop where
  planning : slot'.state.isPlanning = slot.state.isPlanning
  restart : slot'.restartAt = slot.restartAt
  chain : ∀ chain', slot'.chain = some chain' → ∃ chain, slot.chain = some chain ∧
    chain'.firstTarget = chain.firstTarget ∧ chain'.lastTarget = chain.lastTarget ∧
      chain'.calls = chain.calls

theorem ManagedSlot.SameCalls.refl (slot : ManagedSlot) : slot.SameCalls slot :=
  ⟨rfl, rfl, fun chain hchain => ⟨chain, hchain, rfl, rfl, rfl⟩⟩

theorem ManagedSlot.SameCalls.known {slot : ManagedSlot} {chain : Chain}
    (hchain : slot.chain = some chain) (confirmed : Option Nat)
    (suspicion : Option StatusSuspicion) :
    slot.SameCalls { slot with chain := some { chain with
      confirmedThrough := confirmed, statusSuspicion := suspicion } } := by
  refine ⟨rfl, rfl, ?_⟩
  rintro _ ⟨⟩
  exact ⟨chain, hchain, rfl, rfl, rfl⟩

/-- An observation keeps the calls of a slot, or freezes its chain. -/
inductive Observed (slot : ManagedSlot) (r : SlotResult) : Prop where
  | kept (h : slot.SameCalls r.slot) (heffects : r.effects = [])
  | froze {chain : Chain} {restarting : Bool} (hchain : slot.chain = some chain)
      (hmem : Effect.froze chain.lastTarget restarting ∈ r.effects)
      (hrestart : chain.lastTarget + streamCount ≤ u32Max →
        r.slot.restartAt = chain.lastTarget + streamCount)
      (hsame : ∀ chain', r.slot.chain = some chain' →
        chain'.firstTarget = chain.firstTarget ∧ chain'.lastTarget = chain.lastTarget)

/-- What was known before does not matter. -/
theorem Observed.after {slot slot' : ManagedSlot} {r : SlotResult} (h : slot.SameCalls slot')
    (hr : Observed slot' r) : Observed slot r := by
  cases hr with
  | kept hkept heffects =>
    refine .kept ⟨hkept.planning.trans h.planning, hkept.restart.trans h.restart, ?_⟩ heffects
    intro chain'' hchain''
    rcases hkept.chain chain'' hchain'' with ⟨chain', hchain', hfirst', hlast', hcalls'⟩
    rcases h.chain chain' hchain' with ⟨chain, hchain, hfirst, hlast, hcalls⟩
    exact ⟨chain, hchain, hfirst'.trans hfirst, hlast'.trans hlast, hcalls'.trans hcalls⟩
  | froze hchain' hmem hrestart hsame =>
    rcases h.chain _ hchain' with ⟨chain, hchain, hfirst, hlast, -⟩
    rw [hlast] at hmem hrestart hsame
    rw [hfirst] at hsame
    exact .froze hchain hmem hrestart hsame

theorem beginStatusRestart_observed {slot : ManagedSlot} {chain : Chain}
    (hchain : slot.chain = some chain) (after : Nat) (observed : Bool) (effects : List Effect) :
    Observed slot
      { beginStatusRestart after observed slot with
        effects := effects ++ (beginStatusRestart after observed slot).effects } := by
  unfold beginStatusRestart
  rw [hchain]
  dsimp only
  split
  · rename_i hover
    have hlt := Bounded.checkedAdd_eq_none.1 hover
    refine @Observed.froze _ _ _ false hchain (by simp) ?_ ?_
    · intro hle
      omega
    · intro chain' hnone
      cases hnone
  · rename_i restartAt hrestart
    rcases Bounded.checkedAdd_eq_some.1 hrestart with ⟨hsum, -⟩
    refine @Observed.froze _ _ _ true hchain (by simp) ?_ ?_
    · intro _
      exact hsum.symm
    · intro chain' hsome
      cases hsome
      exact ⟨rfl, rfl⟩

theorem observeStatusEvidence_observed (evidence : StatusEvidence) (requestedTick : Nat)
    (slot : ManagedSlot) : Observed slot (observeStatusEvidence evidence requestedTick slot) := by
  unfold observeStatusEvidence
  split
  · exact .kept (.refl slot) rfl
  · rename_i chain hchain
    split
    · exact .kept (.refl slot) rfl
    · dsimp only
      have hknown := ManagedSlot.SameCalls.known hchain chain.confirmedThrough
        (some (suspicionAfter chain.statusSuspicion evidence requestedTick))
      split
      · exact (beginStatusRestart_observed rfl _ _ _).after hknown
      · exact .kept hknown rfl

theorem applyConfirmationWatermark_observed (confirmedTick requestedTick : Nat)
    (slot : ManagedSlot) :
    Observed slot (applyConfirmationWatermark confirmedTick requestedTick slot) := by
  unfold applyConfirmationWatermark applyAcknowledgement
  split
  · exact .kept (.refl slot) rfl
  · rename_i chain hchain
    split
    · exact .kept (.refl slot) rfl
    · rename_i chain' hack
      rcases Chain.acknowledge_chain (.inl hack) with ⟨confirmed, suspicion, rfl⟩
      exact .kept (.known hchain confirmed suspicion) rfl
    · rename_i chain' missing hack
      rcases Chain.acknowledge_chain (.inr ⟨missing, hack⟩) with ⟨confirmed, suspicion, rfl⟩
      exact (observeStatusEvidence_observed _ _ _).after (.known hchain confirmed suspicion)

theorem applyStatus_observed (observation : StatusObservation) (slot : ManagedSlot) :
    Observed slot (applyStatus observation slot) := by
  have hstate : ∀ state : SlotState, state.isPlanning = slot.state.isPlanning →
      slot.SameCalls { slot with state := state } := fun _ hplanning =>
    ⟨hplanning, rfl, fun chain hchain => ⟨chain, hchain, rfl, rfl, rfl⟩⟩
  unfold applyStatus
  dsimp only
  split
  · exact .kept (.refl slot) rfl
  · exact .kept (.refl slot) rfl
  · rename_i hslot
    exact .kept (hstate _ (by rw [hslot]; rfl)) rfl
  · rename_i hslot
    split
    · split
      · exact (applyConfirmationWatermark_observed _ _ _).after
          (hstate .active (by rw [hslot]; rfl))
      · split
        · exact observeStatusEvidence_observed _ _ _
        · exact .kept (.refl slot) rfl
    · split
      · exact observeStatusEvidence_observed _ _ _
      · exact .kept (.refl slot) rfl
  · split
    · split
      · exact applyConfirmationWatermark_observed _ _ _
      · exact observeStatusEvidence_observed _ _ _
    · exact observeStatusEvidence_observed _ _ _
  · rename_i hslot
    exact .kept (hstate _ (by rw [hslot]; rfl)) rfl

/-! ## Room -/

/-- The last target of the chain leaves room for the call after it. A chain longer
than its first commit was continued at a reported tick. -/
def Chain.Room (chain : Chain) : Prop :=
  chain.lastTarget + 5 ≤ u32Max ∧
    (chain.lastTarget = chain.firstTarget ∨ chain.lastTarget + 10 ≤ u32Max)

/-- The tick arithmetic of the slot does not overflow. -/
structure ManagedSlot.Room (slot : ManagedSlot) : Prop where
  restart : slot.restartAt + 7 ≤ u32Max
  chain : ∀ chain, slot.chain = some chain → chain.Room

section Room

variable {slot : ManagedSlot}

/-- The restart tick stays, and a chain left over has the targets of the one before. -/
theorem ManagedSlot.Room.keep (h : slot.Room) {slot' : ManagedSlot}
    (hrestart : slot'.restartAt = slot.restartAt)
    (hchain : ∀ chain', slot'.chain = some chain' → ∃ chain, slot.chain = some chain ∧
      chain'.firstTarget = chain.firstTarget ∧ chain'.lastTarget = chain.lastTarget) :
    slot'.Room where
  restart := by
    rw [hrestart]
    exact h.restart
  chain chain' hsome := by
    rcases hchain chain' hsome with ⟨chain, hold, hfirst, hlast⟩
    unfold Chain.Room
    rw [hfirst, hlast]
    exact h.chain chain hold

/-- Only the calls of the chain and the state change. -/
theorem ManagedSlot.Room.with_calls (h : slot.Room) {chain : Chain} (hchain : slot.chain = some chain)
    (calls : List PlannedCall) (state : SlotState) :
    ManagedSlot.Room { slot with chain := some { chain with calls := calls }, state := state } := by
  refine @ManagedSlot.Room.keep slot h _ rfl ?_
  rintro _ ⟨⟩
  exact ⟨chain, hchain, rfl, rfl⟩

theorem ManagedSlot.Room.of_none {slot' : ManagedSlot} (hrestart : slot'.restartAt + 7 ≤ u32Max)
    (hchain : slot'.chain = none) : slot'.Room where
  restart := hrestart
  chain chain hsome := by
    rw [hchain] at hsome
    cases hsome

/-- A chain that is lost leaves its restart tick behind. -/
theorem loseChain_room {chain : Chain} (hchain : slot.chain = some chain)
    (hlast : chain.lastTarget + 10 ≤ u32Max) (after : Nat) (observed : Bool) :
    (loseChain after observed slot).slot.Room := by
  have hrestart : checkedAdd chain.lastTarget streamCount = some (chain.lastTarget + streamCount) :=
    Bounded.checkedAdd_eq_some.2 ⟨rfl, by simp only [streamCount]; omega⟩
  have hslot : (loseChain after observed slot).slot = { slot with
      chain := none
      restartAt := chain.lastTarget + streamCount
      state := .waiting after observed } := by
    unfold loseChain
    rw [hchain]
    dsimp only
    rw [hrestart]
  rw [hslot]
  apply ManagedSlot.Room.of_none _ rfl
  simp only [streamCount]
  omega

theorem expireCalls_room (h : slot.Room) {currentTick : Nat} (htick : InRange currentTick) :
    (expireCalls currentTick slot).slot.Room := by
  unfold InRange at htick
  unfold expireCalls
  split
  · exact h
  · rename_i chain hchain
    dsimp only
    have hswept := h.with_calls hchain
      (chain.calls.map (expireCall currentTick chain.firstTarget)) slot.state
    split
    · exact hswept
    · rename_i hsome
      -- an expired call lies at or beyond the first target, so a chain of one call is behind
      have hlast : chain.lastTarget + 10 ≤ u32Max := by
        rcases List.exists_mem_of_ne_nil _ (by simpa using hsome) with ⟨call, hmem⟩
        have hexpired := of_decide_eq_true (List.mem_filter.1 hmem).2
        have hfirst := expiryOf_expired hexpired
        have hcame := (expiryOf_undelivered (.inr hexpired)).1
        rcases (h.chain chain hchain).2 with hone | hlong
        · omega
        · exact hlong
      have hlost := @loseChain_room { slot with chain := some { chain with
        calls := chain.calls.map (expireCall currentTick chain.firstTarget) } } _ rfl hlast
      split
      · exact hlost _ _
      · exact hlost _ _
      · exact .of_none h.restart rfl
      · exact hswept
      · exact hswept
      · exact hswept

/-- The loop of `extend_chain` moves the last target up to the horizon at most. -/
theorem Continues.last_le {horizon : Nat} {chain chain' : Chain} {signed : List SignedCall}
    (h : Continues cfg horizon chain chain' signed) :
    chain'.lastTarget = chain.lastTarget ∨ chain'.lastTarget ≤ horizon := by
  have hlast := h.last
  rcases Nat.eq_zero_or_pos signed.length with hnone | hsome
  · left
    rw [hlast, hnone]
    rfl
  · right
    have hin : chain.continuation (signed.length - 1) ∈ signed.map SignedCall.targetTick := by
      rw [h.targets]
      exact List.mem_map_of_mem (List.mem_range.2 (by omega))
    rcases List.mem_map.1 hin with ⟨call, hmem, htarget⟩
    have hle := h.target_le call hmem
    rw [htarget] at hle
    simp only [Chain.continuation, streamCount] at hle hlast
    omega

theorem extendChain_room (h : slot.Room) (env : SigningEnv) {currentTick : Nat}
    (htick : InRange currentTick) : (extendChain cfg env currentTick slot).slot.Room := by
  unfold InRange at htick
  by_cases hplanning : slot.state.isPlanning = true
  · cases hchain : slot.chain with
    | none =>
      have hsame : (extendChain cfg env currentTick slot).slot = slot := by
        unfold extendChain
        rw [if_pos hplanning, hchain]
        dsimp only [Option.bind_none]
        split <;> rfl
      rw [hsame]
      exact h
    | some chain =>
      have hroom := h.chain chain hchain
      by_cases hgap : chain.lastTarget + streamCount ≤ currentTick
      · -- the chain is given up, and its restart tick has come
        rw [(@extendChain_gap cfg slot chain hplanning hchain env currentTick (by omega) hgap).2.1]
        apply ManagedSlot.Room.of_none _ rfl
        show chain.lastTarget + streamCount + 7 ≤ u32Max
        omega
      · have hmissed : slot.chain.bind (missedTarget currentTick) = none := by
          rw [hchain, Option.bind_some, missedTarget, Option.filter_eq_none_iff]
          intro target htarget
          rcases Bounded.checkedAdd_eq_some.1 htarget with ⟨rfl, -⟩
          simpa using hgap
        have hhorizon : checkedAdd currentTick sendLeadTicks = some (currentTick + sendLeadTicks) :=
          Bounded.checkedAdd_eq_some.2 ⟨rfl, by simp only [sendLeadTicks]; omega⟩
        have hbelow : currentTick + sendLeadTicks + 10 ≤ u32Max := by
          simp only [sendLeadTicks]
          omega
        have hle : currentTick + sendLeadTicks ≤ u32Max := by omega
        rcases @extendLoop_continues cfg env currentTick _ _ slot.key hle chain le_rfl with
          ⟨signed, -, hcontinues, -⟩
        unfold extendChain
        rw [if_pos hplanning, hmissed, hhorizon, hchain]
        dsimp only
        refine ⟨h.restart, ?_⟩
        rintro _ ⟨⟩
        unfold Chain.Room
        rw [hcontinues.first]
        rcases hcontinues.last_le with hsame | hshort
        · rw [hsame]
          exact hroom
        · omega
  · unfold extendChain
    rw [if_neg hplanning]
    exact h

/-- The first target of the stream at or after a tick is at most two ticks later. -/
theorem nextStreamTick_le {atOrAfter stream target : Nat}
    (h : nextStreamTick atOrAfter stream = some target) : target ≤ atOrAfter + 2 := by
  unfold nextStreamTick at h
  rcases Bounded.checkedAdd_eq_some.1 h with ⟨hsum, -⟩
  simp only [streamCount] at hsum
  omega

theorem startIfReady_room (h : slot.Room) (env : SigningEnv) {currentTick : Nat}
    (htick : InRange currentTick) : (startIfReady cfg env currentTick slot).slot.Room := by
  unfold InRange at htick
  unfold startIfReady
  split
  · split
    · exact h
    · rename_i lead hlead
      rcases Bounded.checkedAdd_eq_some.1 hlead with ⟨rfl, -⟩
      split
      · exact h
      · rename_i target htarget
        dsimp only
        split
        · exact h
        · refine ⟨h.restart, ?_⟩
          rintro _ ⟨⟩
          have hle := nextStreamTick_le htarget
          have hrestart := h.restart
          simp only [sendLeadTicks] at hle
          refine ⟨?_, .inl rfl⟩
          show target + 5 ≤ u32Max
          omega
  · exact h

theorem enterDrain_room (h : slot.Room) (env : SigningEnv) (reason : DrainReason) :
    (enterDrain cfg env reason slot).slot.Room := by
  have hstate : ∀ state : SlotState, ManagedSlot.Room { slot with state := state } := fun _ =>
    h.keep rfl fun chain hchain => ⟨chain, hchain, rfl, rfl⟩
  unfold enterDrain
  split
  · exact h
  · exact h
  · exact hstate _
  · exact hstate _
  all_goals
    split
    · exact h
    · rename_i chain hchain
      split
      · exact h
      · dsimp only
        split
        · exact h
        · exact h.with_calls hchain _ _

/-- Every operation at a tick in range keeps room, unless it freezes a chain out of range. -/
theorem SlotOp.room {op : SlotOp} (h : slot.Room) (htick : ∀ tick ∈ op.tick, InRange tick)
    (hfroze : ∀ tail restarting, Effect.froze tail restarting ∈ (op.run cfg slot).effects →
      InRange tail) : (op.run cfg slot).slot.Room := by
  cases op with
  | reset =>
    apply ManagedSlot.Room.of_none _ rfl
    show 0 + 7 ≤ u32Max
    decide
  | applyStatus observation =>
    cases applyStatus_observed observation slot with
    | kept hkept =>
      apply h.keep hkept.restart
      intro chain' hchain'
      rcases hkept.chain chain' hchain' with ⟨chain, hchain, hfirst, hlast, -⟩
      exact ⟨chain, hchain, hfirst, hlast⟩
    | @froze chain restarting hchain hmem hrestart hsame =>
      have htail := hfroze _ _ hmem
      unfold InRange at htail
      have hrestarts := hrestart (by simp only [streamCount]; omega)
      constructor
      · show (RandomClient.applyStatus observation slot).slot.restartAt + 7 ≤ u32Max
        rw [hrestarts]
        simp only [streamCount]
        omega
      · intro chain' hchain'
        rcases hsame chain' hchain' with ⟨hfirst, hlast⟩
        unfold Chain.Room
        rw [hfirst, hlast]
        exact h.chain chain hchain
  | enterDrain env reason => exact enterDrain_room h env reason
  | startIfReady env currentTick => exact startIfReady_room h env (htick _ rfl)
  | extendChain env currentTick => exact extendChain_room h env (htick _ rfl)
  | expireCalls currentTick => exact expireCalls_room h (htick _ rfl)
  | harvestBroadcasts results =>
    show (RandomClient.harvestBroadcasts results slot).slot.Room
    unfold RandomClient.harvestBroadcasts
    split
    · exact h
    · exact h.with_calls ‹_› _ _
  | dispatchCalls currentTick tickDurationMs =>
    show (RandomClient.dispatchCalls currentTick tickDurationMs slot).slot.Room
    unfold RandomClient.dispatchCalls
    split
    · exact h
    · exact h.with_calls ‹_› _ _
  | pruneCalls currentTick =>
    show (RandomClient.pruneCalls currentTick slot).slot.Room
    unfold RandomClient.pruneCalls
    split
    · exact h
    · split
      · exact h
      · exact h.with_calls ‹_› _ _
  | finishDrain =>
    show (RandomClient.finishDrain slot).slot.Room
    unfold RandomClient.finishDrain
    dsimp only
    repeat' split
    all_goals
      first
      | exact h
      | exact .of_none h.restart rfl
  | finishStatusRestart currentTick =>
    show (RandomClient.finishStatusRestart currentTick slot).slot.Room
    unfold RandomClient.finishStatusRestart
    repeat' split
    all_goals
      first
      | exact h
      | exact .of_none h.restart rfl

/-- Room over a list of operations. -/
theorem ManagedSlot.Room.run (h : slot.Room) {ops : List SlotOp}
    (htick : ∀ op ∈ ops, ∀ tick ∈ op.tick, InRange tick)
    (hfroze : ∀ tail restarting, Effect.froze tail restarting ∈ (slotMachine cfg).trace slot ops →
      InRange tail) : ((slotMachine cfg).state slot ops).Room := by
  induction ops using List.reverseRecOn with
  | nil => exact h
  | append_singleton ops op ih =>
    rw [slotMachine_trace_snoc] at hfroze
    rw [slotMachine_state_snoc]
    apply SlotOp.room
    · apply ih
      · intro op' hmem
        exact htick op' (List.mem_append_left _ hmem)
      · intro tail restarting hmem
        exact hfroze tail restarting (List.mem_append_left _ hmem)
    · exact htick op (by simp)
    · intro tail restarting hmem
      exact hfroze tail restarting (List.mem_append_right _ hmem)

/-! ## No stream fails -/

/-- The wallet signs whatever it is asked to. -/
def SigningEnv.Signs (env : SigningEnv) : Prop := ∀ ticket, ∃ txBytes, env.sign ticket = .ok txBytes

theorem SigningEnv.Signs.not_refused {env : SigningEnv} (h : env.Signs) (input : RevealAndCommitInput)
    (target : Nat) : ¬ Refused cfg env input target := by
  rintro ⟨err, herr⟩
  rcases h _ with ⟨txBytes, hok⟩
  cases herr.symm.trans hok

theorem ManagedSlot.Room.enters (h : slot.Room) {env : SigningEnv} (hsigns : env.Signs) :
    ¬ DrainEntryFails cfg env slot := by
  intro hfails
  cases hfails with
  | overflow _ hchain hover =>
    have hlast := (h.chain _ hchain).1
    simp only [streamCount] at hover
    omega
  | refused _ _ hrefused => exact hsigns.not_refused _ _ hrefused

theorem ManagedSlot.Room.plans (h : slot.Room) {env : SigningEnv} (hsigns : env.Signs) {tick : Nat}
    (htick : InRange tick) : ¬ PlanningFails cfg env tick slot := by
  unfold InRange at htick
  intro hfails
  cases hfails with
  | initialTick _ hover =>
    simp only [sendLeadTicks] at hover
    omega
  | initialTarget _ hnone =>
    have hover := Bounded.checkedAdd_eq_none.1 hnone
    have hrestart := h.restart
    simp only [sendLeadTicks, streamCount] at hover
    omega
  | commitRefused _ _ hrefused => exact hsigns.not_refused _ _ hrefused
  | horizon _ _ _ hover =>
    simp only [sendLeadTicks] at hover
    omega
  | continuationRefused _ _ _ _ _ hrefused => exact hsigns.not_refused _ _ hrefused

end Room

/-- The wallet signs throughout a step. -/
def EngineInput.Signs : EngineInput → Prop
  | .cycle input => ∀ i, (input.env i).Signs
  | .shutdown env => ∀ i, (env i).Signs

/-- A step at a tick in range, with a wallet that signs, fails on no stream that has room. -/
theorem not_streamFails {e : Engine} {input : EngineInput} {i : Fin 3}
    (hroom : (entrySlot cfg e input i).Room) (hsigns : input.Signs)
    (htick : ∀ tick ∈ input.report, InRange tick.tick) : ¬ StreamFails cfg e input i := by
  cases input with
  | shutdown env => exact hroom.enters (hsigns i)
  | cycle input =>
    cases hreport : input.tick with
    | error err => simp [StreamFails, hreport]
    | ok tick =>
      have hrange : InRange tick.tick := htick tick (by simp [EngineInput.report, hreport])
      simp only [StreamFails, hreport]
      split
      · exact hroom.enters (hsigns i)
      · exact hroom.plans (hsigns i) hrange
      · exact id

/-- Operations that do not fail are all performed. -/
theorem performedOps_of_ok {slot : ManagedSlot} {ops : List SlotOp}
    (h : failsOn cfg slot ops = false) : performedOps cfg slot ops = ops := by
  induction ops generalizing slot with
  | nil => rfl
  | cons op ops ih =>
    simp only [failsOn, Bool.or_eq_false_iff] at h
    simp only [performedOps, h.1, Bool.false_eq_true, if_false, ih h.2]

/-- What a step reads it reads at no tick. -/
theorem entryOps_tick {e : Engine} {input : EngineInput} {i : Fin 3} {op : SlotOp}
    (h : op ∈ entryOps e input i) : op.tick = none := by
  unfold entryOps at h
  split at h
  · cases h
  · split at h
    · cases h
    · rename_i tick _
      simp only [readingOps, statusOps, List.mem_append, List.mem_singleton] at h
      rcases h with (h | rfl) | h
      · split at h
        · rw [List.mem_singleton.1 h]
          rfl
        · cases h
      · rfl
      · split at h
        · split at h
          · rw [List.mem_singleton.1 h]
            rfl
          · cases h
        · cases h

/-- A step that fails on no stream performs on every stream all it has to. -/
theorem engineStep_whole {e : Engine} {input : EngineInput}
    (hplans : ∀ i, planFails cfg e input i = false) (i : Fin 3) :
    slotLog i (engineStep cfg input e).log =
      entryOps e input i ++ planningOps cfg e input i ++ deliveringOps input := by
  have hnone : ¬ ∃ j, planFails cfg e input j = true := by
    rintro ⟨j, hj⟩
    rw [hplans j] at hj
    cases hj
  have hbefore : ¬ ∃ j < i, planFails cfg e input j = true := fun ⟨j, _, hj⟩ => hnone ⟨j, hj⟩
  rw [engineStep_slotLog, if_neg hbefore, if_neg hnone, performedOps_of_ok (hplans i)]

/-! ## Room along a run -/

theorem reports_append (xs ys : List EngineInput) : reports (xs ++ ys) = reports xs ++ reports ys :=
  List.filterMap_append

/-- The operations of a run act at reported ticks. -/
theorem history_tick (e : Engine) (inputs : List EngineInput) (i : Fin 3) :
    ∀ op ∈ history cfg e inputs i, ∀ t ∈ op.tick, ∃ tick ∈ reports inputs, t = tick.tick := by
  induction inputs using List.reverseRecOn with
  | nil => intro op hop; cases hop
  | append_singleton inputs input ih =>
    intro op hop t ht
    rw [history_snoc] at hop
    rw [reports_snoc]
    have hstep := @engineStep_stepOps cfg input ((engineMachine cfg).state e inputs) i
    rcases List.mem_append.1 hop with hold | hnew
    · rcases ih op hold t ht with ⟨tick, hmem, heq⟩
      exact ⟨tick, List.mem_append_left _ hmem, heq⟩
    · cases hstep with
      | @opens tick rest hreport _ hops _ htick =>
        refine ⟨tick, List.mem_append_right _ (by rw [hreport]; exact List.mem_singleton_self tick), ?_⟩
        rw [hops] at hnew
        rcases List.mem_cons.1 hnew with rfl | hrest
        · cases ht
        · exact htick op hrest t ht
      | continues _ _ htick =>
        rcases htick op hnew t ht with ⟨tick, hmem, heq⟩
        exact ⟨tick, List.mem_append_right _ (Option.mem_toList.2 hmem), heq⟩

/-- What a run reports, and where it freezes a chain, is in range. -/
structure RunInRange (cfg : Config) (e : Engine) (inputs : List EngineInput) : Prop where
  reports : ∀ tick ∈ reports inputs, InRange tick.tick
  frozen : ∀ i tail restarting, Effect.froze tail restarting ∈ runTrace cfg e inputs i → InRange tail

theorem history_append (e : Engine) (xs ys : List EngineInput) (i : Fin 3) :
    history cfg e (xs ++ ys) i =
      history cfg e xs i ++ history cfg ((engineMachine cfg).state e xs) ys i := by
  unfold history
  rw [Machine.trace_append, slotLog_append]

theorem runTrace_append (e : Engine) (xs ys : List EngineInput) (i : Fin 3) :
    runTrace cfg e (xs ++ ys) i =
      runTrace cfg e xs i ++ runTrace cfg ((engineMachine cfg).state e xs) ys i := by
  unfold runTrace
  rw [history_append, Machine.trace_append]
  congr 2
  exact (slots_of_log cfg e xs i).symm

theorem RunInRange.init {e : Engine} {xs ys : List EngineInput} (h : RunInRange cfg e (xs ++ ys)) :
    RunInRange cfg e xs where
  reports tick hmem := by
    apply h.reports
    rw [reports_append]
    exact List.mem_append_left _ hmem
  frozen i tail restarting hmem := by
    apply h.frozen i tail restarting
    rw [runTrace_append]
    exact List.mem_append_left _ hmem

/-- A run in range keeps room on every stream. -/
theorem RunInRange.room {e : Engine} {inputs : List EngineInput} (h : RunInRange cfg e inputs)
    {i : Fin 3} (hroom : (e.slots i).Room) : (((engineMachine cfg).state e inputs).slots i).Room := by
  rw [slots_of_log]
  apply hroom.run
  · intro op hop t ht
    rcases history_tick e inputs i op hop t ht with ⟨tick, hmem, rfl⟩
    exact h.reports tick hmem
  · exact h.frozen i

/-- In a run in range no step fails to plan. -/
theorem RunInRange.plans {a b c : Nat} {before inputs : List EngineInput} {input : EngineInput}
    (h : RunInRange cfg ((engineMachine cfg).state (Engine.new cfg a b c) before) (inputs ++ [input]))
    (hroom : ∀ i, (((engineMachine cfg).state (Engine.new cfg a b c) before).slots i).Room)
    (hsigns : input.Signs) (i : Fin 3) :
    planFails cfg ((engineMachine cfg).state (Engine.new cfg a b c) (before ++ inputs)) input i =
      false := by
  have hslots := h.init.room (hroom i)
  have hfrozen := h.frozen i
  have hreported := h.reports
  rw [← Machine.state_append] at hslots
  simp only [runTrace_snoc, reports_snoc, ← Machine.state_append] at hfrozen hreported
  rw [← Bool.not_eq_true, streamFails_iff (entrySlot_plannable a b c _ input i)]
  apply not_streamFails _ hsigns
  · intro tick htick
    exact hreported tick (List.mem_append_right _ (Option.mem_toList.2 htick))
  · apply hslots.run
    · -- reading acts at no tick
      intro op hop t ht
      have hquiet : op.tick = none := entryOps_tick hop
      rw [hquiet] at ht
      cases ht
    · intro tail restarting hmem
      apply hfrozen tail restarting
      apply List.mem_append_right
      rw [engineStep_slotLog, List.append_assoc, Machine.trace_append]
      exact List.mem_append_left _ hmem

end RandomClient
