import RandomClient.Counters
import RandomClient.Losses

/-!
# Financial attribution

Between two first commits of a stream at most one target newly fails
(`oneLoss`). Within an epoch whose reported ticks do not decrease, an outcome
belongs to a reveal+commit call, to a terminal reveal that is lost for good, or
to a target that was never signed and lies behind (`Blamed`); so no first commit
and no accepted terminal reveal gets one. The monitoring fields record nothing
else (`outcome_recorded`).
-/

namespace RandomClient

variable {cfg : Config}

/-! ## Slots of a history -/

theorem terminalCleared_of_ops (i : Fin 3) (ops : List SlotOp) :
    ((slotMachine cfg).state (slot₀ cfg i) ops).TerminalCleared := by
  induction ops using List.reverseRecOn with
  | nil => exact .of_normal (by rintro _ ⟨⟩)
  | append_singleton ops op ih =>
    have hafter := @slotShape cfg i (ops ++ [op])
    rw [slotMachine_state_snoc] at hafter ⊢
    exact SlotOp.terminalCleared ih (slotShape i ops) (slotMachine_taskOk i ops)
      (fun _ hchain => slotMachine_regular i ops hchain) hafter

/-- What the next operation of a history loses. -/
theorem loses_of_ops (i : Fin 3) (ops : List SlotOp) (op : SlotOp) :
    Loses ((slotMachine cfg).state (slot₀ cfg i) ops) op.tick
      (op.run cfg ((slotMachine cfg).state (slot₀ cfg i) ops)).slot
      (op.run cfg ((slotMachine cfg).state (slot₀ cfg i) ops)).effects :=
  SlotOp.loses (slotShape i ops) (slotMachine_taskOk i ops) (terminalCleared_of_ops i ops)

theorem atRisk_of_ops (i : Fin 3) (ops : List SlotOp) (op : SlotOp)
    (h : (op.run cfg ((slotMachine cfg).state (slot₀ cfg i) ops)).slot.AtRisk) :
    ((slotMachine cfg).state (slot₀ cfg i) ops).AtRisk ∨ ∃ call, Effect.signed call ∈
      (op.run cfg ((slotMachine cfg).state (slot₀ cfg i) ops)).effects ∧ call.kind = .firstCommit :=
  SlotOp.atRisk_before (slotShape i ops) (slotMachine_taskOk i ops)
    (fun _ hchain => slotMachine_regular i ops hchain) h

/-! ## One loss for each chain -/

/-- The first commit of a chain was signed. -/
def Effect.starts : Effect → Bool
  | .signed call => call.kind = .firstCommit
  | _ => false

def failuresStep (lost : List Nat) (e : Effect) : List Nat :=
  if e.starts then [] else lost ++ e.failure.toList

/-- The targets marked as failed since the last first commit. -/
def chainFailures (t : List Effect) : List Nat := t.foldl failuresStep []

theorem chainFailures_append (t u : List Effect) :
    chainFailures (t ++ u) = u.foldl failuresStep (chainFailures t) := List.foldl_append

/-- Further effects add their failures at most. -/
theorem chainFailures_length_le (t u : List Effect) :
    (chainFailures (t ++ u)).length ≤ (chainFailures t).length + (failures u).length := by
  induction u using List.reverseRecOn with
  | nil => simp
  | append_singleton u e ih =>
    rw [← List.append_assoc, chainFailures_append, failures_append]
    simp only [List.foldl_cons, List.foldl_nil, failuresStep, List.length_append]
    split
    · simp
    · have hone : e.failure.toList.length = (failures [e]).length := by
        cases e <;> rfl
      rw [List.length_append]
      omega

/-- Effects without a first commit add theirs. -/
theorem chainFailures_of_unstarted {u : List Effect} (h : ∀ e ∈ u, e.starts = false)
    (t : List Effect) : chainFailures (t ++ u) = chainFailures t ++ failures u := by
  induction u using List.reverseRecOn with
  | nil => simp [failures]
  | append_singleton u e ih =>
    have hu : ∀ e ∈ u, e.starts = false := fun e he => h e (List.mem_append_left _ he)
    rw [← List.append_assoc, chainFailures_append, ih hu, failures_append]
    simp only [List.foldl_cons, List.foldl_nil, failuresStep, h e (by simp), Bool.false_eq_true,
      if_false, List.append_assoc]
    cases e <;> rfl

theorem chainFailures_of_started {u : List Effect} {e : Effect} (hmem : e ∈ u)
    (hstarts : e.starts = true) (hnone : failures u = []) (t : List Effect) :
    chainFailures (t ++ u) = [] := by
  rcases List.append_of_mem hmem with ⟨before, after, rfl⟩
  have hafter : failures after = [] := by
    rw [failures_append] at hnone
    have hrest := (List.append_eq_nil_iff.1 hnone).2
    rw [← List.singleton_append, failures_append] at hrest
    exact (List.append_eq_nil_iff.1 hrest).2
  have hle := chainFailures_length_le (t ++ (before ++ [e])) after
  have hstart : chainFailures (t ++ (before ++ [e])) = [] := by
    rw [← List.append_assoc, chainFailures_append]
    simp [failuresStep, hstarts]
  rw [hstart, hafter] at hle
  have hsplit : t ++ (before ++ e :: after) = t ++ (before ++ [e]) ++ after := by simp
  rw [hsplit]
  exact List.eq_nil_of_length_eq_zero (Nat.le_zero.1 hle)

/-- Since its first commit a chain lost one target at most, and none while it is at risk. -/
theorem chainFailures_of_ops (i : Fin 3) (ops : List SlotOp) :
    (∀ u, u <+: (slotMachine cfg).trace (slot₀ cfg i) ops → (chainFailures u).length ≤ 1) ∧
      (((slotMachine cfg).state (slot₀ cfg i) ops).AtRisk →
        chainFailures ((slotMachine cfg).trace (slot₀ cfg i) ops) = []) := by
  induction ops using List.reverseRecOn with
  | nil =>
    refine ⟨?_, fun _ => rfl⟩
    intro u hu
    rw [List.prefix_nil.1 hu]
    exact Nat.zero_le _
  | append_singleton ops op ih =>
    have hloses := @loses_of_ops cfg i ops op
    have hrisk := @atRisk_of_ops cfg i ops op
    rw [slotMachine_state_snoc, slotMachine_trace_snoc]
    generalize (slotMachine cfg).state (slot₀ cfg i) ops = slot at *
    generalize (slotMachine cfg).trace (slot₀ cfg i) ops = t at *
    constructor
    · intro u hu
      rcases hu with ⟨rest, hrest⟩
      rcases List.append_eq_append_iff.1 hrest with ⟨mid, ht, -⟩ | ⟨v, rfl, hv⟩
      · exact ih.1 u ⟨mid, ht.symm⟩
      · have hv : v <+: (op.run cfg slot).effects := ⟨rest, hv.symm⟩
        have hle := chainFailures_length_le t v
        have hsub : (failures v).length ≤ (failures (op.run cfg slot).effects).length :=
          (hv.sublist.filterMap _).length_le
        cases hloses with
        | nothing hnone =>
          have hold := ih.1 t List.prefix_rfl
          rw [hnone] at hsub
          simp only [List.length_nil] at hsub
          omega
        | target hone hbefore =>
          rw [ih.2 hbefore] at hle
          rw [hone] at hsub
          simp only [List.length_nil, List.length_singleton] at hle hsub
          omega
    · intro hafter
      have hnone : failures (op.run cfg slot).effects = [] := by
        cases hloses with
        | nothing hnone => exact hnone
        | target _ _ hlost => exact absurd hafter hlost
      rcases hrisk hafter with hbefore | ⟨call, hmem, hkind⟩
      · have hle := chainFailures_length_le t (op.run cfg slot).effects
        rw [ih.2 hbefore, hnone] at hle
        exact List.eq_nil_of_length_eq_zero (Nat.le_zero.1 hle)
      · exact chainFailures_of_started hmem (by simp [Effect.starts, hkind]) hnone t

/-- Between two first commits at most one target is marked as failed. -/
theorem oneLoss (i : Fin 3) (ops : List SlotOp) {before life after : List Effect}
    (hsplit : (slotMachine cfg).trace (slot₀ cfg i) ops = before ++ life ++ after)
    (hlife : ∀ e ∈ life, e.starts = false) : (failures life).length ≤ 1 := by
  have hle := (@chainFailures_of_ops cfg i ops).1 (before ++ life) (by
    rw [hsplit]
    exact List.prefix_append _ _)
  rw [chainFailures_of_unstarted hlife, List.length_append] at hle
  omega

/-! ## Ticks within an epoch -/

def lastTickStep (last : Nat) : SlotOp → Nat
  | .reset => 0
  | op => op.tick.getD last

/-- The last tick of the operations since the last reset. -/
def lastTick (ops : List SlotOp) : Nat := ops.foldl lastTickStep 0

/-- The ticks of the operations do not decrease between resets. -/
def TicksRise (ops : List SlotOp) : Prop :=
  ∀ before op, before ++ [op] <+: ops → ∀ tick ∈ op.tick, lastTick before ≤ tick

theorem lastTick_snoc (ops : List SlotOp) (op : SlotOp) :
    lastTick (ops ++ [op]) = lastTickStep (lastTick ops) op := by
  rw [lastTick, List.foldl_append]
  rfl

theorem TicksRise.init {ops more : List SlotOp} (h : TicksRise (ops ++ more)) : TicksRise ops := by
  intro before op hbegins
  exact h before op (hbegins.trans (List.prefix_append ops more))

/-- The last tick does not decrease at an operation other than a reset. -/
theorem TicksRise.lastTick_le {ops : List SlotOp} {op : SlotOp} (h : TicksRise (ops ++ [op]))
    (hreset : op ≠ .reset) : lastTick ops ≤ lastTick (ops ++ [op]) := by
  rw [lastTick_snoc]
  have hrise := h ops op List.prefix_rfl
  cases op with
  | reset => exact absurd rfl hreset
  | startIfReady _ tick | extendChain _ tick | expireCalls tick | dispatchCalls tick _
  | finishStatusRestart tick | pruneCalls tick => exact hrise tick rfl
  | harvestBroadcasts _ | applyStatus _ | enterDrain _ _ | finishDrain => exact le_rfl

theorem lastTick_of_tick {ops : List SlotOp} {op : SlotOp} {tick : Nat} (h : op.tick = some tick) :
    lastTick (ops ++ [op]) = tick := by
  rw [lastTick_snoc]
  cases op <;> simp_all [SlotOp.tick, lastTickStep]

/-! ## Targets with an outcome -/

/-- The target has an outcome in the running epoch. -/
def Records (t : List Effect) (target : Nat) : Prop :=
  Effect.recordedOk target ∈ period t ∨ Effect.financialFailure target ∈ period t

/-- What a target with an outcome is, in a slot whose last tick is `last`. -/
inductive Blamed (slot : ManagedSlot) (t : List Effect) (last target : Nat) : Prop where
  /-- A reveal+commit call. -/
  | reveal {signed : SignedCall} (hmem : signed ∈ periodCalls t)
      (htarget : signed.targetTick = target) (hkind : signed.kind = .revealAndCommit)
  /-- A terminal reveal that was not accepted and never will be. -/
  | terminal {signed : SignedCall} (hmem : signed ∈ periodCalls t)
      (htarget : signed.targetTick = target) (hkind : signed.kind = .terminalReveal)
      (hclosing : slot.Closing) (hlost : ¬ slot.AtRisk) (hnot : ¬ AcceptedIn t target)
  /-- A continuation that was never signed, before everything signed later. -/
  | unplanned (hcame : target ≤ last) (hunsigned : ∀ signed ∈ periodCalls t, signed.targetTick ≠ target)
      (hahead : ∀ chain, slot.chain = some chain → target < chain.firstTarget)

/-- What the outcomes and the joined tasks of the running epoch are about. -/
structure OutcomeInv (slot : ManagedSlot) (t : List Effect) (last : Nat) : Prop where
  blamed : ∀ target, Records t target → Blamed slot t last target
  joined : ∀ target kind redundant result, Effect.harvested target kind redundant result ∈ period t →
    ∃ signed ∈ periodCalls t, signed.targetTick = target ∧ signed.kind = kind

/-- Only the first call of a chain is a first commit. -/
theorem currentChain_tail_kind (t : List Effect) :
    ∀ call ∈ (currentChain t).tail, call.kind ≠ .firstCommit := by
  induction t using List.reverseRecOn with
  | nil => simp [currentChain]
  | append_singleton t e ih =>
    rw [currentChain_append]
    cases e with
    | signed call =>
      simp only [List.foldl_cons, List.foldl_nil, chainStep]
      split
      · simp
      · rename_i hkind
        cases hcurrent : currentChain t with
        | nil => simp
        | cons first rest =>
          rw [hcurrent] at ih
          intro other hmem
          simp only [List.cons_append, List.tail_cons, List.mem_append, List.mem_singleton] at hmem
          rcases hmem with hmem | rfl
          · exact ih other hmem
          · exact hkind
    | reset => simp [chainStep]
    | _ => simpa [chainStep] using ih

/-- A target of a planned chain beyond its first is that of a reveal+commit call. -/
theorem revealed_of_owned (i : Fin 3) (ops : List SlotOp) {chain : Chain} {target : Nat}
    (hplanning : ((slotMachine cfg).state (slot₀ cfg i) ops).state.isPlanning = true)
    (hchain : ((slotMachine cfg).state (slot₀ cfg i) ops).chain = some chain)
    (hfirst : chain.firstTarget < target) (howns : chain.ownsTarget target = true) :
    ∃ signed ∈ periodCalls ((slotMachine cfg).trace (slot₀ cfg i) ops),
      signed.targetTick = target ∧ signed.kind = .revealAndCommit := by
  rcases (ownsTarget_iff_signed i ops hplanning hchain target).1 howns with ⟨signed, hmem, htarget⟩
  have hrun : SlotRun cfg (slot₀ cfg i) _ _ := slotMachine_run i ops
  rcases hrun.planned with ⟨p, hrepresents, hinv⟩
  rcases hrepresents.of_planning hplanning with ⟨chain', hchain', -, rfl⟩
  obtain rfl := Option.some.inj (hchain.symm.trans hchain')
  refine ⟨signed, hinv.suffix.subset hmem, htarget, ?_⟩
  have hnormal := hinv.shape.1.normal signed hmem
  rcases hinv.shape.1.head with ⟨first, hhead, hfirstTarget, -⟩
  rcases List.head?_eq_some_iff.1 hhead with ⟨rest, hrest⟩
  have htail := @currentChain_tail_kind ((slotMachine cfg).trace (slot₀ cfg i) ops)
  rw [hrest] at hmem htail
  rcases List.mem_cons.1 hmem with rfl | hmem
  · omega
  · have hlater := htail signed hmem
    cases hkind : signed.kind <;> simp_all

/-- The targets signed in an epoch lie up to the last one of a planned chain. -/
theorem signed_le_last (i : Fin 3) (ops : List SlotOp) {chain : Chain}
    (hplanning : ((slotMachine cfg).state (slot₀ cfg i) ops).state.isPlanning = true)
    (hchain : ((slotMachine cfg).state (slot₀ cfg i) ops).chain = some chain) :
    ∀ signed ∈ periodCalls ((slotMachine cfg).trace (slot₀ cfg i) ops),
      signed.targetTick ≤ chain.lastTarget := by
  have hrun : SlotRun cfg (slot₀ cfg i) _ _ := slotMachine_run i ops
  rcases hrun.planned with ⟨p, hrepresents, hinv⟩
  rcases hrepresents.of_planning hplanning with ⟨chain', hchain', -, rfl⟩
  obtain rfl := Option.some.inj (hchain.symm.trans hchain')
  rcases PlanInv.last_of_chainAt hinv.shape.1 hinv.shape.2 with ⟨last, hlast, htarget, -⟩
  rcases List.getLast?_eq_some_iff.1 hlast with ⟨before, hbefore⟩
  intro signed hmem
  have hspaced := hinv.spaced
  rw [hbefore] at hmem hspaced
  rcases List.mem_append.1 hmem with hmem | hmem
  · have hlt := (List.pairwise_append.1 hspaced).2.2 signed hmem last (by simp)
    omega
  · rw [List.mem_singleton.1 hmem, htarget]

section Step

variable {slot : ManagedSlot}

theorem SlotOp.reset_of_mem {op : SlotOp} (h : Effect.reset ∈ (op.run cfg slot).effects) :
    op = .reset := by
  rcases SlotOp.emits h with hnote | hemits
  · cases hnote
  · cases hemits
    rfl

/-- A joined task is that of a queued call, at a harvest. -/
theorem SlotOp.harvested_call {op : SlotOp} {target : Nat} {kind : CallKind} {redundant : Bool}
    {result : Delivery}
    (h : Effect.harvested target kind redundant result ∈ (op.run cfg slot).effects) :
    (∃ results, op = .harvestBroadcasts results) ∧
      ∃ call ∈ slot.queue, call.targetTick = target ∧ call.kind = kind := by
  rcases SlotOp.emits h with hnote | hemits
  · cases hnote
  · cases hemits with
    | @harvested results =>
      refine ⟨⟨results, rfl⟩, ?_⟩
      change _ ∈ (RandomClient.harvestBroadcasts results slot).effects at h
      unfold RandomClient.harvestBroadcasts at h
      split at h
      · cases h
      · rename_i chain hchain
        simp only [List.mem_append, List.mem_map, reduceCtorEq, and_false, exists_false,
          or_false] at h
        rcases mem_harvestEffects h with ⟨call, hmem, _, _, heq⟩
        injection heq with htarget hkind
        rw [queue_of_chain hchain]
        exact ⟨call, hmem, htarget.symm, hkind.symm⟩

/-- What gives up calls leaves notes of these kinds only. -/
def Effect.isLoss : Effect → Bool
  | .aborted _ _ | .financialFailure _ => true
  | _ => false

theorem abortCalls_losses {calls : List PlannedCall} {e : Effect} (h : e ∈ abortCalls calls) :
    e.isLoss = true := by
  rcases mem_abortCalls h with ⟨_, _, rfl⟩
  rfl

theorem abortChain_losses {chain : Option Chain} {e : Effect} (h : e ∈ abortChain chain) :
    e.isLoss = true := by
  rcases mem_abortChain h with ⟨_, _, rfl⟩
  rfl

theorem loseChain_losses {after : Nat} {observed : Bool} {e : Effect}
    (h : e ∈ (loseChain after observed slot).effects) : e.isLoss = true := by
  unfold loseChain at h
  dsimp only at h
  split at h <;> exact abortChain_losses h

theorem expireCalls_losses {currentTick : Nat} {e : Effect}
    (h : e ∈ (expireCalls currentTick slot).effects) : e.isLoss = true := by
  unfold expireCalls at h
  split at h
  · cases h
  · dsimp only at h
    split at h
    · exact abortCalls_losses h
    · split at h
      all_goals
        simp only [SlotResult.followedBy, completeDrain, List.mem_append] at h
        rcases h with h | h
      all_goals first
        | exact abortCalls_losses h
        | exact abortChain_losses h
        | exact loseChain_losses h
        | (split at h
           · rw [List.mem_singleton.1 h]
             rfl
           · cases h)
        | (rcases h with h | h
           · exact abortCalls_losses h
           · split at h
             · rw [List.mem_singleton.1 h]
               rfl
             · cases h)

theorem observeStatusEvidence_losses {evidence : StatusEvidence} {requestedTick : Nat} {e : Effect}
    (h : e ∈ (observeStatusEvidence evidence requestedTick slot).effects)
    (hnote : e.isNote = true) : e.isLoss = true := by
  unfold observeStatusEvidence at h
  split at h
  · cases h
  · split at h
    · cases h
    · dsimp only at h
      split at h
      · rcases List.mem_append.1 h with h | h
        · split at h
          · rw [List.mem_singleton.1 h]
            rfl
          · cases h
        · unfold beginStatusRestart at h
          split at h
          · cases h
          · split at h
            · rcases List.mem_append.1 h with h | h
              · exact abortChain_losses h
              · cases List.mem_singleton.1 h
                cases hnote
            · cases List.mem_singleton.1 h
              cases hnote
      · cases h

/-- Only a harvest and a dispatch take notes other than losses. -/
theorem SlotOp.losses {op : SlotOp} (hharvest : ∀ results, op ≠ .harvestBroadcasts results)
    (hdispatch : ∀ currentTick tickDurationMs, op ≠ .dispatchCalls currentTick tickDurationMs)
    {e : Effect} (h : e ∈ (op.run cfg slot).effects) (hnote : e.isNote = true) :
    e.isLoss = true := by
  cases op with
  | harvestBroadcasts results => exact absurd rfl (hharvest results)
  | dispatchCalls currentTick tickDurationMs =>
    exact absurd rfl (hdispatch currentTick tickDurationMs)
  | reset =>
    rcases List.mem_append.1 h with h | h
    · exact abortChain_losses h
    · cases List.mem_singleton.1 h
      cases hnote
  | applyStatus observation =>
    simp only [SlotOp.run, RandomClient.applyStatus, applyConfirmationWatermark,
      applyAcknowledgement] at h
    repeat' split at h
    all_goals first | cases h | exact observeStatusEvidence_losses h hnote
  | enterDrain env reason =>
    cases enterDrain_emits h
    cases hnote
  | startIfReady env currentTick =>
    cases startIfReady_emits h
    cases hnote
  | extendChain env currentTick =>
    change _ ∈ (RandomClient.extendChain cfg env currentTick slot).effects at h
    unfold RandomClient.extendChain at h
    split at h
    · split at h
      · rcases List.mem_append.1 h with h | h
        · exact expireCalls_losses h
        · dsimp only at h
          split at h
          · rcases List.mem_cons.1 h with rfl | h
            · rfl
            · exact loseChain_losses h
          · cases h
      · split at h
        · cases h
        · split at h
          · cases h
          · cases extendLoop_emits h
            cases hnote
    · cases h
  | expireCalls currentTick => exact expireCalls_losses h
  | finishDrain =>
    simp only [SlotOp.run, RandomClient.finishDrain, completeDrain] at h
    repeat' split at h
    all_goals first | cases h | exact abortChain_losses h
  | finishStatusRestart currentTick =>
    simp only [SlotOp.run, RandomClient.finishStatusRestart] at h
    repeat' split at h
    all_goals first | cases h | exact abortChain_losses h
  | pruneCalls currentTick =>
    simp only [SlotOp.run, RandomClient.pruneCalls] at h
    repeat' split at h
    all_goals cases h

/-- Only the harvest of an accepted reveal+commit call records a target as `Ok`. -/
theorem SlotOp.recordedOk_of_mem {op : SlotOp} {target : Nat}
    (h : Effect.recordedOk target ∈ (op.run cfg slot).effects) :
    Effect.harvested target .revealAndCommit false .ok ∈ (op.run cfg slot).effects := by
  cases op with
  | harvestBroadcasts results => exact harvest_recordedOk h
  | dispatchCalls currentTick tickDurationMs =>
    exfalso
    simp only [SlotOp.run, RandomClient.dispatchCalls] at h
    split at h
    · cases h
    · rcases List.mem_append.1 h with h | h
      · rcases mem_dispatchEffects h with ⟨_, -, _, -, heq | heq⟩ <;> cases heq
      · split at h
        · simp at h
        · cases h
  | _ => cases SlotOp.losses (by rintro _ ⟨⟩) (by rintro _ _ ⟨⟩) h rfl

end Step

/-! ## What is signed later lies ahead -/

section Ahead

variable {stream : Nat} {p q : PlanState} {u : List Effect} {target : Nat}

/-- The chain of the planner, if any, lies beyond the target. -/
def PlanState.Beyond (target : Nat) (p : PlanState) : Prop :=
  ∀ first last, p.HasChain first last → target < first ∧ first ≤ last

theorem PlanState.Beyond.next {first last : Nat} (h : p.Beyond target)
    (hchain : p.HasChain first last) : target < last + streamCount := by
  have ⟨hfirst, hle⟩ := h first last hchain
  omega

/-- Planned at the target or later, a step signs beyond it. -/
theorem PlanStep.beyond (h : PlanStep cfg stream p u q) (hbeyond : p.Beyond target)
    (hlate : ∀ call, Effect.signed call ∈ u → ∀ tick ∈ call.plannedAt, target ≤ tick) :
    (∀ call, Effect.signed call ∈ u → target < call.targetTick) ∧ q.Beyond target := by
  have hstart : ∀ {restartAt : Nat} {call : SignedCall} {next : Preimage},
      Starts cfg stream restartAt call next → u = [.signed call] →
        (∀ other, Effect.signed other ∈ u → target < other.targetTick) ∧
          (PlanState.live call.targetTick call.targetTick next).Beyond target := by
    intro restartAt call next hcall hu
    rw [hu] at hlate ⊢
    rcases hcall.least with ⟨tick, hplanned, hleast⟩
    have hle := hlate call (List.mem_singleton_self _) tick hplanned
    have hahead : tick + sendLeadTicks ≤ call.targetTick := hleast.1.2.1
    have hlt : target < call.targetTick := by
      simp only [sendLeadTicks] at hahead
      omega
    constructor
    · intro other hmem
      cases List.mem_singleton.1 hmem
      exact hlt
    · rintro first last ⟨⟩
      exact ⟨hlt, le_rfl⟩
  cases h with
  | start hcall => exact hstart hcall rfl
  | restart hcall => exact hstart hcall rfl
  | @extend first last _ _ call hcall =>
    have hnext := hbeyond.next .live
    constructor
    · intro other hmem
      cases List.mem_singleton.1 hmem
      rw [hcall.target]
      exact hnext
    · rintro first' last' ⟨⟩
      have ⟨hfirst, hle⟩ := hbeyond first last .live
      rw [hcall.target]
      exact ⟨hfirst, by omega⟩
  | @close first last _ _ call hcall =>
    have hnext := hbeyond.next .live
    constructor
    · intro other hmem
      cases List.mem_singleton.1 hmem
      rw [hcall.target]
      exact hnext
    · rintro first' last' ⟨⟩
      exact hbeyond first last .live
  | @freeze first last =>
    refine ⟨by simp, ?_⟩
    rintro first' last' ⟨⟩
    exact hbeyond first last .live
  | exhaust | lose | settle | abandon | reset =>
    refine ⟨by simp, ?_⟩
    rintro first' last' ⟨⟩

theorem PlanRun.beyond (h : PlanRun cfg stream p u q) (hbeyond : p.Beyond target)
    (hlate : ∀ call, Effect.signed call ∈ u → ∀ tick ∈ call.plannedAt, target ≤ tick) :
    (∀ call, Effect.signed call ∈ u → target < call.targetTick) ∧ q.Beyond target := by
  induction h with
  | nil => exact ⟨by simp, hbeyond⟩
  | snoc _ hstep ih =>
    have ⟨hsigned, hmid⟩ := ih fun call hmem => hlate call (List.mem_append_left _ hmem)
    have ⟨hnew, hlast⟩ := hstep.beyond hmid fun call hmem =>
      hlate call (List.mem_append_right _ hmem)
    refine ⟨?_, hlast⟩
    intro call hmem
    rcases List.mem_append.1 hmem with hmem | hmem
    · exact hsigned call hmem
    · exact hnew call hmem

theorem Represents.beyond {slot : ManagedSlot} (h : Represents slot p)
    (hchain : ∀ chain, slot.chain = some chain →
      target < chain.firstTarget ∧ chain.firstTarget ≤ chain.lastTarget) : p.Beyond target := by
  intro first last hp
  cases h with
  | waiting => cases hp
  | planning _ _ hsome | restarting _ _ hsome | draining _ hsome =>
    cases hp
    exact hchain _ hsome
  | drained => cases hp

/-- An operation at the target's tick or later signs beyond the target. -/
theorem SlotOp.beyond {op : SlotOp} {slot : ManagedSlot} (hstream : slot.key.stream < streamCount)
    (hrepresents : Represents slot p) (hbeyond : p.Beyond target)
    (hlate : ∀ tick ∈ op.tick, target ≤ tick) :
    (∀ call, Effect.signed call ∈ (op.run cfg slot).effects → target < call.targetTick) ∧
      ∀ chain, (op.run cfg slot).slot.chain = some chain → target < chain.firstTarget := by
  have hsteps : SlotRun cfg slot _ _ := op.steps hstream
  have hplan : ∀ e : Effect, e.isPlan = true → (e ∈ planEffects (op.run cfg slot).effects ↔
      e ∈ (op.run cfg slot).effects) := by
    intro e he
    unfold planEffects
    rw [List.mem_filter]
    exact and_iff_left he
  have hrun : ∃ p', PlanRun cfg slot.key.stream p (planEffects (op.run cfg slot).effects) p' ∧
      (op.run cfg slot).slot.key = slot.key ∧ Represents (op.run cfg slot).slot p' := by
    refine hsteps.simulate (fun s p => s.key = slot.key ∧ Represents s p) planEffects rfl
      planEffects_append ?_ ⟨rfl, hrepresents⟩
    rintro s v s' a ⟨hkey, hs⟩ hstep
    rcases hstep.refines hs with ⟨a', hrun, hs'⟩
    rw [hkey] at hrun
    exact ⟨a', hrun, hstep.key.trans hkey, hs'⟩
  rcases hrun with ⟨p', hrun, -, hafter⟩
  have ⟨hsigned, hbeyond'⟩ := PlanRun.beyond hrun hbeyond (by
    intro call hmem tick hplanned
    rw [hplan _ rfl] at hmem
    rcases SlotOp.emits hmem with hnote | hemits
    · cases hnote
    · cases hemits with
      | closes _ hnone =>
        rw [hnone] at hplanned
        cases hplanned
      | starts _ hsome | continues _ hsome =>
        rw [hsome] at hplanned
        cases hplanned
        exact hlate _ rfl)
  constructor
  · intro call hmem
    exact hsigned call ((hplan _ rfl).2 hmem)
  · intro chain hchain
    exact (hbeyond' _ _ (hafter.hasChain hchain)).1

end Ahead

/-! ## The invariant of the outcomes -/

/-- A terminal reveal that was lost is not accepted. -/
theorem not_accepted_of_lost (i : Fin 3) (ops : List SlotOp) {signed : SignedCall}
    (hdraining : ((slotMachine cfg).state (slot₀ cfg i) ops).state.isDraining = true)
    (hlost : ¬ ((slotMachine cfg).state (slot₀ cfg i) ops).AtRisk)
    (hmem : signed ∈ periodCalls ((slotMachine cfg).trace (slot₀ cfg i) ops))
    (hkind : signed.kind = .terminalReveal) :
    ¬ AcceptedIn ((slotMachine cfg).trace (slot₀ cfg i) ops) signed.targetTick := by
  have hrun : SlotRun cfg (slot₀ cfg i) _ _ := slotMachine_run i ops
  have hinv := hrun.slotInv
  rcases hinv.planned with ⟨p, -, hplan⟩
  have hfailed : ∃ call ∈ ((slotMachine cfg).state (slot₀ cfg i) ops).queue,
      call.kind = .terminalReveal ∧ call.state = .failed := by
    by_contra hnone
    apply hlost
    right
    refine ⟨hdraining, ?_⟩
    intro call hcall hterminal hfailed
    exact hnone ⟨call, hcall, hterminal, hfailed⟩
  rcases hfailed with ⟨call, hcall, hterminal, hfailed⟩
  rcases hinv.queue.recorded call hcall with ⟨other, hother, hrecords⟩
  -- both are the one terminal reveal of the epoch
  have hlast := hplan.terminal_last hmem hkind
  rw [hplan.terminal_last hother (hrecords.kind.trans hterminal)] at hlast
  cases hlast
  rw [hrecords.target, ← hinv.queue.accepted call hcall, hfailed]
  exact nofun

section Outcome

variable {i : Fin 3} {ops : List SlotOp} {op : SlotOp}

/-- A slot that drains or is drained starts no chain. -/
theorem SlotOp.unstarted_of_closing {slot : ManagedSlot} (h : slot.Closing) (call : SignedCall)
    (hmem : Effect.signed call ∈ (op.run cfg slot).effects) : call.kind ≠ .firstCommit := by
  intro hkind
  rcases SlotOp.emits hmem with hnote | hemits
  · cases hnote
  · cases hemits with
    | closes hother | continues hother =>
      rw [hother] at hkind
      cases hkind
    | starts =>
      have hready : slot.state.readyToStart = false := by
        rcases h with hstate | hstate <;> cases hslot : slot.state <;>
          simp_all [SlotState.isDraining, SlotState.isDrained, SlotState.readyToStart]
      simp [SlotOp.run, RandomClient.startIfReady, hready] at hmem

/-- An acceptance is joined while the slot drains, when it is closing at all. -/
theorem accepted_snoc_of_drained (hreset : op ≠ .reset) {target : Nat}
    (hbefore : ((slotMachine cfg).state (slot₀ cfg i) ops).Closing)
    (hdrained : ((slotMachine cfg).state (slot₀ cfg i) (ops ++ [op])).state.isDraining = false)
    (h : AcceptedIn ((slotMachine cfg).trace (slot₀ cfg i) (ops ++ [op])) target) :
    AcceptedIn ((slotMachine cfg).trace (slot₀ cfg i) ops) target := by
  have hshape := @slotShape cfg i ops
  rw [slotMachine_trace_snoc, acceptedIn_append (fun hmem => hreset (SlotOp.reset_of_mem hmem))] at h
  rcases h with h | ⟨kind, h⟩
  · exact h
  · exfalso
    rcases SlotOp.harvested_call h with ⟨⟨results, rfl⟩, call, hcall, -⟩
    have hstate := harvestBroadcasts_state results ((slotMachine cfg).state (slot₀ cfg i) ops)
    rw [slotMachine_state_snoc] at hdrained
    change (RandomClient.harvestBroadcasts results _).slot.state.isDraining = false at hdrained
    rw [hstate] at hdrained
    rcases hbefore with hdraining | hclosed
    · rw [hdraining] at hdrained
      cases hdrained
    · -- a drained slot has no queue
      have hpresent := hshape.present
      unfold ManagedSlot.queue at hcall
      cases hslot : ((slotMachine cfg).state (slot₀ cfg i) ops).state <;>
        simp_all [SlotState.isDrained, SlotState.isPlanning, SlotState.isRestarting,
          SlotState.isDraining]

/-- What is known of a target with an outcome stays known. -/
theorem Blamed.snoc {target : Nat} (hrise : TicksRise (ops ++ [op])) (hreset : op ≠ .reset)
    (h : Blamed ((slotMachine cfg).state (slot₀ cfg i) ops)
      ((slotMachine cfg).trace (slot₀ cfg i) ops) (lastTick ops) target) :
    Blamed ((slotMachine cfg).state (slot₀ cfg i) (ops ++ [op]))
      ((slotMachine cfg).trace (slot₀ cfg i) (ops ++ [op])) (lastTick (ops ++ [op])) target := by
  have hquiet : Effect.reset ∉ (op.run cfg ((slotMachine cfg).state (slot₀ cfg i) ops)).effects :=
    fun hmem => hreset (SlotOp.reset_of_mem hmem)
  have hbegins : periodCalls ((slotMachine cfg).trace (slot₀ cfg i) ops) <+:
      periodCalls ((slotMachine cfg).trace (slot₀ cfg i) (ops ++ [op])) := by
    rw [slotMachine_trace_snoc]
    exact periodCalls_isPrefix hquiet _
  cases h with
  | reveal hmem htarget hkind => exact .reveal (hbegins.subset hmem) htarget hkind
  | @terminal signed hmem htarget hkind hclosing hlost hnot =>
    have hclosing' : ((slotMachine cfg).state (slot₀ cfg i) (ops ++ [op])).Closing := by
      rw [slotMachine_state_snoc]
      exact SlotOp.closing (slotShape i ops) hclosing hreset
    have hlost' : ¬ ((slotMachine cfg).state (slot₀ cfg i) (ops ++ [op])).AtRisk := by
      rw [slotMachine_state_snoc]
      intro hrisk
      rcases atRisk_of_ops i ops op hrisk with hbefore | ⟨call, hcall, hfirst⟩
      · exact hlost hbefore
      · exact SlotOp.unstarted_of_closing hclosing call hcall hfirst
    refine .terminal (hbegins.subset hmem) htarget hkind hclosing' hlost' ?_
    cases hdraining :
      ((slotMachine cfg).state (slot₀ cfg i) (ops ++ [op])).state.isDraining with
    | true =>
      rw [← htarget]
      exact not_accepted_of_lost i _ hdraining hlost' (hbegins.subset hmem) hkind
    | false => exact fun haccepted => hnot (accepted_snoc_of_drained hreset hclosing hdraining haccepted)
  | unplanned hcame hunsigned hahead =>
    have hrun : SlotRun cfg (slot₀ cfg i) _ _ := slotMachine_run i ops
    rcases hrun.planned with ⟨p, hrepresents, -⟩
    have hlast := hrise.lastTick_le hreset
    have hbeyond : p.Beyond target := hrepresents.beyond fun chain hchain =>
      ⟨hahead chain hchain, (slotMachine_regular i ops hchain).first_le⟩
    have hlate : ∀ tick ∈ op.tick, target ≤ tick := by
      intro tick htick
      have hle := hrise ops op List.prefix_rfl tick htick
      omega
    have hstream : ((slotMachine cfg).state (slot₀ cfg i) ops).key.stream < streamCount := by
      rw [slotMachine_key]
      exact i.2
    have ⟨hsigned, hchain⟩ := @SlotOp.beyond cfg p target op _ hstream hrepresents hbeyond hlate
    refine .unplanned (by omega) ?_ ?_
    · intro signed hmem heq
      rw [slotMachine_trace_snoc] at hmem
      rcases mem_periodCalls_append hmem hquiet with hold | hnew
      · exact hunsigned signed hold heq
      · have hlt := hsigned signed hnew
        omega
    · intro chain hsome
      rw [slotMachine_state_snoc] at hsome
      exact hchain chain hsome

/-- What an operation marks as failed. -/
theorem blamed_of_failure {target : Nat} (hreset : op ≠ .reset)
    (h : Effect.financialFailure target ∈
      (op.run cfg ((slotMachine cfg).state (slot₀ cfg i) ops)).effects) :
    Blamed ((slotMachine cfg).state (slot₀ cfg i) (ops ++ [op]))
      ((slotMachine cfg).trace (slot₀ cfg i) (ops ++ [op])) (lastTick (ops ++ [op])) target := by
  have hrun : SlotRun cfg (slot₀ cfg i) _ _ := slotMachine_run i ops
  have hinv := hrun.slotInv
  have hquiet : Effect.reset ∉ (op.run cfg ((slotMachine cfg).state (slot₀ cfg i) ops)).effects :=
    fun hmem => hreset (SlotOp.reset_of_mem hmem)
  have hbegins : periodCalls ((slotMachine cfg).trace (slot₀ cfg i) ops) <+:
      periodCalls ((slotMachine cfg).trace (slot₀ cfg i) (ops ++ [op])) := by
    rw [slotMachine_trace_snoc]
    exact periodCalls_isPrefix hquiet _
  have hrecorded : ∀ chain call, ((slotMachine cfg).state (slot₀ cfg i) ops).chain = some chain →
      call ∈ chain.calls → ∃ signed ∈ periodCalls ((slotMachine cfg).trace (slot₀ cfg i) (ops ++ [op])),
        signed.targetTick = call.targetTick ∧ signed.kind = call.kind := by
    intro chain call hchain hmem
    rw [← queue_of_chain hchain] at hmem
    rcases hinv.queue.recorded call hmem with ⟨signed, hsigned, hrecords⟩
    exact ⟨signed, hbegins.subset hsigned, hrecords.target, hrecords.kind⟩
  have hmem := mem_failures.2 h
  cases loses_of_ops i ops op with
  | nothing hnone =>
    rw [hnone] at hmem
    cases hmem
  | target hone _ hafter hcause =>
    rw [hone] at hmem
    cases List.mem_singleton.1 hmem
    cases hcause with
    | evidence hplanning hchain hfirst howns =>
      rcases revealed_of_owned i ops hplanning hchain hfirst howns with ⟨signed, hsigned, htarget, hkind⟩
      exact .reveal (hbegins.subset hsigned) htarget hkind
    | @missed chain currentTick hplanning hchain htarget htick hcame hlost =>
      refine .unplanned ?_ ?_ ?_
      · rw [lastTick_of_tick htick]
        exact hcame
      · intro signed hsigned heq
        rw [slotMachine_trace_snoc] at hsigned
        rcases mem_periodCalls_append hsigned hquiet with hold | hnew
        · have hle := signed_le_last i ops hplanning hchain signed hold
          rw [heq, htarget] at hle
          simp only [streamCount] at hle
          omega
        · exact SlotOp.unsigned_of_failure (by simp [hone]) signed hnew
      · intro chain' hsome
        rw [slotMachine_state_snoc, hlost] at hsome
        cases hsome
    | expired hchain hcall hkind htarget =>
      rcases hrecorded _ _ hchain hcall with ⟨signed, hsigned, hsame, hsameKind⟩
      exact .reveal hsigned (hsame.trans htarget) (hsameKind.trans hkind)
    | terminal hdraining hchain hcall hkind htarget hundelivered hclosing =>
      rcases hrecorded _ _ hchain hcall with ⟨signed, hsigned, hsame, hsameKind⟩
      have hterminal := hsameKind.trans hkind
      rw [← slotMachine_state_snoc] at hafter hclosing
      refine .terminal hsigned (hsame.trans htarget) hterminal hclosing hafter ?_
      cases hstill :
        ((slotMachine cfg).state (slot₀ cfg i) (ops ++ [op])).state.isDraining with
      | true =>
        rw [← htarget, ← hsame]
        exact not_accepted_of_lost i _ hstill hafter hsigned hterminal
      | false =>
        intro haccepted
        rw [← queue_of_chain hchain] at hcall
        apply hundelivered
        rw [hinv.queue.accepted _ hcall, htarget]
        exact accepted_snoc_of_drained hreset (.inl hdraining) hstill haccepted

/-- While the ticks of an epoch do not decrease, every outcome of a history is
that of a reveal, of a lost terminal reveal or of a continuation never signed. -/
theorem outcomeInv (i : Fin 3) (ops : List SlotOp) (hrise : TicksRise ops) :
    OutcomeInv ((slotMachine cfg).state (slot₀ cfg i) ops)
      ((slotMachine cfg).trace (slot₀ cfg i) ops) (lastTick ops) := by
  induction ops using List.reverseRecOn with
  | nil =>
    constructor
    · rintro target (h | h) <;> cases h
    · intro target kind redundant result h
      cases h
  | append_singleton ops op ih =>
    have hold := ih hrise.init
    by_cases hreset : op = .reset
    · -- nothing is left of the last epoch
      have hnone : period ((slotMachine cfg).trace (slot₀ cfg i) (ops ++ [op])) = [] := by
        rw [slotMachine_trace_snoc, hreset]
        show period (_ ++ (abortChain _ ++ [.reset])) = []
        rw [← List.append_assoc, period_reset]
      constructor
      · rintro target (h | h) <;> rw [hnone] at h <;> cases h
      · intro target kind redundant result h
        rw [hnone] at h
        cases h
    · have hquiet : Effect.reset ∉
          (op.run cfg ((slotMachine cfg).state (slot₀ cfg i) ops)).effects :=
        fun hmem => hreset (SlotOp.reset_of_mem hmem)
      have hperiod := period_append hquiet ((slotMachine cfg).trace (slot₀ cfg i) ops)
      rw [← slotMachine_trace_snoc] at hperiod
      have hbegins : periodCalls ((slotMachine cfg).trace (slot₀ cfg i) ops) <+:
          periodCalls ((slotMachine cfg).trace (slot₀ cfg i) (ops ++ [op])) := by
        rw [slotMachine_trace_snoc]
        exact periodCalls_isPrefix hquiet _
      have hrun : SlotRun cfg (slot₀ cfg i) _ _ := slotMachine_run i ops
      have hjoined : ∀ target kind redundant result, Effect.harvested target kind redundant result ∈
          period ((slotMachine cfg).trace (slot₀ cfg i) (ops ++ [op])) →
            ∃ signed ∈ periodCalls ((slotMachine cfg).trace (slot₀ cfg i) (ops ++ [op])),
              signed.targetTick = target ∧ signed.kind = kind := by
        intro target kind redundant result h
        rw [hperiod] at h
        rcases List.mem_append.1 h with h | h
        · rcases hold.joined _ _ _ _ h with ⟨signed, hmem, hsame⟩
          exact ⟨signed, hbegins.subset hmem, hsame⟩
        · rcases (SlotOp.harvested_call h).2 with ⟨call, hcall, rfl, rfl⟩
          rcases hrun.slotInv.queue.recorded call hcall with ⟨signed, hmem, hrecords⟩
          exact ⟨signed, hbegins.subset hmem, hrecords.target, hrecords.kind⟩
      refine ⟨?_, hjoined⟩
      intro target hrecords
      have hcases : Records ((slotMachine cfg).trace (slot₀ cfg i) ops) target ∨
          Effect.recordedOk target ∈ (op.run cfg ((slotMachine cfg).state (slot₀ cfg i) ops)).effects ∨
          Effect.financialFailure target ∈
            (op.run cfg ((slotMachine cfg).state (slot₀ cfg i) ops)).effects := by
        unfold Records at hrecords ⊢
        rw [hperiod, List.mem_append, List.mem_append] at hrecords
        grind
      rcases hcases with hrecords | hok | hfailure
      · exact (hold.blamed target hrecords).snoc hrise hreset
      · have hmem : Effect.harvested target .revealAndCommit false .ok ∈
            period ((slotMachine cfg).trace (slot₀ cfg i) (ops ++ [op])) := by
          rw [hperiod]
          exact List.mem_append_right _ (SlotOp.recordedOk_of_mem hok)
        rcases hjoined _ _ _ _ hmem with ⟨signed, hsigned, htarget, hkind⟩
        exact .reveal hsigned htarget hkind
      · exact blamed_of_failure hreset hfailure

/-- What is recorded as `Ok` was accepted in the epoch. -/
theorem accepted_of_recordedOk (i : Fin 3) (ops : List SlotOp) {target : Nat}
    (h : Effect.recordedOk target ∈ period ((slotMachine cfg).trace (slot₀ cfg i) ops)) :
    Effect.harvested target .revealAndCommit false .ok ∈
      period ((slotMachine cfg).trace (slot₀ cfg i) ops) := by
  induction ops using List.reverseRecOn with
  | nil => cases h
  | append_singleton ops op ih =>
    rw [slotMachine_trace_snoc] at h ⊢
    by_cases hreset : op = .reset
    · rw [hreset] at h
      change _ ∈ period (_ ++ (abortChain _ ++ [.reset])) at h
      rw [← List.append_assoc, period_reset] at h
      cases h
    · have hquiet : Effect.reset ∉
          (op.run cfg ((slotMachine cfg).state (slot₀ cfg i) ops)).effects :=
        fun hmem => hreset (SlotOp.reset_of_mem hmem)
      rw [period_append hquiet] at h ⊢
      rcases List.mem_append.1 h with h | h
      · exact List.mem_append_left _ (ih h)
      · exact List.mem_append_right _ (SlotOp.recordedOk_of_mem h)

end Outcome

section Unrecorded

variable {slot : ManagedSlot} {t : List Effect} {last : Nat} {signed : SignedCall}

/-- The target of a first commit has no outcome. -/
theorem OutcomeInv.unrecorded_of_first (h : OutcomeInv slot t last) (hspaced : Spaced (periodCalls t))
    (hmem : signed ∈ periodCalls t) (hkind : signed.kind = .firstCommit) :
    ¬ Records t signed.targetTick := by
  intro hrecords
  cases h.blamed _ hrecords with
  | reveal hother htarget hreveal =>
    rw [hspaced.eq_of_target hother hmem htarget, hkind] at hreveal
    cases hreveal
  | terminal hother htarget hterminal =>
    rw [hspaced.eq_of_target hother hmem htarget, hkind] at hterminal
    cases hterminal
  | unplanned _ hunsigned => exact hunsigned signed hmem rfl

/-- The target of an accepted terminal reveal has no outcome. -/
theorem OutcomeInv.unrecorded_of_accepted (h : OutcomeInv slot t last)
    (hspaced : Spaced (periodCalls t)) (hmem : signed ∈ periodCalls t)
    (hkind : signed.kind = .terminalReveal) (haccepted : AcceptedIn t signed.targetTick) :
    ¬ Records t signed.targetTick := by
  intro hrecords
  cases h.blamed _ hrecords with
  | reveal hother htarget hreveal =>
    rw [hspaced.eq_of_target hother hmem htarget, hkind] at hreveal
    cases hreveal
  | terminal _ _ _ _ _ hnot => exact hnot haccepted
  | unplanned _ hunsigned => exact hunsigned signed hmem rfl

end Unrecorded

end RandomClient
