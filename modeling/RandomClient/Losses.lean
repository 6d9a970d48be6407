import RandomClient.Freshness
import RandomClient.Shutdown

/-!
# Losses of collateral

Which operations mark a target as failed, and on which slots. A slot is at risk
while its chain is planned and while its terminal reveal has not failed. An
operation that marks a failure takes the slot out of risk (`Loses`), and only a
first commit brings it back. The target it marks is one of the current chain
beyond its first, or the one the chain was never continued to
(`FailureCause`).
-/

namespace RandomClient

variable {cfg : Config}

/-! ## Failures in a trace -/

/-- The target an effect marks as failed. -/
def Effect.failure : Effect → Option Nat
  | .financialFailure target => some target
  | _ => none

/-- The targets marked as failed, in order. -/
def failures (t : List Effect) : List Nat := t.filterMap Effect.failure

theorem failures_append (t u : List Effect) : failures (t ++ u) = failures t ++ failures u :=
  List.filterMap_append

theorem mem_failures {t : List Effect} {target : Nat} :
    target ∈ failures t ↔ Effect.financialFailure target ∈ t := by
  unfold failures
  rw [List.mem_filterMap]
  constructor
  · rintro ⟨e, hmem, he⟩
    cases e <;> simp only [Effect.failure, Option.some.injEq, reduceCtorEq] at he
    rw [← he]
    exact hmem
  · intro hmem
    exact ⟨_, hmem, rfl⟩

theorem failures_eq_nil {t : List Effect} (h : ∀ target, Effect.financialFailure target ∉ t) :
    failures t = [] := by
  rw [List.eq_nil_iff_forall_not_mem]
  intro target hmem
  exact h target (mem_failures.1 hmem)

theorem mem_abortCalls {calls : List PlannedCall} {e : Effect} (h : e ∈ abortCalls calls) :
    ∃ target task, e = .aborted target task := by
  rcases List.mem_filterMap.1 h with ⟨call, -, hcall⟩
  rcases Option.map_eq_some_iff.1 hcall with ⟨task, -, rfl⟩
  exact ⟨call.targetTick, task, rfl⟩

theorem mem_abortChain {chain : Option Chain} {e : Effect} (h : e ∈ abortChain chain) :
    ∃ target task, e = .aborted target task := by
  cases chain with
  | none => cases h
  | some chain => exact mem_abortCalls h

theorem failures_abortCalls (calls : List PlannedCall) : failures (abortCalls calls) = [] := by
  apply failures_eq_nil
  intro target hmem
  rcases mem_abortCalls hmem with ⟨_, _, heq⟩
  cases heq

theorem failures_abortChain (chain : Option Chain) : failures (abortChain chain) = [] := by
  cases chain with
  | none => rfl
  | some chain => exact failures_abortCalls chain.calls

theorem failures_loseChain (after : Nat) (observed : Bool) (slot : ManagedSlot) :
    failures (loseChain after observed slot).effects = [] := by
  unfold loseChain
  dsimp only
  split <;> exact failures_abortChain slot.chain

theorem failures_option (failure : Option Nat) :
    failures (match failure with
      | some target => [Effect.financialFailure target]
      | none => []) = failure.toList := by
  cases failure <;> rfl

/-! ## Slots at risk -/

/-- The chain of the slot can still lose its collateral. -/
def ManagedSlot.AtRisk (slot : ManagedSlot) : Prop :=
  slot.state.isPlanning = true ∨ (slot.state.isDraining = true ∧
    ∀ call ∈ slot.queue, call.kind = .terminalReveal → call.state ≠ .failed)

/-- The slot drains or is drained. -/
def ManagedSlot.Closing (slot : ManagedSlot) : Prop :=
  slot.state.isDraining = true ∨ slot.state.isDrained = true

theorem ManagedSlot.not_atRisk {slot : ManagedSlot} (hplanning : slot.state.isPlanning = false)
    (hdraining : slot.state.isDraining = false) : ¬ slot.AtRisk := by
  rintro (h | ⟨h, -⟩)
  · rw [hplanning] at h
    cases h
  · rw [hdraining] at h
    cases h

theorem ManagedSlot.not_atRisk_of_failed {slot : ManagedSlot} (hdraining : slot.state.isDraining = true)
    {call : PlannedCall} (hmem : call ∈ slot.queue) (hkind : call.kind = .terminalReveal)
    (hfailed : call.state = .failed) : ¬ slot.AtRisk := by
  rintro (h | ⟨-, h⟩)
  · have hnot := not_draining_of_planning h
    rw [hdraining] at hnot
    cases hnot
  · exact h call hmem hkind hfailed

theorem loseChain_not_atRisk (after : Nat) (observed : Bool) (slot : ManagedSlot) :
    ¬ (loseChain after observed slot).slot.AtRisk := by
  unfold loseChain
  dsimp only
  split <;> exact ManagedSlot.not_atRisk rfl rfl

/-- Why an operation at a tick marks a target as failed. -/
inductive FailureCause (slot : ManagedSlot) (tick : Option Nat) (slot' : ManagedSlot)
    (target : Nat) : Prop where
  /-- A confirmed absence or lag blames a target of the chain. -/
  | evidence {chain : Chain} (hstate : slot.state.isPlanning = true)
      (hchain : slot.chain = some chain) (hfirst : chain.firstTarget < target)
      (howns : chain.ownsTarget target = true)
  /-- The chain was not continued before its next target came. -/
  | missed {chain : Chain} {currentTick : Nat} (hstate : slot.state.isPlanning = true)
      (hchain : slot.chain = some chain) (htarget : target = chain.lastTarget + streamCount)
      (htick : tick = some currentTick) (hcame : target ≤ currentTick) (hlost : slot'.chain = none)
  /-- A reveal of the chain expired undelivered. -/
  | expired {chain : Chain} {call : PlannedCall} (hchain : slot.chain = some chain)
      (hmem : call ∈ chain.calls) (hkind : call.kind = .revealAndCommit)
      (htarget : call.targetTick = target) (hfirst : chain.firstTarget ≤ target)
  /-- The terminal reveal failed or expired after a send. -/
  | terminal {chain : Chain} {call : PlannedCall} (hstate : slot.state.isDraining = true)
      (hchain : slot.chain = some chain) (hmem : call ∈ chain.calls)
      (hkind : call.kind = .terminalReveal) (htarget : call.targetTick = target)
      (hundelivered : call.state ≠ .accepted) (hclosing : slot'.Closing)

/-- An operation marks no target, or one, and then takes the slot out of risk. -/
inductive Loses (slot : ManagedSlot) (tick : Option Nat) (slot' : ManagedSlot)
    (u : List Effect) : Prop where
  | nothing (h : failures u = [])
  | target {target : Nat} (h : failures u = [target]) (hbefore : slot.AtRisk)
      (hafter : ¬ slot'.AtRisk) (hcause : FailureCause slot tick slot' target)

/-! ## The terminal reveal -/

section Terminal

variable {stream : Nat} {slot : ManagedSlot}

/-- Of the calls of a slot at most its one terminal reveal is selected. -/
theorem SlotShape.terminal_filter (h : SlotShape stream slot) {p : PlannedCall → Bool}
    (hp : ∀ call, p call = true → call.kind = .terminalReveal) :
    slot.queue.filter p = [] ∨ ∃ terminal, slot.queue.filter p = [terminal] ∧
      slot.state.isDraining = true ∧ terminal ∈ slot.queue ∧ p terminal = true ∧
        ∀ call ∈ slot.queue, call.kind = .terminalReveal → call = terminal := by
  cases hdraining : slot.state.isDraining with
  | false =>
    left
    rw [List.filter_eq_nil_iff]
    intro call hmem hcall
    exact h.normal hdraining call hmem (hp call hcall)
  | true =>
    have hstate : ∃ reason target, slot.state = .draining reason target := by
      cases hslot : slot.state <;> simp_all [SlotState.isDraining]
    rcases hstate with ⟨reason, target, hstate⟩
    rcases h.draining reason target hstate with
      ⟨chain, normal, terminal, hchain, -, hcalls, hkind, -, hnormal⟩
    rw [queue_of_chain hchain, hcalls, List.filter_append]
    have hnone : normal.filter p = [] := by
      rw [List.filter_eq_nil_iff]
      intro call hmem hcall
      exact hnormal call hmem (hp call hcall)
    rw [hnone, List.nil_append]
    cases hterminal : p terminal with
    | false =>
      left
      simp [hterminal]
    | true =>
      right
      refine ⟨terminal, by simp [hterminal], rfl, by simp, hterminal, ?_⟩
      intro call hmem hcall
      rcases List.mem_append.1 hmem with hmem | hmem
      · exact absurd hcall (hnormal call hmem)
      · exact List.mem_singleton.1 hmem

/-- Once the terminal reveal is not waiting any more, the other calls of the
chain have been accepted. -/
def ManagedSlot.TerminalCleared (slot : ManagedSlot) : Prop :=
  ∀ chain terminal, slot.chain = some chain → terminal ∈ chain.calls →
    terminal.kind = .terminalReveal → terminal.state ≠ .ready →
      ∀ call ∈ chain.calls, chain.firstTarget ≤ call.targetTick → call.kind ≠ .terminalReveal →
        call.state = .accepted

theorem ManagedSlot.TerminalCleared.of_normal
    (h : ∀ call ∈ slot.queue, call.kind ≠ .terminalReveal) : slot.TerminalCleared := by
  intro chain terminal hchain hmem hkind
  rw [← queue_of_chain hchain] at hmem
  exact absurd hkind (h terminal hmem)

/-- A sweep that keeps acceptance and wakes the terminal reveal only when the
other calls were accepted. -/
theorem ManagedSlot.TerminalCleared.sweep (h : slot.TerminalCleared) {chain : Chain} (hchain : slot.chain = some chain)
    {f : PlannedCall → PlannedCall} (hkeeps : ∀ call : PlannedCall, call.Keeps (f call))
    (haccepted : ∀ call : PlannedCall, call.state = .accepted → (f call).state = .accepted)
    (hwakes : ∀ terminal ∈ chain.calls, terminal.kind = .terminalReveal →
      (f terminal).state ≠ .ready → terminal.state ≠ .ready ∨
        ∀ call ∈ chain.calls, chain.firstTarget ≤ call.targetTick → call.kind ≠ .terminalReveal →
          call.state = .accepted) :
    ManagedSlot.TerminalCleared { slot with chain := some { chain with calls := chain.calls.map f } } := by
  intro chain' terminal hchain' hmem hkind hstate call hcall hfirst hnormal
  obtain rfl := Option.some.inj hchain'
  rcases List.mem_map.1 hmem with ⟨terminal, hterminal, rfl⟩
  rcases List.mem_map.1 hcall with ⟨call, hold, rfl⟩
  rw [(hkeeps terminal).kind] at hkind
  rw [(hkeeps call).target] at hfirst
  rw [(hkeeps call).kind] at hnormal
  apply haccepted
  rcases hwakes terminal hterminal hkind hstate with hready | hall
  · exact h chain terminal hchain hterminal hkind hready call hold hfirst hnormal
  · exact hall call hold hfirst hnormal

/-- Operations that a draining slot ignores. -/
theorem SlotOp.draining_idle {op : SlotOp} (h : slot.state.isDraining = true) (hreset : op ≠ .reset)
    (hharvest : ∀ results, op ≠ .harvestBroadcasts results)
    (hexpire : ∀ currentTick, op ≠ .expireCalls currentTick)
    (hdispatch : ∀ currentTick tickDurationMs, op ≠ .dispatchCalls currentTick tickDurationMs)
    (hfinish : op ≠ .finishDrain) : op.run cfg slot = { slot := slot } := by
  have hstate : ∃ reason target, slot.state = .draining reason target := by
    cases hslot : slot.state <;> simp_all [SlotState.isDraining]
  rcases hstate with ⟨reason, target, hstate⟩
  cases op with
  | reset => exact absurd rfl hreset
  | harvestBroadcasts results => exact absurd rfl (hharvest results)
  | expireCalls currentTick => exact absurd rfl (hexpire currentTick)
  | dispatchCalls currentTick tickDurationMs => exact absurd rfl (hdispatch _ _)
  | finishDrain => exact absurd rfl hfinish
  | applyStatus observation => simp only [SlotOp.run, RandomClient.applyStatus, hstate]
  | enterDrain env reason => simp only [SlotOp.run, RandomClient.enterDrain, hstate]
  | startIfReady env currentTick =>
    simp [SlotOp.run, RandomClient.startIfReady, hstate, SlotState.readyToStart]
  | extendChain env currentTick =>
    simp [SlotOp.run, RandomClient.extendChain, hstate, SlotState.isPlanning]
  | finishStatusRestart currentTick =>
    simp only [SlotOp.run, RandomClient.finishStatusRestart, hstate]
  | pruneCalls currentTick => simp [SlotOp.run, RandomClient.pruneCalls, h]

/-- A terminal reveal lies at or beyond the first target of its chain. -/
theorem SlotShape.terminal_target (h : SlotShape stream slot) {chain : Chain}
    (hchain : slot.chain = some chain) (hregular : chain.Regular) {call : PlannedCall}
    (hmem : call ∈ chain.calls) (hkind : call.kind = .terminalReveal) :
    slot.state.isDraining = true ∧ chain.firstTarget ≤ call.targetTick := by
  cases hdraining : slot.state.isDraining with
  | false =>
    rw [← queue_of_chain hchain] at hmem
    exact absurd hkind (h.normal hdraining call hmem)
  | true =>
    refine ⟨rfl, ?_⟩
    have hstate : ∃ reason target, slot.state = .draining reason target := by
      cases hslot : slot.state <;> simp_all [SlotState.isDraining]
    rcases hstate with ⟨reason, target, hstate⟩
    rcases h.draining reason target hstate with
      ⟨chain', normal, terminal, hchain', htarget, hcalls, -, hterminal, hnormal⟩
    obtain rfl := Option.some.inj (hchain.symm.trans hchain')
    rw [hcalls] at hmem
    rcases List.mem_append.1 hmem with hmem | hmem
    · exact absurd hkind (hnormal call hmem)
    · have hfirst := hregular.first_le
      rw [List.mem_singleton.1 hmem]
      omega

/-- Without an expired call the sweep of an expiry leaves the terminal reveal as it is. -/
theorem expireCall_terminal {currentTick : Nat} {chain : Chain} {terminal : PlannedCall}
    (hexpired : expiredCalls currentTick chain.firstTarget chain.calls = [])
    (hmem : terminal ∈ chain.calls) (hfirst : chain.firstTarget ≤ terminal.targetTick) :
    (expireCall currentTick chain.firstTarget terminal).state = terminal.state := by
  have hnot : terminal ∉ expiredCalls currentTick chain.firstTarget chain.calls := by
    rw [hexpired]
    exact List.not_mem_nil
  unfold expireCall
  cases hexpiry : expiryOf currentTick chain.firstTarget terminal with
  | future => rfl
  | settled => rfl
  | retained =>
    have hold := expiryOf_retained hexpiry
    omega
  | expired => exact absurd (List.mem_filter.2 ⟨hmem, by simpa using hexpiry⟩) hnot

/-- An expiry sweeps the queue, or expired calls cost the slot its chain, or the
slot neither plans nor drains. -/
theorem expireCalls_cases (currentTick : Nat) {chain : Chain} (hchain : slot.chain = some chain) :
    (expiredCalls currentTick chain.firstTarget chain.calls = [] ∧
      expireCalls currentTick slot =
        { slot := { slot with chain := some { chain with
            calls := chain.calls.map (expireCall currentTick chain.firstTarget) } }
          effects := expireAborts currentTick chain.calls }) ∨
    (slot.state.isPlanning = true ∧
      failures (expireCalls currentTick slot).effects = (firstExpiredNormal
        (expiredCalls currentTick chain.firstTarget chain.calls)).toList ∧
      (expireCalls currentTick slot).slot.chain = none ∧
      ¬ (expireCalls currentTick slot).slot.AtRisk) ∨
    (slot.state.isDraining = true ∧
      failures (expireCalls currentTick slot).effects = ((firstExpiredNormal
        (expiredCalls currentTick chain.firstTarget chain.calls)).or (attemptedTerminal
          (expiredCalls currentTick chain.firstTarget chain.calls))).toList ∧
      (expireCalls currentTick slot).slot.chain = none ∧
      (expireCalls currentTick slot).slot.state = .drained .failed) ∨
    (slot.state.isPlanning = false ∧ slot.state.isDraining = false ∧
      failures (expireCalls currentTick slot).effects = [] ∧
      (expireCalls currentTick slot).slot.state = slot.state) := by
  have haborts := failures_abortCalls
    (chain.calls.filter fun call => call.targetTick ≤ currentTick)
  change failures (expireAborts currentTick chain.calls) = [] at haborts
  unfold expireCalls
  rw [hchain]
  dsimp only
  cases hexpired : (expiredCalls currentTick chain.firstTarget chain.calls).isEmpty with
  | true =>
    rw [if_pos rfl]
    exact .inl ⟨by simpa using hexpired, rfl⟩
  | false =>
    rw [if_neg (by decide)]
    right
    cases hstate : slot.state with
    | starting _ | active =>
      left
      refine ⟨rfl, ?_, loseChain_chain _ _ _, loseChain_not_atRisk _ _ _⟩
      simp only [SlotResult.followedBy, failures_append, haborts, failures_loseChain,
        expiryFailure, List.nil_append, List.append_nil]
      exact failures_option _
    | draining _ _ =>
      right
      left
      refine ⟨rfl, ?_, rfl, rfl⟩
      simp only [SlotResult.followedBy, failures_append, haborts, completeDrain, failures_abortChain,
        expiryFailure, List.nil_append, List.append_nil]
      exact failures_option _
    | restarting _ _ _ _ | waiting _ _ | drained _ =>
      right
      right
      refine ⟨rfl, rfl, ?_, rfl⟩
      simp only [failures_append, haborts, expiryFailure, List.nil_append]
      rfl

/-! ## What an operation keeps -/

/-- A failed call has no task, so that no sweep revives it. -/
theorem PlannedCall.TaskOk.failed {call : PlannedCall} (h : call.TaskOk)
    (hfailed : call.state = .failed) : call.broadcast = none := by
  by_contra htask
  have hstate := h (Option.isSome_iff_ne_none.2 htask)
  rcases hstate with hstate | hstate <;> simp [hfailed] at hstate

theorem harvestCall_failed {shutdownDrain : Bool} {results : Nat → Option Delivery}
    {call : PlannedCall} (h : call.TaskOk) (hfailed : call.state = .failed) :
    (harvestCall shutdownDrain results call).state = .failed := by
  have hpending : harvestOf shutdownDrain results call = .pending := by
    simp [harvestOf, h.failed hfailed]
  simp [harvestCall, hpending, hfailed]

theorem dispatchCall_failed {ctx : DispatchContext} {tickDurationMs : Nat} {call : PlannedCall}
    (hfailed : call.state = .failed) : (dispatchCall ctx tickDurationMs call).state = .failed := by
  unfold dispatchCall
  split
  · exact hfailed
  · rfl
  · exact hfailed
  · rename_i hsend
    have hready := (dispatchOf_send hsend).2.2.2.2.1 rfl
    simp [hfailed] at hready

/-- A slot that drains keeps its state or is drained. -/
theorem SlotOp.draining_state {op : SlotOp} (hdraining : slot.state.isDraining = true)
    (hreset : op ≠ .reset) : (op.run cfg slot).slot.state = slot.state ∨
      ∃ outcome, (op.run cfg slot).slot.state = .drained outcome := by
  have hidle := @SlotOp.draining_idle cfg slot op hdraining hreset
  cases op with
  | reset => exact absurd rfl hreset
  | harvestBroadcasts results => exact .inl (harvestBroadcasts_state results slot)
  | expireCalls currentTick =>
    cases hchain : slot.chain with
    | none => simp [SlotOp.run, RandomClient.expireCalls, hchain]
    | some chain =>
      show (RandomClient.expireCalls currentTick slot).slot.state = _ ∨ _
      rcases expireCalls_cases currentTick hchain with ⟨-, hsweep⟩ | ⟨hplanning, -⟩ |
        ⟨-, -, -, hdrained⟩ | ⟨-, hnot, -⟩
      · rw [hsweep]
        exact .inl rfl
      · rw [not_draining_of_planning hplanning] at hdraining
        cases hdraining
      · exact .inr ⟨_, hdrained⟩
      · rw [hnot] at hdraining
        cases hdraining
  | dispatchCalls currentTick tickDurationMs =>
    left
    simp only [SlotOp.run, RandomClient.dispatchCalls]
    split <;> rfl
  | finishDrain =>
    simp only [SlotOp.run, RandomClient.finishDrain, hdraining, if_true]
    split
    · exact .inr ⟨_, rfl⟩
    · exact .inr ⟨_, rfl⟩
    · exact .inl rfl
  | _ =>
    rw [hidle (by simp) (by simp) (by simp) (by simp)]
    exact .inl rfl

theorem SlotOp.closing {op : SlotOp} (hshape : SlotShape stream slot) (h : slot.Closing)
    (hreset : op ≠ .reset) : (op.run cfg slot).slot.Closing := by
  rcases h with hdraining | hdrained
  · rcases @SlotOp.draining_state cfg slot op hdraining hreset with hstate | ⟨outcome, hstate⟩
    · left
      rw [hstate]
      exact hdraining
    · right
      rw [hstate]
      rfl
  · have hstate : ∃ outcome, slot.state = .drained outcome := by
      cases hslot : slot.state <;> simp_all [SlotState.isDrained]
    rcases hstate with ⟨outcome, hstate⟩
    have hchain : slot.chain = none := by
      have hpresent := hshape.present
      rw [hstate] at hpresent
      simpa [SlotState.isPlanning, SlotState.isRestarting, SlotState.isDraining] using hpresent
    right
    rw [SlotOp.drained hstate hchain hreset]
    exact hdrained

/-- A terminal reveal that goes out found the other calls of its chain accepted. -/
theorem SlotShape.accepted_of_send (h : SlotShape stream slot) {chain : Chain}
    (hchain : slot.chain = some chain) {currentTick : Nat} {terminal : PlannedCall} {redundant : Bool}
    (hmem : terminal ∈ chain.calls) (hkind : terminal.kind = .terminalReveal)
    (hsend : dispatchOf (dispatchContext currentTick slot.state chain) terminal = .send redundant) :
    ∀ call ∈ chain.calls, chain.firstTarget ≤ call.targetTick → call.kind ≠ .terminalReveal →
      call.state = .accepted := by
  have hall := (dispatchOf_send hsend).2.2.1 hkind
  have hqueue := queue_of_chain hchain
  cases hslot : slot.state with
  | draining reason target =>
    rcases h.draining reason target hslot with
      ⟨chain', normal, last, hchain', -, hcalls, -, hlast, -⟩
    obtain rfl := Option.some.inj (hchain.symm.trans hchain')
    have hincreasing := h.increasing
    rw [hqueue, hcalls, List.map_append, List.pairwise_append] at hincreasing
    simp only [dispatchContext, hslot, terminalReady, List.all_eq_true, decide_eq_true_eq] at hall
    intro call hcall hfirst hnormal
    rcases hall call hcall with hlt | hterminal | hlt | haccepted
    · omega
    · exact absurd hterminal hnormal
    · -- no call lies beyond the terminal reveal
      rw [hcalls] at hcall
      rcases List.mem_append.1 hcall with hcall | hcall
      · have hbelow := hincreasing.2.2 _ (List.mem_map_of_mem hcall) _
          (List.mem_map_of_mem (List.mem_singleton_self last))
        omega
      · rw [List.mem_singleton.1 hcall] at hlt
        omega
    · exact haccepted
  | _ =>
    have hnormal := h.normal (by rw [hslot]; rfl) terminal (by rw [hqueue]; exact hmem)
    exact absurd hkind hnormal

/-- Every operation keeps the other calls accepted once the terminal reveal went out. -/
theorem SlotOp.terminalCleared {op : SlotOp} (h : slot.TerminalCleared)
    (hshape : SlotShape stream slot) (htask : ∀ call ∈ slot.queue, call.TaskOk)
    (hregular : ∀ chain, slot.chain = some chain → chain.Regular)
    (hafter : SlotShape stream (op.run cfg slot).slot) : (op.run cfg slot).slot.TerminalCleared := by
  cases hdraining : (op.run cfg slot).slot.state.isDraining with
  | false => exact .of_normal (hafter.normal hdraining)
  | true =>
    cases hbefore : slot.state.isDraining with
    | false =>
      -- the terminal reveal was signed just now
      have hnormal := hshape.normal hbefore
      intro chain terminal hchain hmem hkind hstate
      rw [← queue_of_chain hchain] at hmem
      rcases op.queueAfter slot terminal hmem with ⟨call, hcall, hswept⟩ | ⟨signed, -, rfl⟩
      · exact absurd (hswept.keeps.kind.symm.trans hkind) (hnormal call hcall)
      · exact absurd rfl hstate
    | true =>
      have hidle := @SlotOp.draining_idle cfg slot op hbefore
      cases op with
      | reset => cases hdraining
      | harvestBroadcasts results =>
        show (RandomClient.harvestBroadcasts results slot).slot.TerminalCleared
        unfold RandomClient.harvestBroadcasts
        split
        · exact h
        · rename_i chain hchain
          refine h.sweep hchain (harvestCall_keeps _ results) ?_ ?_
          · intro call haccepted
            exact harvestCall_accepted.2 (.inl haccepted)
          · intro terminal hmem _ hwakes
            left
            intro hready
            -- a waiting call has no task to join
            have hnone : terminal.broadcast = none := by
              by_contra hsome
              rw [← queue_of_chain hchain] at hmem
              rcases htask terminal hmem (Option.isSome_iff_ne_none.2 hsome) with hstate | hstate <;>
                simp [hready] at hstate
            apply hwakes
            simp [harvestCall, harvestOf, hnone, hready]
      | expireCalls currentTick =>
        cases hchain : slot.chain with
        | none =>
          simp only [SlotOp.run, RandomClient.expireCalls, hchain]
          exact h
        | some chain =>
          change (RandomClient.expireCalls currentTick slot).slot.state.isDraining = true at hdraining
          show (RandomClient.expireCalls currentTick slot).slot.TerminalCleared
          rcases expireCalls_cases currentTick hchain with ⟨hexpired, hsweep⟩ | ⟨hplanning, -⟩ |
            ⟨-, -, -, hdrained⟩ | ⟨-, hnot, -⟩
          · rw [hsweep]
            refine h.sweep hchain (expireCall_keeps currentTick chain.firstTarget) ?_ ?_
            · intro call haccepted
              exact expireCall_accepted.2 haccepted
            · intro terminal hmem hkind hwakes
              have hfirst := (hshape.terminal_target hchain (hregular chain hchain) hmem hkind).2
              rw [expireCall_terminal hexpired hmem hfirst] at hwakes
              exact .inl hwakes
          · rw [not_draining_of_planning hplanning] at hbefore
            cases hbefore
          · rw [hdrained] at hdraining
            cases hdraining
          · rw [hnot] at hbefore
            cases hbefore
      | dispatchCalls currentTick tickDurationMs =>
        show (RandomClient.dispatchCalls currentTick tickDurationMs slot).slot.TerminalCleared
        unfold RandomClient.dispatchCalls
        split
        · exact h
        · rename_i chain hchain
          refine h.sweep hchain (dispatchCall_keeps _ tickDurationMs) ?_ ?_
          · intro call haccepted
            exact dispatchCall_accepted.2 haccepted
          · intro terminal hmem hkind hwakes
            by_cases hready : terminal.state = .ready
            · right
              unfold dispatchCall at hwakes
              split at hwakes
              · exact absurd hready hwakes
              · rename_i hfail
                have hretry := (dispatchOf_failTerminal hfail).2.2
                simp [hready] at hretry
              · exact absurd hready hwakes
              · exact hshape.accepted_of_send hchain hmem hkind ‹_›
            · exact .inl hready
      | finishDrain =>
        show (RandomClient.finishDrain slot).slot.TerminalCleared
        unfold RandomClient.finishDrain
        dsimp only
        repeat' split
        all_goals first | exact h | exact .of_normal (by rintro _ ⟨⟩)
      | _ =>
        rw [hidle (by simp) (by simp) (by simp) (by simp) (by simp)]
        exact h

/-- A slot that neither plans nor drains comes at risk by a first commit only. -/
theorem SlotOp.starts_of_atRisk {op : SlotOp} (hplanning : slot.state.isPlanning = false)
    (hdraining : slot.state.isDraining = false) (h : (op.run cfg slot).slot.AtRisk) :
    ∃ call, Effect.signed call ∈ (op.run cfg slot).effects ∧ call.kind = .firstCommit := by
  have hstill : ∀ slot' : ManagedSlot, slot'.state = slot.state → ¬ slot'.AtRisk := by
    intro slot' hsame
    apply ManagedSlot.not_atRisk <;> rw [hsame] <;> assumption
  cases op with
  | startIfReady env currentTick =>
    simp only [SlotOp.run, RandomClient.startIfReady] at h ⊢
    split at h
    · rename_i hready
      rw [if_pos hready]
      split at h
      · exact absurd h (hstill _ rfl)
      · rename_i lead hlead
        split at h
        · exact absurd h (hstill _ rfl)
        · rename_i target htarget
          split at h
          · exact absurd h (hstill _ rfl)
          · exact ⟨_, List.mem_singleton_self _, rfl⟩
    · exact absurd h (hstill _ rfl)
  | extendChain env currentTick =>
    have hsame : (RandomClient.extendChain cfg env currentTick slot).slot = slot := by
      simp [RandomClient.extendChain, hplanning]
    exact absurd h (hstill _ (by rw [SlotOp.run, hsame]))
  | reset => exact absurd h (ManagedSlot.not_atRisk rfl rfl)
  | harvestBroadcasts results => exact absurd h (hstill _ (harvestBroadcasts_state results slot))
  | applyStatus observation =>
    refine absurd h (ManagedSlot.not_atRisk (applyStatus_not_planning observation hplanning) ?_)
    cases hslot : slot.state <;>
      simp_all [SlotOp.run, RandomClient.applyStatus, SlotState.isDraining, SlotState.isPlanning]
  | enterDrain env reason =>
    refine absurd h (ManagedSlot.not_atRisk ?_ ?_)
    all_goals
      cases hslot : slot.state <;>
        simp_all [SlotOp.run, RandomClient.enterDrain, SlotState.isDraining, SlotState.isPlanning]
  | expireCalls currentTick =>
    cases hchain : slot.chain with
    | none =>
      simp only [SlotOp.run, RandomClient.expireCalls, hchain] at h
      exact absurd h (hstill _ rfl)
    | some chain =>
      change (RandomClient.expireCalls currentTick slot).slot.AtRisk at h
      rcases expireCalls_cases currentTick hchain with ⟨-, hsweep⟩ | ⟨hplan, -⟩ |
        ⟨hdrain, -⟩ | ⟨-, -, -, hsame⟩
      · rw [hsweep] at h
        exact absurd h (hstill _ rfl)
      · rw [hplan] at hplanning
        cases hplanning
      · rw [hdrain] at hdraining
        cases hdraining
      · exact absurd h (hstill _ hsame)
  | dispatchCalls currentTick tickDurationMs =>
    refine absurd h (hstill _ ?_)
    simp only [SlotOp.run, RandomClient.dispatchCalls]
    split <;> rfl
  | finishDrain =>
    refine absurd h (hstill _ ?_)
    simp [SlotOp.run, RandomClient.finishDrain, hdraining]
  | finishStatusRestart currentTick =>
    refine absurd h (ManagedSlot.not_atRisk ?_ ?_)
    all_goals
      simp only [SlotOp.run, RandomClient.finishStatusRestart]
      split
      · rename_i hslot
        split
        · first | exact hplanning | exact hdraining
        · split <;> rfl
      · first | exact hplanning | exact hdraining
  | pruneCalls currentTick =>
    refine absurd h (hstill _ ?_)
    simp only [SlotOp.run, RandomClient.pruneCalls]
    repeat' split
    all_goals rfl

/-- A terminal reveal that failed never brings its slot back at risk. -/
theorem SlotOp.stays_failed {op : SlotOp} (hshape : SlotShape stream slot)
    (htask : ∀ call ∈ slot.queue, call.TaskOk)
    (hregular : ∀ chain, slot.chain = some chain → chain.Regular)
    (hdraining : slot.state.isDraining = true) {call : PlannedCall} (hmem : call ∈ slot.queue)
    (hkind : call.kind = .terminalReveal) (hfailed : call.state = .failed) :
    ¬ (op.run cfg slot).slot.AtRisk := by
  have hswept : ∀ f : PlannedCall → PlannedCall, (∀ c : PlannedCall, c.Keeps (f c)) →
      (f call).state = .failed → ∀ chain, slot.chain = some chain →
        ¬ ManagedSlot.AtRisk { slot with chain := some { chain with
          calls := chain.calls.map f } } := by
    intro f hkeeps hstate chain hchain
    rw [queue_of_chain hchain] at hmem
    exact ManagedSlot.not_atRisk_of_failed hdraining (List.mem_map_of_mem hmem)
      ((hkeeps call).kind.trans hkind) hstate
  have hidle := @SlotOp.draining_idle cfg slot op hdraining
  have hstays : ¬ slot.AtRisk := ManagedSlot.not_atRisk_of_failed hdraining hmem hkind hfailed
  cases op with
  | reset => exact ManagedSlot.not_atRisk rfl rfl
  | harvestBroadcasts results =>
    show ¬ (RandomClient.harvestBroadcasts results slot).slot.AtRisk
    unfold RandomClient.harvestBroadcasts
    split
    · exact hstays
    · exact hswept _ (harvestCall_keeps _ results) (harvestCall_failed (htask call hmem) hfailed)
        _ ‹_›
  | expireCalls currentTick =>
    cases hchain : slot.chain with
    | none =>
      simp only [SlotOp.run, RandomClient.expireCalls, hchain]
      exact hstays
    | some chain =>
      show ¬ (RandomClient.expireCalls currentTick slot).slot.AtRisk
      rcases expireCalls_cases currentTick hchain with ⟨hexpired, hsweep⟩ | ⟨-, -, -, hlost⟩ |
        ⟨-, -, -, hdrained⟩ | ⟨-, hnot, -⟩
      · rw [hsweep]
        have hcall := hmem
        rw [queue_of_chain hchain] at hcall
        have hfirst := (hshape.terminal_target hchain (hregular chain hchain) hcall hkind).2
        refine hswept _ (expireCall_keeps currentTick chain.firstTarget) ?_ chain hchain
        rw [expireCall_terminal hexpired hcall hfirst]
        exact hfailed
      · exact hlost
      · apply ManagedSlot.not_atRisk <;> rw [hdrained] <;> rfl
      · rw [hnot] at hdraining
        cases hdraining
  | dispatchCalls currentTick tickDurationMs =>
    show ¬ (RandomClient.dispatchCalls currentTick tickDurationMs slot).slot.AtRisk
    unfold RandomClient.dispatchCalls
    split
    · exact hstays
    · exact hswept _ (dispatchCall_keeps _ tickDurationMs) (dispatchCall_failed hfailed) _ ‹_›
  | finishDrain =>
    show ¬ (RandomClient.finishDrain slot).slot.AtRisk
    unfold RandomClient.finishDrain
    dsimp only
    repeat' split
    all_goals first | exact hstays | exact ManagedSlot.not_atRisk rfl rfl
  | _ =>
    rw [hidle (by simp) (by simp) (by simp) (by simp) (by simp)]
    exact hstays

/-- Only a first commit puts a slot at risk. -/
theorem SlotOp.atRisk_before {op : SlotOp} (hshape : SlotShape stream slot)
    (htask : ∀ call ∈ slot.queue, call.TaskOk)
    (hregular : ∀ chain, slot.chain = some chain → chain.Regular)
    (h : (op.run cfg slot).slot.AtRisk) : slot.AtRisk ∨
      ∃ call, Effect.signed call ∈ (op.run cfg slot).effects ∧ call.kind = .firstCommit := by
  cases hplanning : slot.state.isPlanning with
  | true => exact .inl (.inl hplanning)
  | false =>
    cases hdraining : slot.state.isDraining with
    | false => exact .inr (SlotOp.starts_of_atRisk hplanning hdraining h)
    | true =>
      left
      right
      refine ⟨hdraining, ?_⟩
      intro call hmem hkind hfailed
      exact SlotOp.stays_failed hshape htask hregular hdraining hmem hkind hfailed h

end Terminal

/-! ## What each operation loses -/

section Loses

variable {stream : Nat} {slot : ManagedSlot}

theorem failures_flatMap {f : PlannedCall → List Effect}
    (h : ∀ call target, Effect.financialFailure target ∉ f call) (calls : List PlannedCall) :
    failures (calls.flatMap f) = [] := by
  apply failures_eq_nil
  intro target hmem
  rcases List.mem_flatMap.1 hmem with ⟨call, -, hcall⟩
  exact h call target hcall

/-- A harvest loses the terminal reveal of a shutdown whose attempt failed. -/
theorem harvestBroadcasts_loses (hshape : SlotShape stream slot)
    (htask : ∀ call ∈ slot.queue, call.TaskOk) (results : Nat → Option Delivery) :
    Loses slot none (harvestBroadcasts results slot).slot (harvestBroadcasts results slot).effects := by
  unfold harvestBroadcasts
  cases hchain : slot.chain with
  | none => exact .nothing rfl
  | some chain =>
    have hqueue := queue_of_chain hchain
    have hok : ∀ targets : List Nat, failures (targets.map Effect.recordedOk) = [] := by
      intro targets
      apply failures_eq_nil
      intro target hmem
      rcases List.mem_map.1 hmem with ⟨_, -, heq⟩
      cases heq
    have hjoined : failures (chain.calls.flatMap
        (harvestEffects slot.state.isShutdownDrain results)) = [] := by
      apply failures_flatMap
      intro call target hmem
      unfold harvestEffects at hmem
      split at hmem <;> simp at hmem
    have hfailed : ∀ call : PlannedCall,
        decide (harvestOf slot.state.isShutdownDrain results call = .failedTerminal) = true →
          call.kind = .terminalReveal := by
      intro call hcall
      exact (harvestOf_failedTerminal (of_decide_eq_true hcall)).2
    rcases hshape.terminal_filter hfailed with hnone | ⟨terminal, hone, hdraining, hmem, hterminal, hunique⟩
    · rw [hqueue] at hnone
      apply Loses.nothing
      simp only [failures_append, hjoined, hok, failedTerminalTargets, hnone, List.map_nil,
        List.nil_append]
      rfl
    · have hharvest := of_decide_eq_true hterminal
      have hbroadcasting := harvestOf_broadcasting (htask terminal hmem)
        (by rw [hharvest]; simp) (by rw [hharvest]; simp)
      have hkind := hfailed terminal hterminal
      refine @Loses.target _ _ _ _ terminal.targetTick ?_ ?_ ?_ ?_
      · rw [hqueue] at hone
        simp only [failures_append, hjoined, hok, failedTerminalTargets, hone, List.map_cons,
          List.map_nil, List.nil_append]
        rfl
      · right
        refine ⟨hdraining, ?_⟩
        intro call hcall hcallKind
        rw [hunique call hcall hcallKind, hbroadcasting]
        simp
      · rw [hqueue] at hmem
        refine ManagedSlot.not_atRisk_of_failed hdraining (List.mem_map_of_mem hmem)
          (((harvestCall_keeps _ results) terminal).kind.trans hkind) ?_
        simp [harvestCall, hharvest]
      · rw [hqueue] at hmem
        exact .terminal hdraining hchain hmem hkind rfl (by rw [hbroadcasting]; simp)
          (.inl hdraining)

/-- A dispatch loses the terminal reveal it gives up. -/
theorem dispatchCalls_loses (hshape : SlotShape stream slot) (currentTick tickDurationMs : Nat) :
    Loses slot (some currentTick) (dispatchCalls currentTick tickDurationMs slot).slot
      (dispatchCalls currentTick tickDurationMs slot).effects := by
  unfold dispatchCalls
  cases hchain : slot.chain with
  | none => exact .nothing rfl
  | some chain =>
    have hqueue := queue_of_chain hchain
    dsimp only
    generalize hctx : dispatchContext currentTick slot.state chain = ctx
    have hsent : failures (chain.calls.flatMap (dispatchEffects ctx tickDurationMs)) = [] := by
      apply failures_flatMap
      intro call target hmem
      rcases mem_dispatchEffects (List.mem_flatMap.2 ⟨call, List.mem_singleton_self _, hmem⟩) with
        ⟨_, _, _, -, heq | heq⟩ <;> cases heq
    have hfailed : ∀ call : PlannedCall, decide (dispatchOf ctx call = .failTerminal) = true →
        call.kind = .terminalReveal := by
      intro call hcall
      exact (dispatchOf_failTerminal (of_decide_eq_true hcall)).1
    rcases hshape.terminal_filter hfailed with hnone | ⟨terminal, hone, hdraining, hmem, hterminal, hunique⟩
    · apply Loses.nothing
      rw [failures_append, hsent, List.nil_append]
      refine (failures_option _).trans ?_
      rw [failedTerminalTarget, ← hqueue, hnone]
      rfl
    · have hfail := of_decide_eq_true hterminal
      obtain ⟨hkind, _, hretry⟩ := dispatchOf_failTerminal hfail
      refine @Loses.target _ _ _ _ terminal.targetTick ?_ ?_ ?_ ?_
      · rw [failures_append, hsent, List.nil_append]
        refine (failures_option _).trans ?_
        rw [failedTerminalTarget, ← hqueue, hone]
        rfl
      · right
        refine ⟨hdraining, ?_⟩
        intro call hcall hcallKind
        rw [hunique call hcall hcallKind, hretry]
        simp
      · rw [hqueue] at hmem
        refine ManagedSlot.not_atRisk_of_failed hdraining (List.mem_map_of_mem hmem)
          (((dispatchCall_keeps ctx tickDurationMs) terminal).kind.trans hkind) ?_
        simp [dispatchCall, hfail]
      · rw [hqueue] at hmem
        exact .terminal hdraining hchain hmem hkind rfl (by rw [hretry]; simp) (.inl hdraining)

/-- An expiry loses a reveal of the current chain or a terminal reveal that was sent. -/
theorem expireCalls_loses (hshape : SlotShape stream slot) (hcleared : slot.TerminalCleared)
    (tick : Option Nat) (currentTick : Nat) :
    Loses slot tick (expireCalls currentTick slot).slot (expireCalls currentTick slot).effects := by
  cases hchain : slot.chain with
  | none =>
    simp only [expireCalls, hchain]
    exact .nothing rfl
  | some chain =>
    have hqueue := queue_of_chain hchain
    have hnormal : ∀ target, firstExpiredNormal
        (expiredCalls currentTick chain.firstTarget chain.calls) = some target →
          ∃ call ∈ chain.calls, call.kind = .revealAndCommit ∧ call.targetTick = target ∧
            chain.firstTarget ≤ target ∧ call.state ≠ .accepted := by
      intro target hfirst
      rcases Option.map_eq_some_iff.1 hfirst with ⟨call, hfind, rfl⟩
      have hkind := List.find?_some hfind
      rcases List.mem_filter.1 (List.mem_of_find?_eq_some hfind) with ⟨hmem, hexpiry⟩
      have hexpired := of_decide_eq_true hexpiry
      exact ⟨call, hmem, of_decide_eq_true hkind, rfl, expiryOf_expired hexpired,
        (expiryOf_undelivered (.inr hexpired)).2.1⟩
    rcases expireCalls_cases currentTick hchain with ⟨-, hsweep⟩ | ⟨hplanning, hfailures, -, hlost⟩ |
      ⟨hdraining, hfailures, -, hdrained⟩ | ⟨-, -, hfailures, -⟩
    · rw [hsweep]
      exact .nothing (failures_abortCalls _)
    · cases hfirst : firstExpiredNormal
        (expiredCalls currentTick chain.firstTarget chain.calls) with
      | none =>
        rw [hfirst] at hfailures
        exact .nothing hfailures
      | some target =>
        rw [hfirst] at hfailures
        rcases hnormal target hfirst with ⟨call, hmem, hkind, htarget, hle, -⟩
        exact .target hfailures (.inl hplanning) hlost (.expired hchain hmem hkind htarget hle)
    · have hafter : ¬ (expireCalls currentTick slot).slot.AtRisk := by
        apply ManagedSlot.not_atRisk <;> rw [hdrained] <;> rfl
      have hclosing : (expireCalls currentTick slot).slot.Closing := by
        right
        rw [hdrained]
        rfl
      cases hfirst : firstExpiredNormal
        (expiredCalls currentTick chain.firstTarget chain.calls) with
      | some target =>
        rw [hfirst] at hfailures
        rcases hnormal target hfirst with ⟨call, hmem, hkind, htarget, hle, hundelivered⟩
        refine .target hfailures (.inr ⟨hdraining, ?_⟩) hafter
          (.expired hchain hmem hkind htarget hle)
        -- a failed terminal reveal was sent, after this call had been accepted
        intro terminal hterminal hterminalKind hfailed
        rw [hqueue] at hterminal
        apply hundelivered
        refine hcleared chain terminal hchain hterminal hterminalKind ?_ call hmem ?_ ?_
        · rw [hfailed]
          simp
        · rw [htarget]
          exact hle
        · rw [hkind]
          simp
      | none =>
        rw [hfirst, Option.none_or] at hfailures
        cases hattempted : attemptedTerminal
          (expiredCalls currentTick chain.firstTarget chain.calls) with
        | none =>
          rw [hattempted] at hfailures
          exact .nothing hfailures
        | some target =>
          rw [hattempted] at hfailures
          rcases Option.map_eq_some_iff.1 hattempted with ⟨terminal, hlast, rfl⟩
          rcases List.mem_filter.1 (List.mem_of_getLast? hlast) with ⟨hexpired, hsent⟩
          obtain ⟨hkind, hstate⟩ := of_decide_eq_true hsent
          have hmem := (List.mem_filter.1 hexpired).1
          rcases hshape.terminal_filter (p := fun call => call.kind = .terminalReveal)
              (fun call hcall => of_decide_eq_true hcall) with hnone | ⟨other, -, -, -, -, hunique⟩
          · rw [hqueue, List.filter_eq_nil_iff] at hnone
            exact absurd (decide_eq_true hkind) (hnone terminal hmem)
          · rw [hqueue] at hunique
            refine .target hfailures (.inr ⟨hdraining, ?_⟩) hafter
              (.terminal hdraining hchain hmem hkind rfl ?_ hclosing)
            · intro call hcall hcallKind
              rw [hqueue] at hcall
              rw [hunique call hcall hcallKind, ← hunique terminal hmem hkind]
              rcases hstate with hstate | hstate <;> rw [hstate] <;> simp
            · rcases hstate with hstate | hstate <;> rw [hstate] <;> simp
    · exact .nothing hfailures

/-- The target an expiry marks is that of an expired call of the current chain. -/
theorem expireCalls_failure {currentTick target : Nat}
    (h : Effect.financialFailure target ∈ (expireCalls currentTick slot).effects) :
    ∃ chain call, slot.chain = some chain ∧ call ∈ chain.calls ∧ call.targetTick = target ∧
      expiryOf currentTick chain.firstTarget call = .expired ∧ chain.firstTarget ≤ target := by
  cases hchain : slot.chain with
  | none =>
    simp only [expireCalls, hchain] at h
    cases h
  | some chain =>
    have hexpired : ∀ call ∈ expiredCalls currentTick chain.firstTarget chain.calls,
        call.targetTick = target → ∃ chain' call, some chain = some chain' ∧ call ∈ chain'.calls ∧
          call.targetTick = target ∧ expiryOf currentTick chain'.firstTarget call = .expired ∧
            chain'.firstTarget ≤ target := by
      rintro call hmem rfl
      rcases List.mem_filter.1 hmem with ⟨hmem, hexpiry⟩
      have hexpiry := of_decide_eq_true hexpiry
      exact ⟨chain, call, rfl, hmem, rfl, hexpiry, expiryOf_expired hexpiry⟩
    have hnormal : firstExpiredNormal (expiredCalls currentTick chain.firstTarget chain.calls) =
        some target → ∃ chain' call, some chain = some chain' ∧ call ∈ chain'.calls ∧
          call.targetTick = target ∧ expiryOf currentTick chain'.firstTarget call = .expired ∧
            chain'.firstTarget ≤ target := by
      intro hfirst
      rcases Option.map_eq_some_iff.1 hfirst with ⟨call, hfind, htarget⟩
      exact hexpired call (List.mem_of_find?_eq_some hfind) htarget
    have hmem := mem_failures.2 h
    rcases expireCalls_cases currentTick hchain with ⟨-, hsweep⟩ | ⟨-, hfailures, -⟩ |
      ⟨-, hfailures, -⟩ | ⟨-, -, hfailures, -⟩
    · rw [hsweep] at hmem
      change target ∈ failures (abortCalls _) at hmem
      rw [failures_abortCalls] at hmem
      cases hmem
    · rw [hfailures, Option.mem_toList] at hmem
      exact hnormal hmem
    · rw [hfailures, Option.mem_toList, Option.or_eq_some_iff] at hmem
      rcases hmem with hfirst | ⟨-, hattempted⟩
      · exact hnormal hfirst
      · rcases Option.map_eq_some_iff.1 hattempted with ⟨call, hlast, htarget⟩
        exact hexpired call (List.mem_filter.1 (List.mem_of_getLast? hlast)).1 htarget
    · rw [hfailures] at hmem
      cases hmem

theorem beginStatusRestart_loses (after : Nat) (observed : Bool) (slot : ManagedSlot)
    (hchain : slot.chain.isSome) : failures (beginStatusRestart after observed slot).effects = [] ∧
      ¬ (beginStatusRestart after observed slot).slot.AtRisk := by
  unfold beginStatusRestart
  split
  · rename_i hnone
    rw [hnone] at hchain
    cases hchain
  · split
    · refine ⟨?_, ManagedSlot.not_atRisk rfl rfl⟩
      rw [failures_append, failures_abortChain]
      rfl
    · exact ⟨rfl, ManagedSlot.not_atRisk rfl rfl⟩

/-- Evidence costs a target when it freezes the chain and names one. -/
theorem observeStatusEvidence_loses {evidence : StatusEvidence} {requestedTick : Nat} :
    failures (observeStatusEvidence evidence requestedTick slot).effects = [] ∨
      ∃ chain target, slot.chain = some chain ∧ financialFailureTarget chain evidence = some target ∧
        failures (observeStatusEvidence evidence requestedTick slot).effects = [target] ∧
        ¬ (observeStatusEvidence evidence requestedTick slot).slot.AtRisk := by
  unfold observeStatusEvidence
  cases hchain : slot.chain with
  | none => exact .inl rfl
  | some chain =>
    dsimp only
    cases hstale : isStale chain.statusSuspicion requestedTick with
    | true =>
      rw [if_pos rfl]
      exact .inl rfl
    | false =>
      rw [if_neg (by decide)]
      have hevidence := (suspicionAfter_evidence chain.statusSuspicion evidence hstale).1
      generalize suspicionAfter chain.statusSuspicion evidence requestedTick = suspicion at hevidence
      split
      · rw [hevidence]
        have ⟨hnone, hlost⟩ := beginStatusRestart_loses (confirmedBoundary suspicion).1
          (confirmedBoundary suspicion).2
          { slot with chain := some { chain with statusSuspicion := some suspicion } } rfl
        cases htarget : financialFailureTarget chain evidence with
        | none =>
          left
          simp only [failures_append, hnone, List.append_nil]
          rfl
        | some target =>
          right
          refine ⟨chain, target, rfl, htarget, ?_, hlost⟩
          simp only [failures_append, hnone, List.append_nil]
          rfl
      · exact .inl rfl

/-- A freeze on foreign evidence marks no target. -/
theorem observeStatusEvidence_foreign (lastUpdateTick requestedTick : Nat) :
    failures (observeStatusEvidence (.foreign lastUpdateTick) requestedTick slot).effects = [] := by
  rcases @observeStatusEvidence_loses slot (.foreign lastUpdateTick) requestedTick with
    hnone | ⟨chain, target, -, htarget, -⟩
  · exact hnone
  · cases htarget

/-- The target an absence blames: the one after the watermark. -/
theorem financialFailureTarget_absent {chain : Chain} {target : Nat}
    (h : financialFailureTarget chain .absent = some target) :
    ∃ confirmed, chain.confirmedThrough = some confirmed ∧ target = confirmed + streamCount ∧
      chain.firstTarget < target ∧ target ≤ chain.lastTarget := by
  simp only [financialFailureTarget, Option.bind_eq_bind, Option.bind_eq_some_iff] at h
  rcases h with ⟨confirmed, hconfirmed, target', hsum, hbounds⟩
  have hnext := (Bounded.checkedAdd_eq_some.1 hsum).1
  split at hbounds
  · rename_i hinside
    rw [← Option.some.inj hbounds]
    exact ⟨confirmed, hconfirmed, hnext.symm, hinside⟩
  · cases hbounds

theorem financialFailureTarget_lag {chain : Chain} {missing target : Nat}
    (h : financialFailureTarget chain (.lag missing) = some target) :
    target = missing ∧ chain.firstTarget < target ∧ target ≤ chain.lastTarget := by
  simp only [financialFailureTarget, Option.bind_eq_bind, Option.bind_some] at h
  split at h
  · cases h
    exact ⟨rfl, ‹_›⟩
  · cases h

/-- The target three ticks after an owned one is owned, up to the last. -/
theorem Chain.ownsTarget_next {chain : Chain} {confirmed : Nat}
    (h : chain.ownsTarget confirmed = true) (hle : confirmed + streamCount ≤ chain.lastTarget) :
    chain.ownsTarget (confirmed + streamCount) = true := by
  rcases Chain.ownsTarget_iff.1 h with ⟨hfirst, -, hmod⟩
  refine Chain.ownsTarget_iff.2 ⟨?_, hle, ?_⟩
  · omega
  · simp only [streamCount] at hmod ⊢
    omega

/-- The missing target of a lag is the one after the confirmed tick. -/
theorem Chain.acknowledge_missing {chain chain' : Chain} {confirmedTick requestedTick missing : Nat}
    (h : chain.acknowledge confirmedTick requestedTick = .missing chain' missing) :
    missing = confirmedTick + streamCount := by
  unfold Chain.acknowledge at h
  split at h
  · cases h
  · dsimp only at h
    split at h
    · cases h
    · unfold Chain.acknowledgeDue at h
      split at h
      · cases h
      · split at h
        · cases h
        · split at h
          · cases h
          · rename_i hsum
            cases h
            exact (Bounded.checkedAdd_eq_some.1 hsum).1.symm

/-- A status observation loses a target of the chain: the one after the
watermark. Foreign evidence loses none. -/
theorem applyStatus_loses (hmark : MarkOwned slot) (observation : StatusObservation) :
    Loses slot none (applyStatus observation slot).slot (applyStatus observation slot).effects := by
  have habsent : slot.state.isPlanning = true → Loses slot none
      (observeStatusEvidence .absent observation.requestedTick slot).slot
      (observeStatusEvidence .absent observation.requestedTick slot).effects := by
    intro hplanning
    rcases @observeStatusEvidence_loses slot .absent observation.requestedTick with
      hnone | ⟨chain, target, hchain, htarget, hfailures, hlost⟩
    · exact .nothing hnone
    · rcases financialFailureTarget_absent htarget with ⟨confirmed, hconfirmed, rfl, hfirst, hle⟩
      have howns := hmark chain confirmed hchain hconfirmed
      exact .target hfailures (.inl hplanning) hlost
        (.evidence hplanning hchain hfirst (Chain.ownsTarget_next howns hle))
  have hforeign : ∀ tick, Loses slot none
      (observeStatusEvidence (.foreign tick) observation.requestedTick slot).slot
      (observeStatusEvidence (.foreign tick) observation.requestedTick slot).effects :=
    fun tick => .nothing (observeStatusEvidence_foreign tick _)
  have howned : ∀ (confirmedTick : Nat) (slot' : ManagedSlot), slot.state.isPlanning = true →
      slot'.chain = slot.chain → chainOwnsTarget slot confirmedTick = true → Loses slot none
        (applyConfirmationWatermark confirmedTick observation.requestedTick slot').slot
        (applyConfirmationWatermark confirmedTick observation.requestedTick slot').effects := by
    intro confirmedTick slot' hplanning hsame howns
    unfold applyConfirmationWatermark
    cases hchain : slot.chain with
    | none =>
      rw [hsame, hchain]
      exact .nothing rfl
    | some chain =>
      rw [hsame, hchain]
      dsimp only
      cases hack : chain.acknowledge confirmedTick observation.requestedTick with
      | ignored => exact .nothing rfl
      | settled chain' => exact .nothing rfl
      | missing chain' missing =>
        rcases Chain.acknowledge_chain (.inr ⟨missing, hack⟩) with ⟨_, _, rfl⟩
        simp only [applyAcknowledgement]
        rcases @observeStatusEvidence_loses { slot' with chain := some _ } (.lag missing)
          observation.requestedTick with hnone | ⟨chain', target, hchain', htarget, hfailures, hlost⟩
        · exact .nothing hnone
        · cases hchain'
          rcases financialFailureTarget_lag htarget with ⟨rfl, hfirst, hle⟩
          have hnext := Chain.acknowledge_missing hack
          rw [hnext] at hle
          have howns' : chain.ownsTarget confirmedTick = true := by
            simpa [chainOwnsTarget, hchain] using howns
          refine .target hfailures (.inl hplanning) hlost (.evidence hplanning hchain hfirst ?_)
          rw [hnext]
          exact Chain.ownsTarget_next howns' hle
  unfold applyStatus
  dsimp only
  cases hstate : slot.state with
  | draining _ _ | drained _ | waiting _ _ | restarting _ _ _ _ => exact .nothing rfl
  | starting _ =>
    have hplanning : slot.state.isPlanning = true := by
      rw [hstate]
      rfl
    dsimp only
    split
    · split
      · exact howned _ _ hplanning rfl ‹_›
      · split
        · exact hforeign _
        · exact .nothing rfl
    · split
      · exact habsent hplanning
      · exact .nothing rfl
  | active =>
    have hplanning : slot.state.isPlanning = true := by
      rw [hstate]
      rfl
    dsimp only
    split
    · split
      · exact howned _ _ hplanning rfl ‹_›
      · exact hforeign _
    · exact habsent hplanning

/-- Signing loses nothing. -/
theorem failures_of_emits {op : SlotOp} {u : List Effect} (h : ∀ e ∈ u, op.Emits cfg e) :
    failures u = [] := by
  apply failures_eq_nil
  intro target hmem
  cases h _ hmem

/-- The extension of a chain loses what expired, or the continuation it missed. -/
theorem extendChain_loses (hshape : SlotShape stream slot) (hcleared : slot.TerminalCleared)
    (env : SigningEnv) (currentTick : Nat) :
    Loses slot (some currentTick) (extendChain cfg env currentTick slot).slot
      (extendChain cfg env currentTick slot).effects := by
  unfold extendChain
  cases hplanning : slot.state.isPlanning with
  | false =>
    rw [if_neg (by decide)]
    exact .nothing rfl
  | true =>
    rw [if_pos rfl]
    cases hmissed : slot.chain.bind (missedTarget currentTick) with
    | some missed =>
      rcases Option.bind_eq_some_iff.1 hmissed with ⟨chain, hchain, hnext⟩
      rcases Option.filter_eq_some_iff.1 hnext with ⟨hsum, hcame⟩
      have hexpire := expireCalls_loses hshape hcleared (some currentTick) currentTick
      simp only [SlotResult.followedBy]
      cases hafter : (expireCalls currentTick slot).slot.state.isPlanning with
      | false =>
        -- what expired cost the slot its chain
        rw [if_neg (by decide), List.append_nil]
        exact hexpire
      | true =>
        rw [if_pos rfl]
        have hnone : failures (expireCalls currentTick slot).effects = [] := by
          cases hexpire with
          | nothing h => exact h
          | target _ _ hlost => exact absurd (.inl hafter) hlost
        have hfailures : ∀ u, failures u = [] → failures ((expireCalls currentTick slot).effects ++
            Effect.financialFailure missed :: u) = [missed] := by
          intro u hu
          rw [failures_append, hnone]
          show missed :: failures u = [missed]
          rw [hu]
        refine .target (hfailures _ (failures_loseChain _ _ _)) (.inl hplanning)
          (loseChain_not_atRisk _ _ _) ?_
        exact .missed hplanning hchain (Bounded.checkedAdd_eq_some.1 hsum).1.symm rfl
          (of_decide_eq_true hcame) (loseChain_chain _ _ _)
    | none =>
      dsimp only
      split
      · exact .nothing rfl
      · split
        · exact .nothing rfl
        · rename_i chain hchain
          apply Loses.nothing
          apply @failures_of_emits cfg (.extendChain env currentTick)
          intro e hmem
          exact extendLoop_emits hmem

theorem failures_finishDrain (slot : ManagedSlot) : failures (finishDrain slot).effects = [] := by
  unfold finishDrain
  dsimp only
  repeat' split
  all_goals first | rfl | exact failures_abortChain slot.chain

/-- Every operation marks no target, or one target of the chain, and then takes
the slot out of risk. -/
theorem SlotOp.loses {op : SlotOp} (hshape : SlotShape stream slot)
    (htask : ∀ call ∈ slot.queue, call.TaskOk) (hcleared : slot.TerminalCleared) :
    Loses slot op.tick (op.run cfg slot).slot (op.run cfg slot).effects := by
  cases op with
  | reset =>
    apply Loses.nothing
    show failures (abortChain slot.chain ++ [.reset]) = []
    rw [failures_append, failures_abortChain]
    rfl
  | harvestBroadcasts results => exact harvestBroadcasts_loses hshape htask results
  | applyStatus observation => exact applyStatus_loses hshape.watermark observation
  | enterDrain env reason =>
    exact .nothing (@failures_of_emits cfg (.enterDrain env reason) _ fun _ => enterDrain_emits)
  | startIfReady env currentTick =>
    exact .nothing (@failures_of_emits cfg (.startIfReady env currentTick) _ fun _ =>
      startIfReady_emits)
  | extendChain env currentTick => exact extendChain_loses hshape hcleared env currentTick
  | expireCalls currentTick => exact expireCalls_loses hshape hcleared _ currentTick
  | dispatchCalls currentTick tickDurationMs => exact dispatchCalls_loses hshape currentTick _
  | finishDrain => exact .nothing (failures_finishDrain slot)
  | finishStatusRestart currentTick =>
    apply Loses.nothing
    simp only [SlotOp.run, RandomClient.finishStatusRestart]
    split
    · split
      · rfl
      · exact failures_abortChain slot.chain
    · rfl
  | pruneCalls currentTick =>
    apply Loses.nothing
    simp only [SlotOp.run, RandomClient.pruneCalls]
    repeat' split
    all_goals rfl

/-- An operation that loses a target signs nothing. -/
theorem SlotOp.unsigned_of_failure {op : SlotOp} (h : failures (op.run cfg slot).effects ≠ [])
    (call : SignedCall) : Effect.signed call ∉ (op.run cfg slot).effects := by
  intro hmem
  rcases SlotOp.emits hmem with hnote | hemits
  · cases hnote
  · cases hemits with
    | closes => exact h (@failures_of_emits cfg (.enterDrain _ _) _ fun _ => enterDrain_emits)
    | starts => exact h (@failures_of_emits cfg (.startIfReady _ _) _ fun _ => startIfReady_emits)
    | @continues env currentTick _ hkind =>
      change Effect.signed call ∈ (RandomClient.extendChain cfg env currentTick slot).effects at hmem
      change failures (RandomClient.extendChain cfg env currentTick slot).effects ≠ [] at h
      unfold RandomClient.extendChain at h hmem
      split at hmem
      · rename_i hplanning
        rw [if_pos hplanning] at h
        split at hmem
        · -- a missed target: the expiry and the loss keep the books
          rcases List.mem_append.1 hmem with hmem | hmem
          · cases expireCalls_notes hmem
          · dsimp only at hmem
            split at hmem
            · rcases List.mem_cons.1 hmem with heq | hmem
              · cases heq
              · cases loseChain_notes hmem
            · cases hmem
        · rename_i hnext
          rw [hnext] at h
          split at hmem
          · cases hmem
          · rename_i horizon hhorizon
            dsimp only at h
            rw [hhorizon] at h
            split at hmem
            · cases hmem
            · rename_i chain hchain
              dsimp only at h
              rw [hchain] at h
              apply h
              apply @failures_of_emits cfg (.extendChain env currentTick)
              intro e he
              exact extendLoop_emits he
      · cases hmem

end Loses

end RandomClient
