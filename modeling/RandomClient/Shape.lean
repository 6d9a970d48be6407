import RandomClient.Freeze

/-!
# The shape of a slot

State, chain, restart tick and queue of a slot are separate fields that every
operation changes together. `SlotShape` is what they have in common in every
slot a run reaches. The internal error exits of the source stand where a slot
would break it: what is left of the errors of an operation are overflows of the
tick arithmetic and refusals of the wallet (`SlotOp.ExternalError`).
-/

namespace RandomClient

variable {cfg : Config}

/-- State, chain, restart tick and queue of a slot of the stream belong together. -/
structure SlotShape (stream : Nat) (slot : ManagedSlot) : Prop where
  /-- A chain is present exactly in Starting, Active, Restarting and Draining. -/
  present : slot.chain.isSome ↔ slot.state.isPlanning = true ∨ slot.state.isRestarting = true ∨
    slot.state.isDraining = true
  starting : ∀ first, slot.state = .starting first →
    ∃ chain, slot.chain = some chain ∧ first = chain.firstTarget
  restarting : ∀ tail after observed drain, slot.state = .restarting tail after observed drain →
    ∃ chain, slot.chain = some chain ∧ tail = chain.lastTarget ∧
      slot.restartAt = tail + streamCount
  draining : ∀ reason target, slot.state = .draining reason target →
    ∃ chain normal terminal, slot.chain = some chain ∧ target = chain.lastTarget + streamCount ∧
      chain.calls = normal ++ [terminal] ∧ terminal.kind = .terminalReveal ∧
      terminal.targetTick = target ∧ ∀ call ∈ normal, call.kind ≠ .terminalReveal
  /-- Outside Draining the queue holds no terminal reveal. -/
  normal : slot.state.isDraining = false → ∀ call ∈ slot.queue, call.kind ≠ .terminalReveal
  increasing : (slot.queue.map PlannedCall.targetTick).Pairwise (· < ·)
  stream : ∀ call ∈ slot.queue, call.targetTick % streamCount = stream
  watermark : ∀ chain confirmed, slot.chain = some chain →
    chain.confirmedThrough = some confirmed → chain.ownsTarget confirmed = true

/-! ## The terminal reveal in the queue -/

/-- A draining slot has its terminal reveal at the end of the queue; no other
slot has one. -/
def TerminalLast (slot : ManagedSlot) : Prop :=
  (∀ reason target, slot.state = .draining reason target → ∃ normal terminal,
    slot.queue = normal ++ [terminal] ∧ terminal.kind = .terminalReveal ∧
      terminal.targetTick = target ∧ ∀ call ∈ normal, call.kind ≠ .terminalReveal) ∧
  (slot.state.isDraining = false → ∀ call ∈ slot.queue, call.kind ≠ .terminalReveal)

theorem TerminalLast.of_none {slot : ManagedSlot} (hchain : slot.chain = none)
    (hstate : slot.state.isDraining = false) : TerminalLast slot := by
  constructor
  · intro reason target hdraining
    rw [hdraining] at hstate
    cases hstate
  · intro _ call hmem
    simp [ManagedSlot.queue, hchain] at hmem

/-- A change of the queue call by call that keeps what was signed. -/
theorem TerminalLast.map {slot slot' : ManagedSlot} (h : TerminalLast slot)
    {f : PlannedCall → PlannedCall} (hkeeps : ∀ call : PlannedCall, call.Keeps (f call))
    (hstate : slot'.state = slot.state) (hqueue : slot'.queue = slot.queue.map f) :
    TerminalLast slot' := by
  have hkinds : ∀ calls : List PlannedCall, (∀ call ∈ calls, call.kind ≠ .terminalReveal) →
      ∀ call ∈ calls.map f, call.kind ≠ .terminalReveal := by
    intro calls hcalls call hmem
    rcases List.mem_map.1 hmem with ⟨old, hold, rfl⟩
    rw [(hkeeps old).kind]
    exact hcalls old hold
  constructor
  · intro reason target hdraining
    rw [hstate] at hdraining
    rcases h.1 reason target hdraining with ⟨normal, terminal, hsplit, hkind, htarget, hnormal⟩
    refine ⟨normal.map f, f terminal, ?_, ?_, ?_, hkinds normal hnormal⟩
    · rw [hqueue, hsplit]
      simp
    · rw [(hkeeps terminal).kind, hkind]
    · rw [(hkeeps terminal).target, htarget]
  · intro hstill
    rw [hqueue]
    rw [hstate] at hstill
    exact hkinds _ (h.2 hstill)

/-- Outside Draining before and after: the calls left were there before, or are
not terminal. -/
theorem TerminalLast.of_normal {slot slot' : ManagedSlot} (h : TerminalLast slot)
    (hbefore : slot.state.isDraining = false) (hafter : slot'.state.isDraining = false)
    (hqueue : ∀ call ∈ slot'.queue, call ∈ slot.queue ∨ call.kind ≠ .terminalReveal) :
    TerminalLast slot' := by
  constructor
  · intro reason target hdraining
    rw [hdraining] at hafter
    cases hafter
  · intro _ call hmem
    rcases hqueue call hmem with hold | hkind
    · exact h.2 hbefore call hold
    · exact hkind

theorem not_draining_of_planning {state : SlotState} (h : state.isPlanning = true) :
    state.isDraining = false := by
  cases state <;> first | rfl | cases h

theorem not_draining_of_ready {state : SlotState} (h : state.readyToStart = true) :
    state.isDraining = false := by
  cases state <;> first | rfl | cases h

theorem SlotStep.terminalLast {slot slot' : ManagedSlot} {u : List Effect}
    (hstep : SlotStep cfg slot u slot') (h : TerminalLast slot) : TerminalLast slot' := by
  cases hstep with
  | note => exact h
  | reset => exact .of_none rfl rfl
  | start hready hcall =>
    refine h.of_normal (not_draining_of_ready hready) rfl ?_
    intro call hmem
    rcases List.mem_append.1 hmem with hmem | hmem
    · exact .inl hmem
    · rw [List.mem_singleton.1 hmem]
      right
      show _ ≠ CallKind.terminalReveal
      simp [SignedCall.planned, hcall.kind]
  | extend hstate hchain hcall =>
    have hnot := not_draining_of_planning hstate
    refine h.of_normal hnot hnot ?_
    intro call hmem
    rcases List.mem_append.1 hmem with hmem | hmem
    · rw [queue_of_chain hchain]
      exact .inl hmem
    · rw [List.mem_singleton.1 hmem]
      simp [SignedCall.planned, hcall.kind]
  | close hstate hchain hcall =>
    -- the queue had no terminal reveal, and gets this one
    constructor
    · intro reason target hdraining
      cases hdraining
      refine ⟨_, _, rfl, hcall.kind, rfl, ?_⟩
      have hnormal := h.2 (not_draining_of_planning hstate)
      rw [queue_of_chain hchain] at hnormal
      exact hnormal
    · intro hnot
      cases hnot
  | watch hstate hchain hnext =>
    have hqueue := queue_of_chain hchain
    refine h.of_normal (not_draining_of_planning hstate) ?_ ?_
    · rcases hnext with rfl | rfl
      · exact not_draining_of_planning hstate
      · rfl
    · intro call hmem
      rw [hqueue]
      exact .inl hmem
  | freeze hstate => exact h.of_normal (not_draining_of_planning hstate) rfl fun _ hmem => .inl hmem
  | exhaust => exact .of_none rfl rfl
  | wait hstate => exact h.of_normal (by rw [hstate]; rfl) rfl fun _ hmem => .inl hmem
  | hold hstate => exact h.of_normal (by rw [hstate]; rfl) rfl fun _ hmem => .inl hmem
  | harvest results hchain =>
    exact h.map (harvestCall_keeps _ results) rfl (by rw [queue_of_chain hchain]; rfl)
  | expire currentTick hchain =>
    exact h.map (expireCall_keeps currentTick _) rfl (by rw [queue_of_chain hchain]; rfl)
  | dispatch currentTick tickDurationMs hchain =>
    exact h.map (dispatchCall_keeps _ tickDurationMs) rfl (by rw [queue_of_chain hchain]; rfl)
  | prune currentTick hstate hchain =>
    refine h.of_normal hstate hstate ?_
    intro call hmem
    rw [queue_of_chain hchain]
    exact .inl (List.mem_filter.1 hmem).1
  | lose => exact .of_none rfl rfl
  | settle => exact .of_none rfl rfl
  | rest hstate => exact h.of_normal (by rw [hstate]; rfl) rfl fun _ hmem => .inl hmem
  | abandon => exact .of_none rfl rfl

theorem SlotRun.terminalLast {i : Fin 3} {slot : ManagedSlot} {t : List Effect}
    (h : SlotRun cfg (slot₀ cfg i) t slot) : TerminalLast slot :=
  h.invariant (fun slot _ => TerminalLast slot) (fun _ _ _ _ h hstep => hstep.terminalLast h)
    (t := []) (.of_none rfl rfl)

/-! ## The watermark -/

/-- The watermark, if set, is a target of the chain. -/
def MarkOwned (slot : ManagedSlot) : Prop :=
  ∀ chain confirmed, slot.chain = some chain → chain.confirmedThrough = some confirmed →
    chain.ownsTarget confirmed = true

theorem KeepsChain.markOwned {slot slot' : ManagedSlot} (h : KeepsChain slot slot')
    (hmark : MarkOwned slot) : MarkOwned slot' := by
  intro chain' confirmed hchain' hconfirmed
  rcases h chain' hchain' with ⟨chain, hchain, hkeeps, -⟩ | ⟨-, hfresh, -⟩
  · rw [hkeeps.confirmed] at hconfirmed
    exact hkeeps.ownsTarget (hmark chain confirmed hchain hconfirmed)
  · rw [hfresh.2.1] at hconfirmed
    cases hconfirmed

/-- Evidence against a chain leaves its watermark. -/
theorem observeStatusEvidence_markOwned {evidence : StatusEvidence} {requestedTick : Nat}
    {slot : ManagedSlot} (h : MarkOwned slot) :
    MarkOwned (observeStatusEvidence evidence requestedTick slot).slot := by
  intro chain' confirmed hchain' hconfirmed
  unfold observeStatusEvidence at hchain'
  split at hchain'
  · exact h chain' confirmed hchain' hconfirmed
  · rename_i chain hchain
    split at hchain'
    · exact h chain' confirmed hchain' hconfirmed
    · dsimp only at hchain'
      split at hchain'
      · cases beginStatusRestart_chain hchain'
        exact h chain confirmed hchain hconfirmed
      · cases hchain'
        exact h chain confirmed hchain hconfirmed

theorem Chain.acknowledge_confirmed {confirmedTick requestedTick : Nat} {chain chain' : Chain}
    (h : chain.acknowledge confirmedTick requestedTick = .settled chain' ∨
      ∃ target, chain.acknowledge confirmedTick requestedTick = .missing chain' target) :
    chain'.confirmedThrough = some confirmedTick := by
  unfold Chain.acknowledge at h
  split at h
  · rcases h with h | ⟨_, h⟩ <;> cases h
  · dsimp only at h
    split at h
    · rcases h with h | ⟨_, h⟩ <;> cases h
    · unfold Chain.acknowledgeDue at h
      repeat' split at h
      all_goals
        rcases h with h | ⟨_, h⟩
        all_goals cases h
        all_goals simp_all

/-- An owned update tick becomes the watermark or leaves it. -/
theorem applyConfirmationWatermark_markOwned {confirmedTick requestedTick : Nat}
    {slot : ManagedSlot} (h : MarkOwned slot) (howns : chainOwnsTarget slot confirmedTick = true) :
    MarkOwned (applyConfirmationWatermark confirmedTick requestedTick slot).slot := by
  unfold applyConfirmationWatermark
  split
  · exact h
  · rename_i chain hchain
    have howned : chain.ownsTarget confirmedTick = true := by
      simpa [chainOwnsTarget, hchain] using howns
    have hnew : ∀ chain', (chain.acknowledge confirmedTick requestedTick = .settled chain' ∨
        ∃ target, chain.acknowledge confirmedTick requestedTick = .missing chain' target) →
        MarkOwned { slot with chain := some chain' } := by
      intro chain' hack chain'' confirmed hchain'' hconfirmed
      cases hchain''
      have hsame := Chain.acknowledge_confirmed hack
      rcases Chain.acknowledge_chain hack with ⟨_, _, rfl⟩
      rw [hsame] at hconfirmed
      cases hconfirmed
      exact howned
    cases hack : chain.acknowledge confirmedTick requestedTick with
    | ignored => exact h
    | settled chain' => exact hnew chain' (.inl hack)
    | missing chain' target =>
      exact observeStatusEvidence_markOwned (hnew chain' (.inr ⟨target, hack⟩))

theorem applyStatus_markOwned {observation : StatusObservation} {slot : ManagedSlot}
    (h : MarkOwned slot) : MarkOwned (applyStatus observation slot).slot := by
  unfold applyStatus
  dsimp only
  split
  · exact h
  · exact h
  · exact h
  · split
    · split
      · rename_i howns
        exact @applyConfirmationWatermark_markOwned _ _ { slot with state := .active } h howns
      · split
        · exact observeStatusEvidence_markOwned h
        · exact h
    · split
      · exact observeStatusEvidence_markOwned h
      · exact h
  · split
    · split
      · rename_i howns
        exact applyConfirmationWatermark_markOwned h howns
      · exact observeStatusEvidence_markOwned h
    · exact observeStatusEvidence_markOwned h
  · exact h

theorem SlotOp.markOwned (op : SlotOp) {slot : ManagedSlot} (h : MarkOwned slot) :
    MarkOwned (op.run cfg slot).slot := by
  by_cases hstatus : ∃ observation, op = .applyStatus observation
  · rcases hstatus with ⟨observation, rfl⟩
    exact applyStatus_markOwned h
  · push Not at hstatus
    exact (op.keepsChain hstatus slot).markOwned h

theorem markOwned (i : Fin 3) (ops : List SlotOp) :
    MarkOwned ((slotMachine cfg).state (slot₀ cfg i) ops) :=
  (slotMachine cfg).state_invariant (slot₀ cfg i) MarkOwned (fun _ _ h => by cases h)
    (fun _ op h => op.markOwned h) ops

/-! ## The shape in every history -/

/-- The targets of a chain are ticks of its stream. -/
theorem Planned.last_mod {slot : ManagedSlot} {t : List Effect} (h : Planned cfg slot t)
    {chain : Chain} (hchain : slot.chain = some chain) :
    chain.lastTarget % streamCount = slot.key.stream := by
  obtain ⟨p, hr, hinv⟩ := h
  have htail : ∃ y ∈ periodCalls t, y.targetTick = chain.lastTarget := by
    rcases hr.of_chain hchain with ⟨-, rfl | rfl⟩ | ⟨reason, -, rfl⟩
    · rcases hinv.shape.1.tail with ⟨y, hy, hlast, -⟩
      exact ⟨y, hinv.suffix.subset (List.mem_of_getLast? hy), hlast⟩
    · rcases hinv.shape.1.tail with ⟨y, hy, hlast, -⟩
      exact ⟨y, hinv.suffix.subset (List.mem_of_getLast? hy), hlast⟩
    · rcases hinv.shape with ⟨normal, call, hcalls, hat, -⟩
      rcases hat.tail with ⟨y, hy, hlast, -⟩
      refine ⟨y, hinv.suffix.subset ?_, hlast⟩
      rw [hcalls]
      exact List.mem_append_left _ (List.mem_of_getLast? hy)
  rcases htail with ⟨y, hmem, hlast⟩
  rw [← hlast]
  exact hinv.target_mod hmem

theorem slotShape (i : Fin 3) (ops : List SlotOp) :
    SlotShape i ((slotMachine cfg).state (slot₀ cfg i) ops) := by
  have hrun : SlotRun cfg (slot₀ cfg i) _ _ := slotMachine_run i ops
  have hkey := @slotMachine_key cfg i ops
  have hslot := hrun.slotInv
  have hlast := hrun.terminalLast
  have hmark := @markOwned cfg i ops
  generalize (slotMachine cfg).state (slot₀ cfg i) ops = slot at *
  obtain ⟨p, hr, hinv⟩ := hslot.planned
  refine ⟨?_, ?_, ?_, ?_, hlast.2, hslot.queue.increasing, ?_, hmark⟩
  · cases hr with
    | waiting hstate hchain =>
      simp [hstate, hchain, SlotState.isPlanning, SlotState.isRestarting, SlotState.isDraining]
    | planning hstate _ hchain => simp [hstate, hchain]
    | restarting hstate _ hchain => simp [hstate, hchain, SlotState.isRestarting]
    | draining hstate hchain => simp [hstate, hchain, SlotState.isDraining]
    | drained hstate hchain =>
      simp [hstate, hchain, SlotState.isPlanning, SlotState.isRestarting, SlotState.isDraining]
  · intro first hstate
    rcases hr.of_planning (by rw [hstate]; rfl) with ⟨chain, hchain, hfirst, -⟩
    exact ⟨chain, hchain, hfirst first hstate⟩
  · intro tail after observed drain hstate
    rcases hr.of_restarting hstate with ⟨chain, hchain, htail, hrestart, -⟩
    exact ⟨chain, hchain, htail, by rw [hrestart, htail]⟩
  · intro reason target hstate
    rcases hr.of_draining hstate with ⟨chain, hchain, htarget, -⟩
    rcases hlast.1 reason target hstate with ⟨normal, terminal, hqueue, hrest⟩
    rw [queue_of_chain hchain] at hqueue
    exact ⟨chain, normal, terminal, hchain, htarget, hqueue, hrest⟩
  · intro call hmem
    rcases hslot.queue.recorded call hmem with ⟨signed, hsigned, hrec⟩
    rw [← hrec.target, hinv.target_mod hsigned, hkey]
    rfl

/-! ## The errors that are left -/

/-- The errors that do not come from the slot: an overflow of the tick
arithmetic, or a refusal of the wallet. -/
inductive SlotOp.ExternalError (cfg : Config) (slot : ManagedSlot) : SlotOp → String → Prop where
  | initialTick {env : SigningEnv} {currentTick : Nat}
      (h : u32Max < currentTick + sendLeadTicks) :
      ExternalError cfg slot (.startIfReady env currentTick) "initial target tick overflowed"
  | initialTarget {env : SigningEnv} {currentTick : Nat}
      (h : nextStreamTick (max (currentTick + sendLeadTicks) slot.restartAt) slot.key.stream = none) :
      ExternalError cfg slot (.startIfReady env currentTick) "initial stream target overflowed"
  | horizon {env : SigningEnv} {currentTick : Nat} (h : u32Max < currentTick + sendLeadTicks) :
      ExternalError cfg slot (.extendChain env currentTick) "planning horizon overflowed"
  | terminal {env : SigningEnv} {reason : DrainReason} {chain : Chain}
      (hchain : slot.chain = some chain) (h : u32Max < chain.lastTarget + streamCount) :
      ExternalError cfg slot (.enterDrain env reason) "terminal reveal target overflowed"
  | wallet {op : SlotOp} {env : SigningEnv} {ticket : Ticket} {err : String}
      (henv : op.signingEnv = some env) (h : env.sign ticket = .error err) :
      ExternalError cfg slot op err

/-- With a target of the stream the scheduling check passes. -/
theorem buildTransaction_error {env : SigningEnv} {input : RevealAndCommitInput} {target : Nat}
    {key : SlotKey} {err : String} (hmod : target % streamCount = key.stream)
    (h : buildTransaction cfg env input target key = .error err) :
    ∃ ticket, env.sign ticket = .error err := by
  unfold buildTransaction at h
  rw [if_neg (not_not.2 hmod)] at h
  exact ⟨_, h⟩

theorem startIfReady_error {env : SigningEnv} {currentTick : Nat} {slot : ManagedSlot}
    {err : String} (hstream : slot.key.stream < streamCount)
    (h : (startIfReady cfg env currentTick slot).error = some err) :
    (SlotOp.startIfReady env currentTick).ExternalError cfg slot err := by
  unfold startIfReady at h
  split at h
  · split at h
    · rename_i hlead
      cases h
      exact .initialTick (Bounded.checkedAdd_eq_none.1 hlead)
    · rename_i lead hlead
      obtain ⟨rfl, -⟩ := Bounded.checkedAdd_eq_some.1 hlead
      split at h
      · rename_i htarget
        cases h
        exact .initialTarget htarget
      · rename_i target htarget
        obtain ⟨-, hleast⟩ := nextStreamTick_isLeast hstream htarget
        dsimp only at h
        split at h
        · rename_i hbuild
          cases h
          rcases buildTransaction_error hleast.1.1 hbuild with ⟨ticket, hsign⟩
          exact .wallet rfl hsign
        · cases h
  · cases h

/-- Every round of the loop builds for a tick of the stream. -/
theorem extendLoop_error {env : SigningEnv} {currentTick horizon fuel : Nat} {key : SlotKey}
    {chain : Chain} {err : String} (hmod : chain.lastTarget % streamCount = key.stream)
    (h : (extendLoop cfg env currentTick horizon key fuel chain).2.2 = some err) :
    ∃ ticket, env.sign ticket = .error err := by
  induction fuel generalizing chain with
  | zero => cases h
  | succ fuel ih =>
    simp only [extendLoop] at h
    split at h
    · cases h
    · rename_i failure honce
      cases h
      unfold extendOnce at honce
      split at honce
      · cases honce
      · rename_i target htarget
        obtain ⟨rfl, -⟩ := Bounded.checkedAdd_eq_some.1 htarget
        split at honce
        · cases honce
        · dsimp only at honce
          split at honce
          · rename_i hbuild
            cases honce
            exact buildTransaction_error (by rw [Nat.add_mod_right, hmod]) hbuild
          · cases honce
    · rename_i chain' call honce
      rcases extendOnce_extends honce with ⟨next, hextends, rfl⟩
      exact ih hextends.target_mod h

theorem extendChain_error {env : SigningEnv} {currentTick : Nat} {slot : ManagedSlot}
    {err : String}
    (hmod : ∀ chain, slot.chain = some chain → chain.lastTarget % streamCount = slot.key.stream)
    (h : (extendChain cfg env currentTick slot).error = some err) :
    (SlotOp.extendChain env currentTick).ExternalError cfg slot err := by
  unfold extendChain at h
  split at h
  · split at h
    · simp only [SlotResult.followedBy, loseChain] at h
      repeat' split at h
      all_goals cases h
    · split at h
      · rename_i hhorizon
        cases h
        exact .horizon (Bounded.checkedAdd_eq_none.1 hhorizon)
      · split at h
        · cases h
        · rename_i chain hchain
          rcases extendLoop_error (hmod chain hchain) h with ⟨ticket, hsign⟩
          exact .wallet rfl hsign
  · cases h

theorem enterDrain_error {env : SigningEnv} {reason : DrainReason} {slot : ManagedSlot}
    {err : String} (hchain : slot.state.isPlanning = true → slot.chain.isSome)
    (hmod : ∀ chain, slot.chain = some chain → chain.lastTarget % streamCount = slot.key.stream)
    (h : (enterDrain cfg env reason slot).error = some err) :
    (SlotOp.enterDrain env reason).ExternalError cfg slot err := by
  unfold enterDrain at h
  split at h
  · cases h
  · cases h
  · cases h
  · cases h
  all_goals
    rename_i hstate
    rw [hstate] at hchain
    split at h
    · rename_i hnone
      rw [hnone] at hchain
      exact absurd (hchain rfl) (by simp)
    · rename_i chain hsome
      split at h
      · rename_i hterminal
        cases h
        exact .terminal hsome (Bounded.checkedAdd_eq_none.1 hterminal)
      · rename_i target hterminal
        obtain ⟨rfl, -⟩ := Bounded.checkedAdd_eq_some.1 hterminal
        dsimp only at h
        split at h
        · rename_i hbuild
          cases h
          have htarget : (chain.lastTarget + streamCount) % streamCount = slot.key.stream := by
            rw [Nat.add_mod_right, hmod chain hsome]
          rcases buildTransaction_error htarget hbuild with ⟨ticket, hsign⟩
          exact .wallet rfl hsign
        · cases h

/-- In a slot of a run an operation fails by overflow or for the wallet only. -/
theorem SlotOp.externalError (i : Fin 3) (ops : List SlotOp) {op : SlotOp} {err : String}
    (h : (op.run cfg ((slotMachine cfg).state (slot₀ cfg i) ops)).error = some err) :
    op.ExternalError cfg ((slotMachine cfg).state (slot₀ cfg i) ops) err := by
  have hrun : SlotRun cfg (slot₀ cfg i) _ _ := slotMachine_run i ops
  have hmod := fun chain => @Planned.last_mod cfg _ _ hrun.planned chain
  have hshape := @slotShape cfg i ops
  have hstream : ((slotMachine cfg).state (slot₀ cfg i) ops).key.stream < streamCount := by
    rw [slotMachine_key]
    exact i.isLt
  cases op with
  | startIfReady env currentTick => exact startIfReady_error hstream h
  | extendChain env currentTick => exact extendChain_error hmod h
  | enterDrain env reason =>
    exact enterDrain_error (fun hplanning => hshape.present.2 (.inl hplanning)) hmod h
  | _ =>
    rw [SlotOp.run_error cfg rfl] at h
    cases h

/-! ## The arms of a status observation -/

/-- `matches!(state, Draining { .. } | Drained(_))`: `apply_status` returns at once. -/
def SlotState.skipsStatus : SlotState → Bool
  | .draining _ _ | .drained _ => true
  | _ => false

/-- The arms of the match of `apply_status`. -/
inductive StatusArm where
  | waiting
  | starting
  | active
  | restarting
  /-- `unreachable!()`. -/
  | unreachable
deriving DecidableEq, Repr

/-- The arm that the match of `apply_status` selects. -/
def SlotState.statusArm : SlotState → StatusArm
  | .waiting _ _ => .waiting
  | .starting _ => .starting
  | .active => .active
  | .restarting _ _ _ _ => .restarting
  | .draining _ _ | .drained _ => .unreachable

/-- Past the early return the last arm is not selected. -/
theorem SlotState.statusArm_reachable {state : SlotState} (h : state.skipsStatus = false) :
    state.statusArm ≠ .unreachable := by
  cases state <;> first | exact StatusArm.noConfusion | cases h

theorem applyStatus_skipped {observation : StatusObservation} {slot : ManagedSlot}
    (h : slot.state.skipsStatus = true) : applyStatus observation slot = { slot := slot } := by
  cases hstate : slot.state <;> simp_all [SlotState.skipsStatus, applyStatus]

/-! ## The result -/

/-- Slot representation, in every engine state a run reaches and at every
operation within it: the fields of each slot belong together. No operation
fails but by an overflow of the tick arithmetic or a refusal of the wallet, so
that none of the internal error exits is taken, and a status observation that
is not skipped has an arm. -/
theorem slot_representation (a b c : Nat) (inputs : List EngineInput) (i : Fin 3) :
    SlotShape i (((engineMachine cfg).state (Engine.new cfg a b c) inputs).slots i) ∧
    ∀ ops, ops <+: history cfg (Engine.new cfg a b c) inputs i →
      let slot := (slotMachine cfg).state (slot₀ cfg i) ops
      SlotShape i slot ∧
      (∀ (op : SlotOp) (err : String), (op.run cfg slot).error = some err → op.ExternalError cfg slot err) ∧
      ∀ observation, (slot.state.skipsStatus = true ∧
          applyStatus observation slot = { slot := slot }) ∨
        slot.state.statusArm ≠ .unreachable := by
  constructor
  · rw [slots_of_log]
    exact slotShape i _
  · intro ops _ slot
    refine ⟨slotShape i ops, ?_, ?_⟩
    · intro op err h
      exact SlotOp.externalError i ops h
    · intro observation
      by_cases hskip : slot.state.skipsStatus = true
      · exact .inl ⟨hskip, applyStatus_skipped hskip⟩
      · right
        apply SlotState.statusArm_reachable
        simpa using hskip

end RandomClient
