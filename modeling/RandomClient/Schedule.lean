import RandomClient.Room

/-!
# Calls on schedule

The send windows of six and four ticks against a tick that moves by at most
three between two cycles. A call that was not sent in one cycle has more than
its window ahead of it (`OnTime`), so it is still at least two ticks ahead at the
harvest of the next one (`Primed`), and sent there if it is inside its window.
`OnCourse` carries this along the history of a stream from the first commit of a
chain on: through planning, harvest, expiry, dispatch, pruning and the drain.
-/

namespace RandomClient

variable {cfg : Config}

/-! ## One call -/

/-- After a cycle at a tick that handed over the given targets: accepted, handed
over in that cycle, or not yet inside the send window. -/
inductive PlannedCall.OnTime (tick : Nat) (sent : List Nat) (call : PlannedCall) : Prop where
  | accepted (h : call.state = .accepted)
  | sent (hstate : call.state = .broadcasting) (htask : call.broadcast.isSome = true)
      (hmem : call.targetTick ∈ sent) (hahead : tick < call.targetTick)
  | waiting (hstate : call.state = .ready) (htask : call.broadcast = none)
      (hahead : tick + sendLead call.kind < call.targetTick)

/-- After the harvest at a tick: accepted, or two ticks ahead at least. -/
inductive PlannedCall.Primed (tick : Nat) (call : PlannedCall) : Prop where
  | accepted (h : call.state = .accepted)
  | waiting (hstate : call.state = .ready) (htask : call.broadcast = none)
      (hahead : tick + 1 < call.targetTick)

section Call

variable {call : PlannedCall} {tick : Nat} {sent : List Nat}

theorem PlannedCall.OnTime.unfailed (h : call.OnTime tick sent) : call.state ≠ .failed := by
  cases h with
  | accepted hstate => simp [hstate]
  | sent hstate => simp [hstate]
  | waiting hstate => simp [hstate]

theorem PlannedCall.Primed.unfailed (h : call.Primed tick) : call.state ≠ .failed := by
  cases h with
  | accepted hstate => simp [hstate]
  | waiting hstate => simp [hstate]

/-- Every send window is at least four ticks wide. -/
theorem revealSendLead_le (kind : CallKind) : revealSendLeadTicks ≤ sendLead kind := by
  cases kind <;> decide

/-- A call that is ready and more than four ticks ahead at one cycle is two ahead at the next. -/
theorem PlannedCall.OnTime.harvest (h : call.OnTime tick sent) {next : Nat} (hpace : next ≤ tick + 3)
    {results : Nat → Option Delivery} (hok : ∀ target ∈ sent, results target = some .ok)
    (shutdownDrain : Bool) : (harvestCall shutdownDrain results call).Primed next := by
  cases h with
  | accepted hstate => exact .accepted (harvestCall_accepted.2 (.inl hstate))
  | sent hstate htask hmem =>
    apply PlannedCall.Primed.accepted
    apply harvestCall_accepted.2
    right
    rcases Option.isSome_iff_exists.1 htask with ⟨task, hsome⟩
    simp [harvestOf, hsome, hok _ hmem, hstate]
  | waiting hstate htask hahead =>
    have hpending : harvestOf shutdownDrain results call = .pending := by
      simp [harvestOf, htask]
    have hlead := revealSendLead_le call.kind
    simp only [revealSendLeadTicks] at hlead
    have hstill : next + 1 < call.targetTick := by omega
    unfold harvestCall
    rw [hpending]
    exact .waiting hstate htask hstill

/-- A primed call does not expire. -/
theorem PlannedCall.Primed.expire (h : call.Primed tick) (firstTarget : Nat) :
    expiryOf tick firstTarget call ≠ .expired ∧ (expireCall tick firstTarget call).Primed tick := by
  cases h with
  | accepted hstate =>
    constructor
    · intro hexpired
      exact (expiryOf_undelivered (.inr hexpired)).2.1 hstate
    · exact .accepted (expireCall_accepted.2 hstate)
  | waiting hstate htask hahead =>
    have hfuture : expiryOf tick firstTarget call = .future := by
      unfold expiryOf
      rw [if_pos (by omega)]
    constructor
    · rw [hfuture]
      nofun
    · unfold expireCall
      rw [hfuture]
      exact .waiting hstate htask hahead

/-- A primed call inside its window is sent, one outside stays ready. -/
theorem PlannedCall.Primed.dispatch (h : call.Primed tick) (hrange : InRange tick)
    {ctx : DispatchContext} (htick : ctx.currentTick = tick)
    (hready : call.kind = .terminalReveal → call.targetTick ≤ tick + revealSendLeadTicks →
      ctx.terminalReady = true)
    (hsent : dispatchOf ctx call = .send false → call.targetTick ∈ sent) (tickDurationMs : Nat) :
    (dispatchCall ctx tickDurationMs call).OnTime tick sent := by
  unfold InRange at hrange
  cases h with
  | accepted hstate => exact .accepted (dispatchCall_accepted.2 hstate)
  | waiting hstate htask hahead =>
    have hlead : sendLead call.kind ≤ sendLeadTicks := by
      cases call.kind <;> decide
    simp only [sendLeadTicks] at hlead
    have hhorizon : saturatingAdd tick (sendLead call.kind) = tick + sendLead call.kind :=
      Bounded.saturatingAdd_of_le (by omega)
    have hplain : isRedundant ctx call = false := by
      simp [isRedundant, hstate]
    by_cases hwindow : tick + sendLead call.kind < call.targetTick
    · have hskip : dispatchOf ctx call = .skip := by
        unfold dispatchOf
        dsimp only
        rw [if_pos (.inr (by rw [htick, hhorizon]; exact hwindow))]
      unfold dispatchCall
      rw [hskip]
      exact .waiting hstate htask hwindow
    · -- inside the window: a terminal reveal finds the other calls accepted
      have hsend : dispatchOf ctx call = .send false := by
        unfold dispatchOf
        dsimp only
        rw [if_neg, if_neg, if_neg, if_neg, hplain]
        · rintro ⟨-, -, hretry⟩
          rw [hstate] at hretry
          cases hretry
        · rintro ⟨-, hnot, -⟩
          exact hnot hstate
        · rintro ⟨hkind, hnot⟩
          rw [hready hkind] at hnot
          · cases hnot
          · rw [hkind] at hwindow
            exact Nat.not_lt.1 hwindow
        · rw [htick, hhorizon]
          omega
      have hmem := hsent hsend
      unfold dispatchCall
      rw [hsend]
      exact .sent rfl rfl hmem (by show tick < call.targetTick; omega)

end Call

/-! ## A stream on course -/

/-- Every call of the current chain has the property. -/
def ManagedSlot.Own (slot : ManagedSlot) (P : PlannedCall → Prop) : Prop :=
  ∀ chain, slot.chain = some chain → ∀ call ∈ chain.calls, chain.firstTarget ≤ call.targetTick →
    P call

/-- How far the slot is: `true` while its chain is planned past the tick `ahead`,
`false` from the drain entry on, up to the acceptance of the terminal reveal. -/
inductive ManagedSlot.Stage (ahead : Nat) (slot : ManagedSlot) : Bool → Prop where
  | planning (hstate : slot.state.isPlanning = true)
      (hahead : ∀ chain, slot.chain = some chain → ahead < chain.lastTarget) : Stage ahead slot true
  | draining (hstate : slot.state.isDraining = true) : Stage ahead slot false
  | drained (hstate : slot.state = .drained .accepted) : Stage ahead slot false

/-- The terminal reveal of the chain was signed, and a draining slot waits for it. -/
def TerminalSigned (slot : ManagedSlot) (t : List Effect) : Prop :=
  ∃ call ∈ currentChain t, call.kind = .terminalReveal ∧
    ∀ reason target, slot.state = .draining reason target → target = call.targetTick

/-- A history `base ++ ops` whose chain started in `ops` and has lost nothing:
the calls of the chain are those signed in `ops`, and a chain that is gone was
accepted call by call. -/
structure OnCourse (cfg : Config) (i : Fin 3) (base : List SlotOp) (P : PlannedCall → Prop)
    (ahead : Nat) (planned : Bool) (ops : List SlotOp) : Prop where
  stage : ((slotMachine cfg).state (slot₀ cfg i) (base ++ ops)).Stage ahead planned
  own : ((slotMachine cfg).state (slot₀ cfg i) (base ++ ops)).Own P
  lossless : chainFailures ((slotMachine cfg).trace (slot₀ cfg i) (base ++ ops)) = []
  signed : currentChain ((slotMachine cfg).trace (slot₀ cfg i) (base ++ ops)) =
    signedCalls ((slotMachine cfg).trace ((slotMachine cfg).state (slot₀ cfg i) base) ops)
  terminal : planned = false → TerminalSigned ((slotMachine cfg).state (slot₀ cfg i) (base ++ ops))
    ((slotMachine cfg).trace (slot₀ cfg i) (base ++ ops))
  closed : ((slotMachine cfg).state (slot₀ cfg i) (base ++ ops)).chain = none →
    ∀ call ∈ currentChain ((slotMachine cfg).trace (slot₀ cfg i) (base ++ ops)),
      AcceptedIn ((slotMachine cfg).trace (slot₀ cfg i) (base ++ ops)) call.targetTick

theorem signedCalls_append (t u : List Effect) :
    signedCalls (t ++ u) = signedCalls t ++ signedCalls u := List.filterMap_append

/-- Calls other than first commits are added to the current chain. -/
theorem currentChain_append_later {u : List Effect} (hreset : Effect.reset ∉ u)
    (hkind : ∀ call, Effect.signed call ∈ u → call.kind ≠ .firstCommit) (t : List Effect) :
    currentChain (t ++ u) = currentChain t ++ signedCalls u := by
  induction u using List.reverseRecOn with
  | nil => simp [signedCalls]
  | append_singleton u e ih =>
    have hold := ih (fun hmem => hreset (List.mem_append_left _ hmem)) fun call hmem =>
      hkind call (List.mem_append_left _ hmem)
    rw [← List.append_assoc, currentChain_append, hold, signedCalls_append, ← List.append_assoc]
    cases e with
    | signed call =>
      have hlater := hkind call (by simp)
      simp [chainStep, hlater, signedCalls]
    | reset => simp at hreset
    | _ => simp [chainStep, signedCalls]

section OnCourse

variable {i : Fin 3} {base ops : List SlotOp} {P P' : PlannedCall → Prop} {ahead ahead' : Nat}
  {planned planned' : Bool}

/-- An operation that leaves its slot at risk loses nothing. -/
theorem failures_of_atRisk {op : SlotOp}
    (h : (op.run cfg ((slotMachine cfg).state (slot₀ cfg i) ops)).slot.AtRisk) :
    failures (op.run cfg ((slotMachine cfg).state (slot₀ cfg i) ops)).effects = [] := by
  cases loses_of_ops i ops op with
  | nothing hnone => exact hnone
  | target _ _ hafter => exact absurd h hafter

/-- One more operation that opens no chain and loses nothing. -/
theorem OnCourse.snoc (h : OnCourse cfg i base P ahead planned ops) {op : SlotOp}
    {slot : ManagedSlot} {u : List Effect}
    (hslot : (op.run cfg ((slotMachine cfg).state (slot₀ cfg i) (base ++ ops))).slot = slot)
    (heffects : (op.run cfg ((slotMachine cfg).state (slot₀ cfg i) (base ++ ops))).effects = u)
    (hreset : op ≠ .reset) (hstage : slot.Stage ahead' planned') (hown : slot.Own P')
    (hkind : ∀ call, Effect.signed call ∈ u → call.kind ≠ .firstCommit)
    (hlossless : failures u = [])
    (hterminal : planned' = false → TerminalSigned slot
      ((slotMachine cfg).trace (slot₀ cfg i) (base ++ ops) ++ u))
    (hclosed : slot.chain = none →
      ∀ call ∈ currentChain ((slotMachine cfg).trace (slot₀ cfg i) (base ++ ops) ++ u),
        AcceptedIn ((slotMachine cfg).trace (slot₀ cfg i) (base ++ ops) ++ u) call.targetTick) :
    OnCourse cfg i base P' ahead' planned' (ops ++ [op]) := by
  have hstill : Effect.reset ∉ u := by
    rw [← heffects]
    exact fun hmem => hreset (SlotOp.reset_of_mem hmem)
  have hstate : (slotMachine cfg).state (slot₀ cfg i) (base ++ (ops ++ [op])) = slot := by
    rw [← List.append_assoc, slotMachine_state_snoc, hslot]
  have htrace : (slotMachine cfg).trace (slot₀ cfg i) (base ++ (ops ++ [op])) =
      (slotMachine cfg).trace (slot₀ cfg i) (base ++ ops) ++ u := by
    rw [← List.append_assoc, slotMachine_trace_snoc, heffects]
  refine ⟨?_, ?_, ?_, ?_, ?_, ?_⟩
  · rw [hstate]
    exact hstage
  · rw [hstate]
    exact hown
  · rw [htrace]
    have hle := chainFailures_length_le ((slotMachine cfg).trace (slot₀ cfg i) (base ++ ops)) u
    rw [h.lossless, hlossless] at hle
    exact List.eq_nil_of_length_eq_zero (Nat.le_zero.1 hle)
  · rw [htrace, currentChain_append_later hstill hkind, h.signed, slotMachine_trace_snoc,
      ← Machine.state_append, heffects, signedCalls_append]
  · rw [hstate, htrace]
    exact hterminal
  · rw [hstate, htrace]
    exact hclosed

/-- What holds of the calls, and how far ahead they are planned, may be weakened. -/
theorem OnCourse.mono (h : OnCourse cfg i base P ahead planned ops) (hP : ∀ call, P call → P' call)
    (hahead : ahead' ≤ ahead) : OnCourse cfg i base P' ahead' planned ops := by
  refine ⟨?_, ?_, h.lossless, h.signed, h.terminal, h.closed⟩
  · cases h.stage with
    | planning hstate hplanned =>
      exact .planning hstate fun chain hchain => hahead.trans_lt (hplanned chain hchain)
    | draining hstate => exact .draining hstate
    | drained hstate => exact .drained hstate
  · intro chain hchain call hmem hfirst
    exact hP call (h.own chain hchain call hmem hfirst)

/-- An operation that does nothing. -/
theorem OnCourse.idle (h : OnCourse cfg i base P ahead planned ops) {op : SlotOp} (hreset : op ≠ .reset)
    (hidle : op.run cfg ((slotMachine cfg).state (slot₀ cfg i) (base ++ ops)) =
      { slot := (slotMachine cfg).state (slot₀ cfg i) (base ++ ops) }) :
    OnCourse cfg i base P ahead planned (ops ++ [op]) := by
  apply h.snoc (u := []) (by rw [hidle]) (by rw [hidle]) hreset h.stage h.own (by simp) rfl
  · rw [List.append_nil]
    exact h.terminal
  · rw [List.append_nil]
    exact h.closed

/-- A drained slot ignores every operation but the reset. -/
theorem SlotOp.drained_idle {slot : ManagedSlot} {outcome : DrainOutcome} {op : SlotOp}
    (hstate : slot.state = .drained outcome) (hchain : slot.chain = none) (hreset : op ≠ .reset) :
    op.run cfg slot = { slot := slot } := by
  cases op with
  | reset => exact absurd rfl hreset
  | harvestBroadcasts results => simp [SlotOp.run, RandomClient.harvestBroadcasts, hchain]
  | applyStatus observation => simp [SlotOp.run, RandomClient.applyStatus, hstate]
  | enterDrain env reason => simp [SlotOp.run, RandomClient.enterDrain, hstate]
  | startIfReady env currentTick =>
    simp [SlotOp.run, RandomClient.startIfReady, hstate, SlotState.readyToStart]
  | extendChain env currentTick =>
    simp [SlotOp.run, RandomClient.extendChain, hstate, SlotState.isPlanning]
  | expireCalls currentTick => simp [SlotOp.run, RandomClient.expireCalls, hchain]
  | dispatchCalls currentTick tickDurationMs =>
    simp [SlotOp.run, RandomClient.dispatchCalls, hchain]
  | finishDrain => simp [SlotOp.run, RandomClient.finishDrain, hstate, SlotState.isDraining]
  | finishStatusRestart currentTick =>
    simp [SlotOp.run, RandomClient.finishStatusRestart, hstate]
  | pruneCalls currentTick =>
    simp [SlotOp.run, RandomClient.pruneCalls, hstate, hchain, SlotState.isDraining]

theorem OnCourse.drained (h : OnCourse cfg i base P ahead planned ops) {op : SlotOp}
    (hreset : op ≠ .reset)
    (hdrained : ((slotMachine cfg).state (slot₀ cfg i) (base ++ ops)).state = .drained .accepted) :
    OnCourse cfg i base P' ahead' planned (ops ++ [op]) := by
  have hchain : ((slotMachine cfg).state (slot₀ cfg i) (base ++ ops)).chain = none := by
    have hpresent := (@slotShape cfg i (base ++ ops)).present
    rw [hdrained] at hpresent
    simpa [SlotState.isPlanning, SlotState.isRestarting, SlotState.isDraining] using hpresent
  have hgone : OnCourse cfg i base P' ahead' planned ops := by
    refine ⟨?_, ?_, h.lossless, h.signed, h.terminal, h.closed⟩
    · cases h.stage with
      | planning hstate =>
        rw [hdrained] at hstate
        cases hstate
      | draining | drained => exact .drained hdrained
    · intro chain hsome
      rw [hchain] at hsome
      cases hsome
  exact hgone.idle hreset (SlotOp.drained_idle hdrained hchain hreset)

/-- The stage of a slot with a chain. -/
theorem OnCourse.open_cases (h : OnCourse cfg i base P ahead planned ops)
    (hopen : ((slotMachine cfg).state (slot₀ cfg i) (base ++ ops)).state ≠ .drained .accepted) :
    (∃ chain, ((slotMachine cfg).state (slot₀ cfg i) (base ++ ops)).chain = some chain) ∧
      ((planned = true ∧ ((slotMachine cfg).state (slot₀ cfg i) (base ++ ops)).state.isPlanning =
          true) ∨
        (planned = false ∧ ((slotMachine cfg).state (slot₀ cfg i) (base ++ ops)).state.isDraining =
          true)) := by
  have hpresent := (@slotShape cfg i (base ++ ops)).present
  cases h.stage with
  | planning hstate => exact ⟨Option.isSome_iff_exists.1 (hpresent.2 (.inl hstate)), .inl ⟨rfl, hstate⟩⟩
  | draining hstate =>
    exact ⟨Option.isSome_iff_exists.1 (hpresent.2 (.inr (.inr hstate))), .inr ⟨rfl, hstate⟩⟩
  | drained hstate => exact absurd hstate hopen

/-- A slot whose own calls have not failed is at risk until it is drained. -/
theorem atRisk_of_own (hstate : ((slotMachine cfg).state (slot₀ cfg i) ops).state.isPlanning = true ∨
      ((slotMachine cfg).state (slot₀ cfg i) ops).state.isDraining = true)
    (hown : ((slotMachine cfg).state (slot₀ cfg i) ops).Own fun call => call.state ≠ .failed) :
    ((slotMachine cfg).state (slot₀ cfg i) ops).AtRisk := by
  rcases hstate with hplanning | hdraining
  · exact .inl hplanning
  · right
    refine ⟨hdraining, ?_⟩
    intro call hmem hkind
    have hshape := @slotShape cfg i ops
    rcases Option.isSome_iff_exists.1 (hshape.present.2 (.inr (.inr hdraining))) with ⟨chain, hchain⟩
    rw [queue_of_chain hchain] at hmem
    have hfirst := (hshape.terminal_target hchain (slotMachine_regular i ops hchain) hmem hkind).2
    exact hown chain hchain call hmem hfirst

/-- An operation that signs nothing and treats the queue call by call. -/
theorem OnCourse.sweep (h : OnCourse cfg i base P ahead planned ops) {op : SlotOp}
    (hreset : op ≠ .reset)
    (hopen : ((slotMachine cfg).state (slot₀ cfg i) (base ++ ops)).state ≠ .drained .accepted)
    {slot : ManagedSlot}
    (hslot : (op.run cfg ((slotMachine cfg).state (slot₀ cfg i) (base ++ ops))).slot = slot)
    (hunsigned : ∀ call, Effect.signed call ∉
      (op.run cfg ((slotMachine cfg).state (slot₀ cfg i) (base ++ ops))).effects)
    (hstate : slot.state = ((slotMachine cfg).state (slot₀ cfg i) (base ++ ops)).state ∨
      ((slotMachine cfg).state (slot₀ cfg i) (base ++ ops)).state.isPlanning = true ∧
        slot.state.isPlanning = true)
    (hchain : ∀ chain, ((slotMachine cfg).state (slot₀ cfg i) (base ++ ops)).chain = some chain →
      ∃ chain', slot.chain = some chain' ∧ chain'.lastTarget = chain.lastTarget ∧
        ∀ call ∈ chain'.calls, chain'.firstTarget ≤ call.targetTick → P' call)
    (hP : ∀ call, P' call → call.state ≠ .failed) :
    OnCourse cfg i base P' ahead planned (ops ++ [op]) := by
  rcases h.open_cases hopen with ⟨⟨chain, hsome⟩, hstage⟩
  rcases hchain chain hsome with ⟨chain', hsome', hlast, hcalls⟩
  have hown : slot.Own P' := by
    intro chain'' hchain''
    cases hsome'.symm.trans hchain''
    exact hcalls
  have hafter : (slotMachine cfg).state (slot₀ cfg i) (base ++ ops ++ [op]) = slot := by
    rw [slotMachine_state_snoc, hslot]
  -- the slot stays in its stage
  have hstays : (planned = true ∧ slot.state.isPlanning = true) ∨ (planned = false ∧
      slot.state = ((slotMachine cfg).state (slot₀ cfg i) (base ++ ops)).state ∧
        slot.state.isDraining = true) := by
    rcases hstage with ⟨hplanned, hplanning⟩ | ⟨hplanned, hdraining⟩
    · left
      refine ⟨hplanned, ?_⟩
      rcases hstate with hsame | ⟨-, hstill⟩
      · rw [hsame]
        exact hplanning
      · exact hstill
    · right
      rcases hstate with hsame | ⟨hplanning, -⟩
      · exact ⟨hplanned, hsame, by rw [hsame]; exact hdraining⟩
      · rw [not_draining_of_planning hplanning] at hdraining
        cases hdraining
  have hrisk : slot.AtRisk := by
    rw [← hafter]
    apply atRisk_of_own
    · rw [hafter]
      rcases hstays with ⟨-, hplanning⟩ | ⟨-, -, hdraining⟩
      · exact .inl hplanning
      · exact .inr hdraining
    · rw [hafter]
      intro chain'' hchain'' call hmem hfirst
      exact hP call (hown chain'' hchain'' call hmem hfirst)
  have hnone : signedCalls (op.run cfg
      ((slotMachine cfg).state (slot₀ cfg i) (base ++ ops))).effects = [] := by
    rw [List.eq_nil_iff_forall_not_mem]
    intro call hmem
    exact hunsigned call (mem_signedCalls.1 hmem)
  apply h.snoc hslot rfl hreset _ hown fun call hmem => absurd hmem (hunsigned call)
  · apply failures_of_atRisk
    rw [hslot]
    exact hrisk
  · intro hplanned
    rcases h.terminal hplanned with ⟨call, hmem, hkind, htarget⟩
    refine ⟨call, ?_, hkind, ?_⟩
    · rw [currentChain_append_later (fun hmem => hreset (SlotOp.reset_of_mem hmem))
        fun call hmem => absurd hmem (hunsigned call), hnone, List.append_nil]
      exact hmem
    · intro reason target hdraining
      rcases hstays with ⟨hplanned', -⟩ | ⟨-, hsame, -⟩
      · rw [hplanned] at hplanned'
        cases hplanned'
      · rw [hsame] at hdraining
        exact htarget reason target hdraining
  · intro hgone
    rw [hsome'] at hgone
    cases hgone
  · rcases hstays with ⟨rfl, hplanning⟩ | ⟨rfl, -, hdraining⟩
    · refine .planning hplanning ?_
      intro chain'' hchain''
      cases hsome'.symm.trans hchain''
      rw [hlast]
      cases h.stage with
      | planning _ hahead => exact hahead chain hsome
    · exact .draining hdraining

/-- An operation that plans nothing signs nothing. -/
theorem SlotOp.unsigned_of_quiet {op : SlotOp} (h : op.isQuiet = true) (slot : ManagedSlot)
    (call : SignedCall) : Effect.signed call ∉ (op.run cfg slot).effects := by
  intro hmem
  rcases SlotOp.emits hmem with hnote | hemits
  · cases hnote
  · cases hemits <;> cases h

/-- An operation that changes each call of the chain on its own. -/
theorem OnCourse.map (h : OnCourse cfg i base P ahead planned ops) {op : SlotOp}
    (hreset : op ≠ .reset) (hquiet : op.isQuiet = true)
    (hopen : ((slotMachine cfg).state (slot₀ cfg i) (base ++ ops)).state ≠ .drained .accepted)
    {f : Chain → PlannedCall → PlannedCall}
    (hslot : ∀ chain, ((slotMachine cfg).state (slot₀ cfg i) (base ++ ops)).chain = some chain →
      (op.run cfg ((slotMachine cfg).state (slot₀ cfg i) (base ++ ops))).slot =
        { (slotMachine cfg).state (slot₀ cfg i) (base ++ ops) with
          chain := some { chain with calls := chain.calls.map (f chain) } })
    (hf : ∀ chain, ((slotMachine cfg).state (slot₀ cfg i) (base ++ ops)).chain = some chain →
      ∀ call ∈ chain.calls, (f chain call).targetTick = call.targetTick ∧
        (chain.firstTarget ≤ call.targetTick → P' (f chain call)))
    (hP : ∀ call, P' call → call.state ≠ .failed) :
    OnCourse cfg i base P' ahead planned (ops ++ [op]) := by
  rcases (h.open_cases hopen).1 with ⟨chain, hchain⟩
  apply h.sweep hreset hopen (hslot chain hchain) (SlotOp.unsigned_of_quiet hquiet _) (.inl rfl) _ hP
  intro chain' hchain'
  cases hchain.symm.trans hchain'
  refine ⟨_, rfl, rfl, ?_⟩
  intro call hmem hfirst
  rcases List.mem_map.1 hmem with ⟨before, hbefore, rfl⟩
  rcases hf chain hchain before hbefore with ⟨htarget, hholds⟩
  apply hholds
  rw [← htarget]
  exact hfirst

/-! ## The operations of a cycle -/

/-- The harvest of a cycle that comes three ticks later at most. -/
theorem OnCourse.harvest {tick next : Nat} {sent : List Nat}
    (h : OnCourse cfg i base (PlannedCall.OnTime tick sent) ahead planned ops)
    (hpace : next ≤ tick + 3) {results : Nat → Option Delivery}
    (hok : ∀ target ∈ sent, results target = some .ok) :
    OnCourse cfg i base (PlannedCall.Primed next) ahead planned
      (ops ++ [.harvestBroadcasts results]) := by
  by_cases hopen : ((slotMachine cfg).state (slot₀ cfg i) (base ++ ops)).state = .drained .accepted
  · exact h.drained nofun hopen
  · let shutdownDrain :=
      ((slotMachine cfg).state (slot₀ cfg i) (base ++ ops)).state.isShutdownDrain
    refine h.map (by nofun) (by rfl) hopen (f := fun _ => harvestCall shutdownDrain results) ?_ ?_
      fun call hprimed => hprimed.unfailed
    · intro chain hchain
      simp only [SlotOp.run, RandomClient.harvestBroadcasts, hchain, shutdownDrain]
    · intro chain hchain call hmem
      refine ⟨(harvestCall_keeps _ _ call).target, ?_⟩
      intro hfirst
      exact (h.own chain hchain call hmem hfirst).harvest hpace hok _

/-- An observation that freezes nothing. -/
theorem OnCourse.applyStatus (h : OnCourse cfg i base P ahead planned ops)
    (observation : StatusObservation)
    (hfree : ∀ tail restarting, Effect.froze tail restarting ∉
      (RandomClient.applyStatus observation
        ((slotMachine cfg).state (slot₀ cfg i) (base ++ ops))).effects)
    (hP : ∀ call, P call → call.state ≠ .failed) :
    OnCourse cfg i base P ahead planned (ops ++ [.applyStatus observation]) := by
  by_cases hopen : ((slotMachine cfg).state (slot₀ cfg i) (base ++ ops)).state = .drained .accepted
  · exact h.drained nofun hopen
  · rcases (h.open_cases hopen).2 with ⟨-, hplanning⟩ | ⟨-, hdraining⟩
    · cases applyStatus_observed observation
        ((slotMachine cfg).state (slot₀ cfg i) (base ++ ops)) with
      | froze _ hmem => exact absurd hmem (hfree _ _)
      | kept hkept =>
        have hstill := hkept.planning.trans hplanning
        refine h.sweep (by nofun) hopen rfl (SlotOp.unsigned_of_quiet (by rfl) _)
          (.inr ⟨hplanning, hstill⟩) ?_ hP
        intro chain hchain
        have hpresent := (@slotShape cfg i (base ++ ops ++ [.applyStatus observation])).present
        rw [slotMachine_state_snoc] at hpresent
        rcases Option.isSome_iff_exists.1 (hpresent.2 (.inl hstill)) with ⟨chain', hchain'⟩
        rcases hkept.chain chain' hchain' with ⟨_, hsame, hfirst, hlast, hcalls⟩
        cases hchain.symm.trans hsame
        refine ⟨chain', hchain', hlast, ?_⟩
        rw [hcalls, hfirst]
        exact h.own chain hchain
    · exact h.idle nofun (SlotOp.draining_idle hdraining nofun nofun nofun nofun nofun)

/-- A stream that entered its drain is not planned any further. -/
theorem OnCourse.any_ahead (h : OnCourse cfg i base P ahead false ops) :
    OnCourse cfg i base P ahead' false ops := by
  refine ⟨?_, h.own, h.lossless, h.signed, h.terminal, h.closed⟩
  cases h.stage with
  | draining hstate => exact .draining hstate
  | drained hstate => exact .drained hstate

/-- The drain entry does nothing more on a stream that closes, and otherwise signs
the terminal reveal three ticks past the last call. -/
theorem OnCourse.enterDrain_cases (h : OnCourse cfg i base P ahead planned ops) (env : SigningEnv)
    (reason : DrainReason)
    (hok : (RandomClient.enterDrain cfg env reason
      ((slotMachine cfg).state (slot₀ cfg i) (base ++ ops))).error = none) :
    (planned = false ∧ (SlotOp.enterDrain env reason).run cfg
      ((slotMachine cfg).state (slot₀ cfg i) (base ++ ops)) =
        { slot := (slotMachine cfg).state (slot₀ cfg i) (base ++ ops) }) ∨
    ∃ (chain : Chain) (signed : SignedCall),
      ((slotMachine cfg).state (slot₀ cfg i) (base ++ ops)).chain = some chain ∧
      ahead + streamCount < signed.targetTick ∧ signed.kind = .terminalReveal ∧
      ((SlotOp.enterDrain env reason).run cfg
        ((slotMachine cfg).state (slot₀ cfg i) (base ++ ops))).slot =
          { (slotMachine cfg).state (slot₀ cfg i) (base ++ ops) with
            chain := some { chain with calls := chain.calls ++ [signed.planned] }
            state := .draining reason signed.targetTick } ∧
      ((SlotOp.enterDrain env reason).run cfg
        ((slotMachine cfg).state (slot₀ cfg i) (base ++ ops))).effects = [.signed signed] := by
  cases h.stage with
  | drained hstate =>
    left
    exact ⟨rfl, by simp [SlotOp.run, RandomClient.enterDrain, hstate]⟩
  | draining hstate =>
    left
    exact ⟨rfl, SlotOp.draining_idle hstate (by simp) (by simp) (by simp) (by simp) (by simp)⟩
  | planning hplanning hahead =>
    right
    have hpresent := (@slotShape cfg i (base ++ ops)).present
    rcases Option.isSome_iff_exists.1 (hpresent.2 (.inl hplanning)) with ⟨chain, hchain⟩
    rcases @enterDrain_planning cfg _ env reason chain hplanning hchain with
      ⟨-, -, herror⟩ | ⟨signed, hkind, htarget, hslot, heffects, -⟩
    · exact absurd hok herror
    · have hlast := hahead chain hchain
      exact ⟨chain, signed, hchain, by omega, hkind, hslot, heffects⟩

/-- The drain entry. -/
theorem OnCourse.enterDrain (h : OnCourse cfg i base P ahead planned ops) (env : SigningEnv)
    (reason : DrainReason)
    (hok : (RandomClient.enterDrain cfg env reason
      ((slotMachine cfg).state (slot₀ cfg i) (base ++ ops))).error = none)
    (hP : ∀ call : PlannedCall, call.state = .ready → call.broadcast = none →
      ahead + streamCount < call.targetTick → P call) :
    OnCourse cfg i base P ahead' false (ops ++ [.enterDrain env reason]) := by
  rcases h.enterDrain_cases env reason hok with
    ⟨rfl, hidle⟩ | ⟨chain, signed, hchain, hahead, hkind, hslot, heffects⟩
  · exact OnCourse.any_ahead (h.idle (by nofun) hidle)
  · have hlater : signed.kind ≠ .firstCommit := by simp [hkind]
    have hadded : currentChain ((slotMachine cfg).trace (slot₀ cfg i) (base ++ ops) ++
        [.signed signed]) =
        currentChain ((slotMachine cfg).trace (slot₀ cfg i) (base ++ ops)) ++ [signed] :=
      currentChain_later hlater _
    refine h.snoc hslot heffects (by nofun) (.draining rfl) ?_ ?_ rfl ?_ (by nofun)
    · rintro _ ⟨⟩ call hmem hfirst
      rcases List.mem_append.1 hmem with hold | hnew
      · exact h.own chain hchain call hold hfirst
      · rw [List.mem_singleton.1 hnew]
        exact hP signed.planned rfl rfl hahead
    · intro call hmem
      rcases List.mem_singleton.1 hmem with ⟨⟩
      exact hlater
    · intro _
      refine ⟨signed, ?_, hkind, ?_⟩
      · rw [hadded]
        simp
      · rintro _ _ ⟨⟩
        rfl

/-- A chain that is planned, or closing, is not started again. -/
theorem OnCourse.startIfReady (h : OnCourse cfg i base P ahead planned ops) (env : SigningEnv)
    (currentTick : Nat) :
    OnCourse cfg i base P ahead planned (ops ++ [.startIfReady env currentTick]) := by
  apply h.idle (by nofun)
  have hready : ((slotMachine cfg).state (slot₀ cfg i) (base ++ ops)).state.readyToStart = false := by
    cases h.stage with
    | planning hstate =>
      rw [← Bool.not_eq_true]
      intro hready
      rw [not_planning_of_ready hready] at hstate
      cases hstate
    | draining hstate =>
      rw [← Bool.not_eq_true]
      intro hready
      rw [not_draining_of_ready hready] at hstate
      cases hstate
    | drained hstate =>
      rw [hstate]
      rfl
  simp [SlotOp.run, RandomClient.startIfReady, hready]

/-- A chain is continued until it reaches three ticks past the current one. -/
theorem OnCourse.extendChain {tick : Nat}
    (h : OnCourse cfg i base (PlannedCall.Primed tick) tick planned ops) (env : SigningEnv)
    (htick : tick + sendLeadTicks ≤ u32Max)
    (hok : (RandomClient.extendChain cfg env tick
      ((slotMachine cfg).state (slot₀ cfg i) (base ++ ops))).error = none) :
    OnCourse cfg i base (PlannedCall.Primed tick) (tick + 3) planned
      (ops ++ [.extendChain env tick]) := by
  have hidle : planned = false → ((slotMachine cfg).state (slot₀ cfg i)
      (base ++ ops)).state.isPlanning = false →
      OnCourse cfg i base (PlannedCall.Primed tick) (tick + 3) planned
        (ops ++ [.extendChain env tick]) := by
    rintro rfl hstate
    have hrun : (SlotOp.extendChain env tick).run cfg
        ((slotMachine cfg).state (slot₀ cfg i) (base ++ ops)) =
          { slot := (slotMachine cfg).state (slot₀ cfg i) (base ++ ops) } := by
      simp [SlotOp.run, RandomClient.extendChain, hstate]
    exact (h.idle (by simp) hrun).any_ahead
  cases hstage : h.stage with
  | drained hstate =>
    apply hidle rfl
    rw [hstate]
    rfl
  | draining hstate =>
    apply hidle rfl
    rw [← Bool.not_eq_true]
    intro hplanning
    rw [not_draining_of_planning hplanning] at hstate
    cases hstate
  | planning hplanning hahead =>
    have hpresent := (@slotShape cfg i (base ++ ops)).present
    rcases Option.isSome_iff_exists.1 (hpresent.2 (.inl hplanning)) with ⟨chain, hchain⟩
    have hlast := hahead chain hchain
    have hnext : tick < chain.lastTarget + streamCount := Nat.lt_add_right _ hlast
    rcases extendChain_extended (extensionInv i (base ++ ops)) hplanning hchain env htick hnext with
      ⟨chain', signed, hextended⟩
    have hkind : ∀ call, Effect.signed call ∈ signed.map Effect.signed →
        call.kind = .revealAndCommit := by
      intro call hmem
      rcases List.mem_map.1 hmem with ⟨_, hcall, ⟨⟩⟩
      exact hextended.continues.kind call hcall
    refine h.snoc hextended.slot hextended.effects (by simp) (.planning hplanning ?_) ?_ ?_ ?_
      (by simp) (by simp)
    · rintro _ ⟨⟩
      have hcomplete := (hextended.complete hok).2
      simp only [sendLeadTicks, streamCount] at hcomplete
      omega
    · rintro _ ⟨⟩ call hmem hfirst
      rw [hextended.continues.calls] at hmem
      rw [hextended.continues.first] at hfirst
      rcases List.mem_append.1 hmem with hold | hnew
      · exact h.own chain hchain call hold hfirst
      · -- a continuation lies three ticks past the last call, which is ahead
        rcases List.mem_map.1 hnew with ⟨call', hcall', rfl⟩
        have hin := List.mem_map_of_mem (f := SignedCall.targetTick) hcall'
        rw [hextended.continues.targets] at hin
        rcases List.mem_map.1 hin with ⟨k, -, htarget⟩
        refine .waiting rfl rfl ?_
        show tick + 1 < call'.targetTick
        rw [← htarget]
        simp only [Chain.continuation, streamCount]
        omega
    · intro call hmem
      rw [hkind call hmem]
      simp
    · apply failures_eq_nil
      intro target hmem
      rcases List.mem_map.1 hmem with ⟨_, -, ⟨⟩⟩

/-- Nothing on course expires. -/
theorem OnCourse.expire {tick : Nat}
    (h : OnCourse cfg i base (PlannedCall.Primed tick) ahead planned ops) :
    OnCourse cfg i base (PlannedCall.Primed tick) ahead planned (ops ++ [.expireCalls tick]) := by
  by_cases hopen : ((slotMachine cfg).state (slot₀ cfg i) (base ++ ops)).state = .drained .accepted
  · exact h.drained (by nofun) hopen
  · refine h.map (by nofun) (by rfl) hopen (f := fun chain => expireCall tick chain.firstTarget) ?_ ?_
      fun call hprimed => hprimed.unfailed
    · intro chain hchain
      have hnone : expiredCalls tick chain.firstTarget chain.calls = [] := by
        apply List.filter_eq_nil_iff.2
        intro call hmem hexpired
        have hstate := of_decide_eq_true hexpired
        exact ((h.own chain hchain call hmem (expiryOf_expired hstate)).expire _).1 hstate
      simp [SlotOp.run, RandomClient.expireCalls, hchain, hnone]
    · intro chain hchain call hmem
      refine ⟨(expireCall_keeps _ _ call).target, ?_⟩
      intro hfirst
      exact ((h.own chain hchain call hmem hfirst).expire _).2

/-- A draining slot ends its queue with its terminal reveal. -/
theorem SlotShape.terminal {stream : Nat} {slot : ManagedSlot} (h : SlotShape stream slot)
    (hdraining : slot.state.isDraining = true) : ∃ reason chain normal terminal,
      slot.state = .draining reason terminal.targetTick ∧ slot.chain = some chain ∧
      chain.calls = normal ++ [terminal] ∧ terminal.kind = .terminalReveal ∧
        ∀ call ∈ normal, call.kind ≠ .terminalReveal ∧
          call.targetTick + streamCount ≤ terminal.targetTick := by
  cases hstate : slot.state with
  | draining reason target =>
    rcases h.draining reason target hstate with
      ⟨chain, normal, terminal, hchain, -, hcalls, hkind, htarget, hothers⟩
    refine ⟨reason, chain, normal, terminal, by rw [htarget], hchain, hcalls, hkind, ?_⟩
    intro call hmem
    refine ⟨hothers call hmem, ?_⟩
    -- targets increase along the queue, and all are of the stream
    have hincreasing := h.increasing
    have hstream := h.stream
    rw [queue_of_chain hchain, hcalls] at hincreasing hstream
    rw [List.map_append, List.pairwise_append] at hincreasing
    have hlt := hincreasing.2.2 _ (List.mem_map_of_mem hmem) terminal.targetTick (by simp)
    have hcall := hstream call (by simp [hmem])
    have hterminal := hstream terminal (by simp)
    simp only [streamCount] at hcall hterminal ⊢
    omega
  | _ =>
    rw [hstate] at hdraining
    cases hdraining

/-- Inside its window a terminal reveal finds the other calls of its chain accepted. -/
theorem OnCourse.terminalReady {tick : Nat}
    (h : OnCourse cfg i base (PlannedCall.Primed tick) ahead planned ops) {chain : Chain}
    (hchain : ((slotMachine cfg).state (slot₀ cfg i) (base ++ ops)).chain = some chain)
    {call : PlannedCall} (hmem : call ∈ chain.calls) (hkind : call.kind = .terminalReveal)
    (hwindow : call.targetTick ≤ tick + revealSendLeadTicks) :
    RandomClient.terminalReady ((slotMachine cfg).state (slot₀ cfg i) (base ++ ops)).state chain =
      true := by
  have hshape := @slotShape cfg i (base ++ ops)
  have hdraining := (hshape.terminal_target hchain (slotMachine_regular i _ hchain) hmem hkind).1
  rcases hshape.terminal hdraining with
    ⟨reason, chain', normal, terminal, hstate, hchain', hcalls, -, hothers⟩
  cases hchain.symm.trans hchain'
  have hcall : call = terminal := by
    rw [hcalls] at hmem
    rcases List.mem_append.1 hmem with hnormal | hlast
    · exact absurd hkind (hothers call hnormal).1
    · exact List.mem_singleton.1 hlast
  rw [hcall] at hkind hwindow
  simp only [RandomClient.terminalReady, hstate, List.all_eq_true, decide_eq_true_eq]
  intro other hother
  rcases Nat.lt_or_ge other.targetTick chain.firstTarget with hretained | hfirst
  · exact .inl hretained
  · have hprimed := h.own chain hchain other hother hfirst
    rw [hcalls] at hother
    rcases List.mem_append.1 hother with hnormal | hlast
    · -- three ticks before the terminal reveal, and two ahead unless accepted
      cases hprimed with
      | accepted haccepted => exact .inr (.inr (.inr haccepted))
      | waiting _ _ hahead =>
        have hspace := (hothers other hnormal).2
        simp only [streamCount, revealSendLeadTicks] at hspace hwindow
        omega
    · rw [List.mem_singleton.1 hlast]
      exact .inr (.inl hkind)

/-- The dispatch of a cycle, by the targets it hands over. -/
theorem OnCourse.dispatch {tick : Nat}
    (h : OnCourse cfg i base (PlannedCall.Primed tick) ahead planned ops) (hrange : InRange tick)
    (tickDurationMs : Nat) {sent : List Nat}
    (hsent : ∀ target ∈ handedTargets ((SlotOp.dispatchCalls tick tickDurationMs).run cfg
      ((slotMachine cfg).state (slot₀ cfg i) (base ++ ops))).effects, target ∈ sent) :
    OnCourse cfg i base (PlannedCall.OnTime tick sent) ahead planned
      (ops ++ [.dispatchCalls tick tickDurationMs]) := by
  by_cases hopen : ((slotMachine cfg).state (slot₀ cfg i) (base ++ ops)).state = .drained .accepted
  · exact h.drained (by nofun) hopen
  · let ctx := dispatchContext tick ((slotMachine cfg).state (slot₀ cfg i) (base ++ ops)).state
    refine h.map (by nofun) (by rfl) hopen (f := fun chain => dispatchCall (ctx chain) tickDurationMs)
      ?_ ?_ fun call hontime => hontime.unfailed
    · intro chain hchain
      simp only [SlotOp.run, RandomClient.dispatchCalls, hchain, ctx]
    · intro chain hchain call hmem
      refine ⟨(dispatchCall_keeps _ _ call).target, ?_⟩
      intro hfirst
      apply (h.own chain hchain call hmem hfirst).dispatch hrange rfl
      · exact h.terminalReady hchain hmem
      · intro hsend
        apply hsent
        simp only [SlotOp.run, RandomClient.dispatchCalls, hchain]
        refine List.mem_filterMap.2 ⟨.handed tick call.targetTick call.kind false
          (broadcastTask tick tickDurationMs call), ?_, rfl⟩
        apply List.mem_append_left
        refine List.mem_flatMap.2 ⟨call, hmem, ?_⟩
        unfold dispatchEffects
        rw [hsend]
        exact List.mem_append_right _ (List.mem_singleton_self _)

/-- A call of the running chain was accepted, or is queued as a call of the chain. -/
theorem accepted_or_queued (i : Fin 3) (ops : List SlotOp) {chain : Chain}
    (hchain : ((slotMachine cfg).state (slot₀ cfg i) ops).chain = some chain) {signed : SignedCall}
    (hmem : signed ∈ currentChain ((slotMachine cfg).trace (slot₀ cfg i) ops)) :
    AcceptedIn ((slotMachine cfg).trace (slot₀ cfg i) ops) signed.targetTick ∨
      ∃ call ∈ chain.calls, chain.firstTarget ≤ call.targetTick ∧
        call.targetTick = signed.targetTick ∧ (call.state = .accepted →
          AcceptedIn ((slotMachine cfg).trace (slot₀ cfg i) ops) signed.targetTick) := by
  have hinv := (slotMachine_run i ops : SlotRun cfg (slot₀ cfg i) _ _).slotInv
  rcases hinv.queue.own (by rw [hchain]; rfl) signed hmem with haccepted | ⟨call, hqueued, hrecords⟩
  · exact .inl haccepted
  · right
    rcases hinv.planned with ⟨p, hrepresents, hplan⟩
    have hfirst := hplan.first_le (hrepresents.hasChain hchain) hmem
    have hiff := hinv.queue.accepted call hqueued
    rw [queue_of_chain hchain] at hqueued
    refine ⟨call, hqueued, ?_, hrecords.target.symm, ?_⟩
    · rw [← hrecords.target]
      exact hfirst
    · rw [hrecords.target]
      exact hiff.1

/-- A primed call that came due was accepted. -/
theorem OnCourse.accepted_by {tick : Nat}
    (h : OnCourse cfg i base (PlannedCall.Primed tick) ahead planned ops) {signed : SignedCall}
    (hmem : signed ∈ currentChain ((slotMachine cfg).trace (slot₀ cfg i) (base ++ ops)))
    (hdue : signed.targetTick ≤ tick) :
    AcceptedIn ((slotMachine cfg).trace (slot₀ cfg i) (base ++ ops)) signed.targetTick := by
  cases hchain : ((slotMachine cfg).state (slot₀ cfg i) (base ++ ops)).chain with
  | none => exact h.closed hchain signed hmem
  | some chain =>
    rcases accepted_or_queued i (base ++ ops) hchain hmem with
      haccepted | ⟨call, hqueued, hfirst, htarget, haccepted⟩
    · exact haccepted
    · cases h.own chain hchain call hqueued hfirst with
      | accepted hstate => exact haccepted hstate
      | waiting _ _ hahead => omega

/-- The drain ends when the terminal reveal was accepted, and not before. -/
theorem OnCourse.finishDrain {tick : Nat} {sent : List Nat}
    (h : OnCourse cfg i base (PlannedCall.OnTime tick sent) ahead planned ops) :
    OnCourse cfg i base (PlannedCall.OnTime tick sent) ahead planned (ops ++ [.finishDrain]) ∧
      ∀ reason target, ((slotMachine cfg).state (slot₀ cfg i)
        (base ++ (ops ++ [.finishDrain]))).state = .draining reason target → tick < target := by
  have hidle : RandomClient.finishDrain ((slotMachine cfg).state (slot₀ cfg i) (base ++ ops)) =
      { slot := (slotMachine cfg).state (slot₀ cfg i) (base ++ ops) } →
      OnCourse cfg i base (PlannedCall.OnTime tick sent) ahead planned (ops ++ [.finishDrain]) := by
    intro hsame
    exact h.idle (by simp) hsame
  rw [← List.append_assoc, slotMachine_state_snoc]
  show _ ∧ ∀ reason target, (RandomClient.finishDrain
    ((slotMachine cfg).state (slot₀ cfg i) (base ++ ops))).slot.state = _ → _
  cases hstage : h.stage with
  | planning hplanning =>
    have hstill : RandomClient.finishDrain ((slotMachine cfg).state (slot₀ cfg i) (base ++ ops)) =
        { slot := (slotMachine cfg).state (slot₀ cfg i) (base ++ ops) } := by
      unfold RandomClient.finishDrain
      rw [if_neg (by rw [not_draining_of_planning hplanning]; decide)]
    refine ⟨hidle hstill, ?_⟩
    intro reason target hdraining
    rw [hstill] at hdraining
    dsimp only at hdraining
    rw [hdraining] at hplanning
    cases hplanning
  | drained hdrained =>
    have hstill : RandomClient.finishDrain ((slotMachine cfg).state (slot₀ cfg i) (base ++ ops)) =
        { slot := (slotMachine cfg).state (slot₀ cfg i) (base ++ ops) } := by
      simp [RandomClient.finishDrain, hdrained, SlotState.isDraining]
    refine ⟨hidle hstill, ?_⟩
    intro reason target hdraining
    rw [hstill] at hdraining
    cases hdrained.symm.trans hdraining
  | draining hdraining =>
    have hshape := @slotShape cfg i (base ++ ops)
    rcases hshape.terminal hdraining with
      ⟨reason, chain, normal, terminal, hstate, hchain, hcalls, hkind, hothers⟩
    have hmem : terminal ∈ chain.calls := by simp [hcalls]
    have hfirst := (hshape.terminal_target hchain (slotMachine_regular i _ hchain) hmem hkind).2
    have hterminal := h.own chain hchain terminal hmem hfirst
    have hfinish := finishDrain_terminal hdraining hchain hcalls hkind fun call hcall =>
      (hothers call hcall).1
    have hstill : terminal.state ≠ .accepted → terminal.state ≠ .failed → tick < terminal.targetTick →
        OnCourse cfg i base (PlannedCall.OnTime tick sent) ahead false (ops ++ [.finishDrain]) ∧
          ∀ reason target, (RandomClient.finishDrain
            ((slotMachine cfg).state (slot₀ cfg i) (base ++ ops))).slot.state =
              .draining reason target → tick < target := by
      intro hnot hunfailed hahead
      have hsame : RandomClient.finishDrain ((slotMachine cfg).state (slot₀ cfg i) (base ++ ops)) =
          { slot := (slotMachine cfg).state (slot₀ cfg i) (base ++ ops) } := by
        rw [hfinish]
        split
        · exact absurd ‹_› hnot
        · exact absurd ‹_› hunfailed
        · rfl
      refine ⟨hidle hsame, ?_⟩
      intro reason' target hstate'
      rw [hsame] at hstate'
      cases hstate.symm.trans hstate'
      exact hahead
    cases hterminal with
    | sent hsent _ _ hahead =>
      apply hstill _ _ hahead
      · rw [hsent]
        simp
      · rw [hsent]
        simp
    | waiting hready _ hahead =>
      apply hstill
      · rw [hready]
        simp
      · rw [hready]
        simp
      · omega
    | accepted haccepted =>
      rw [haccepted] at hfinish
      have hstate' : (RandomClient.finishDrain
          ((slotMachine cfg).state (slot₀ cfg i) (base ++ ops))).slot.state = .drained .accepted := by
        rw [hfinish]
        rfl
      refine ⟨?_, ?_⟩
      · have hnotes : ∀ e ∈ abortChain ((slotMachine cfg).state (slot₀ cfg i) (base ++ ops)).chain,
            e.isNote = true := fun e he => abortChain_notes he
        have hcurrent := currentChain_append_of_not_plan (planEffects_notes hnotes)
          ((slotMachine cfg).trace (slot₀ cfg i) (base ++ ops))
        refine h.snoc (congrArg SlotResult.slot hfinish) (congrArg SlotResult.effects hfinish)
          (by simp) (.drained rfl) (fun _ h => by cases h) ?_ (failures_abortChain _) ?_ ?_
        · intro call hsigned
          cases hnotes _ hsigned
        · intro hplanned
          rcases h.terminal hplanned with ⟨call, hcall, hcallKind, -⟩
          refine ⟨call, ?_, hcallKind, by simp [completeDrain]⟩
          show call ∈ currentChain (_ ++ abortChain _)
          rw [hcurrent]
          exact hcall
        · intro _ call hcall
          change call ∈ currentChain (_ ++ abortChain _) at hcall
          rw [hcurrent] at hcall
          refine (acceptedIn_notes hnotes _ _).2 ?_
          rcases accepted_or_queued i (base ++ ops) hchain hcall with
            hdone | ⟨queued, hqueued, hle, -, himplies⟩
          · exact hdone
          · apply himplies
            by_cases hother : queued.kind = .terminalReveal
            · rw [hcalls] at hqueued
              rcases List.mem_append.1 hqueued with hnormal | hlast
              · exact absurd hother (hothers queued hnormal).1
              · rw [List.mem_singleton.1 hlast]
                exact haccepted
            · exact terminalCleared_of_ops i (base ++ ops) chain terminal hchain hmem hkind
                (by rw [haccepted]; simp) queued hqueued hle hother
      · intro reason' target hdraining'
        cases hstate'.symm.trans hdraining'

/-- A chain that is planned, or closing, is not frozen. -/
theorem OnCourse.finishStatusRestart_idle (h : OnCourse cfg i base P ahead planned ops)
    (currentTick : Nat) : (SlotOp.finishStatusRestart currentTick).run cfg
      ((slotMachine cfg).state (slot₀ cfg i) (base ++ ops)) =
        { slot := (slotMachine cfg).state (slot₀ cfg i) (base ++ ops) } := by
  simp only [SlotOp.run, RandomClient.finishStatusRestart]
  split
  · rename_i hrestarting
    cases h.stage with
    | planning hstate =>
      rw [hrestarting] at hstate
      cases hstate
    | draining hstate =>
      rw [hrestarting] at hstate
      cases hstate
    | drained hstate => cases hrestarting.symm.trans hstate
  · rfl

/-- Pruning forgets accepted and older calls only. -/
theorem OnCourse.prune (h : OnCourse cfg i base P ahead planned ops) (currentTick : Nat)
    (hP : ∀ call, P call → call.state ≠ .failed) :
    OnCourse cfg i base P ahead planned (ops ++ [.pruneCalls currentTick]) := by
  by_cases hopen : ((slotMachine cfg).state (slot₀ cfg i) (base ++ ops)).state = .drained .accepted
  · exact h.drained (by simp) hopen
  · rcases (h.open_cases hopen).2 with ⟨-, hplanning⟩ | ⟨-, hdraining⟩
    · refine h.sweep (by simp) hopen rfl (SlotOp.unsigned_of_quiet (by rfl) _)
        (.inl (pruneCalls_state _ _)) ?_ hP
      intro chain hchain
      simp only [SlotOp.run, RandomClient.pruneCalls, not_draining_of_planning hplanning,
        Bool.false_eq_true, if_false, hchain]
      refine ⟨_, rfl, rfl, ?_⟩
      intro call hmem hfirst
      exact h.own chain hchain call (List.mem_filter.1 hmem).1 hfirst
    · exact h.idle (by simp) (SlotOp.draining_idle hdraining (by simp) (by simp) (by simp) (by simp) (by simp))

/-- The delivery of a cycle, by the targets it hands over. A drain that goes on
after it waits for a later tick. -/
theorem OnCourse.deliver {tick : TickInfo}
    (h : OnCourse cfg i base (PlannedCall.Primed tick.tick) ahead planned ops)
    (hrange : InRange tick.tick) {sent : List Nat}
    (hsent : ∀ target ∈ handedTargets ((slotMachine cfg).trace
      ((slotMachine cfg).state (slot₀ cfg i) (base ++ ops)) (deliveryOps tick)), target ∈ sent) :
    OnCourse cfg i base (PlannedCall.OnTime tick.tick sent) ahead planned
        (ops ++ deliveryOps tick) ∧
      ∀ reason target, ((slotMachine cfg).state (slot₀ cfg i)
        (base ++ (ops ++ deliveryOps tick))).state = .draining reason target →
          tick.tick < target := by
  have hexpired := h.expire
  have hdispatched : OnCourse cfg i base (PlannedCall.OnTime tick.tick sent) ahead planned
      (ops ++ [.expireCalls tick.tick] ++ [.dispatchCalls tick.tick tick.tickDurationMs]) := by
    apply hexpired.dispatch hrange
    intro target hmem
    apply hsent
    rcases List.mem_filterMap.1 hmem with ⟨e, he, htarget⟩
    refine List.mem_filterMap.2 ⟨e, ?_, htarget⟩
    rw [← List.append_assoc, slotMachine_state_snoc] at he
    show e ∈ _ ++ (_ ++ _)
    exact List.mem_append_right _ (List.mem_append_left _ he)
  rcases hdispatched.finishDrain with ⟨hfinished, hahead⟩
  have hsettled := hfinished.idle (by nofun) (hfinished.finishStatusRestart_idle tick.tick)
  have hpruned := hsettled.prune tick.tick fun call hontime => hontime.unfailed
  simp only [List.append_assoc, List.cons_append, List.nil_append] at hpruned
  refine ⟨hpruned, ?_⟩
  intro reason target hdraining
  apply hahead reason target
  rw [← hdraining]
  have hsplit : base ++ (ops ++ deliveryOps tick) = base ++ (ops ++ [.expireCalls tick.tick] ++
      [.dispatchCalls tick.tick tick.tickDurationMs] ++ [.finishDrain]) ++
        [.finishStatusRestart tick.tick] ++ [.pruneCalls tick.tick] := by
    simp [deliveryOps]
  rw [hsplit, slotMachine_state_snoc, slotMachine_state_snoc,
    hfinished.finishStatusRestart_idle tick.tick]
  exact (pruneCalls_state _ _).symm

/-! ## The start of a chain -/

/-- The one call of a start opens a chain at least six ticks ahead. -/
theorem startIfReady_opens {env : SigningEnv} {currentTick : Nat} {slot : ManagedSlot}
    {call : SignedCall}
    (h : Effect.signed call ∈ (RandomClient.startIfReady cfg env currentTick slot).effects) :
    call.kind = .firstCommit ∧ currentTick + sendLeadTicks ≤ call.targetTick ∧
      (RandomClient.startIfReady cfg env currentTick slot).effects = [.signed call] ∧
      ∃ next, (RandomClient.startIfReady cfg env currentTick slot).slot = { slot with
        chain := some (freshChain slot.queue call next)
        state := .starting call.targetTick } := by
  unfold RandomClient.startIfReady at h ⊢
  split at h
  · rename_i hready
    rw [if_pos hready]
    split at h
    · cases h
    · rename_i lead hlead
      rcases Bounded.checkedAdd_eq_some.1 hlead with ⟨rfl, -⟩
      split at h
      · cases h
      · rename_i target htarget
        dsimp only at h ⊢
        split at h
        · cases h
        · rw [List.mem_singleton, Effect.signed.injEq] at h
          rcases Bounded.checkedAdd_eq_some.1 htarget with ⟨hsum, -⟩
          have hlead : currentTick + sendLeadTicks ≤ target := by
            rw [← hsum]
            exact (le_max_left _ _).trans (Nat.le_add_right _ _)
          rw [h]
          exact ⟨rfl, hlead, rfl, _, rfl⟩
  · cases h

/-- The chain of a first commit is on course. What was done since `base` signed nothing. -/
theorem OnCourse.opened {pre : List SlotOp} {env : SigningEnv} {tick : Nat} {first : SignedCall}
    (hunsigned : signedCalls ((slotMachine cfg).trace
      ((slotMachine cfg).state (slot₀ cfg i) base) pre) = [])
    (hsigned : Effect.signed first ∈ (RandomClient.startIfReady cfg env tick
      ((slotMachine cfg).state (slot₀ cfg i) (base ++ pre))).effects) :
    OnCourse cfg i base (PlannedCall.Primed tick) tick true (pre ++ [.startIfReady env tick]) := by
  rcases startIfReady_opens hsigned with ⟨hkind, hlead, heffects, next, hslot⟩
  simp only [sendLeadTicks] at hlead
  have hshape := @slotShape cfg i (base ++ pre ++ [.startIfReady env tick])
  have hstate : (slotMachine cfg).state (slot₀ cfg i) (base ++ (pre ++ [.startIfReady env tick])) =
      { (slotMachine cfg).state (slot₀ cfg i) (base ++ pre) with
        chain := some (freshChain ((slotMachine cfg).state (slot₀ cfg i) (base ++ pre)).queue first next)
        state := .starting first.targetTick } := by
    rw [← List.append_assoc, slotMachine_state_snoc]
    exact hslot
  have htrace : (slotMachine cfg).trace (slot₀ cfg i) (base ++ (pre ++ [.startIfReady env tick])) =
      (slotMachine cfg).trace (slot₀ cfg i) (base ++ pre) ++ [.signed first] := by
    rw [← List.append_assoc, slotMachine_trace_snoc]
    exact congrArg _ heffects
  rw [List.append_assoc, hstate] at hshape
  refine ⟨?_, ?_, ?_, ?_, by simp, ?_⟩
  · rw [hstate]
    refine .planning rfl ?_
    rintro _ ⟨⟩
    show tick < first.targetTick
    omega
  · rw [hstate]
    rintro _ ⟨⟩ call hmem hfirst
    rcases List.mem_append.1 hmem with hold | hnew
    · -- older calls lie before the first target
      have hincreasing := hshape.increasing
      rw [queue_of_chain rfl] at hincreasing
      simp only [freshChain, List.map_append] at hincreasing
      have hlt := (List.pairwise_append.1 hincreasing).2.2 _ (List.mem_map_of_mem hold)
        first.targetTick (by simp [SignedCall.planned])
      change first.targetTick ≤ call.targetTick at hfirst
      omega
    · rw [List.mem_singleton.1 hnew]
      refine .waiting rfl rfl ?_
      show tick + 1 < first.targetTick
      omega
  · rw [htrace]
    exact chainFailures_of_started (List.mem_singleton_self _) (by simp [Effect.starts, hkind]) rfl _
  · rw [htrace, currentChain_first hkind, slotMachine_trace_snoc, ← Machine.state_append,
      signedCalls_append, hunsigned]
    show [first] = [] ++ signedCalls (RandomClient.startIfReady cfg env tick _).effects
    rw [heffects]
    rfl
  · rw [hstate]
    simp

/-! ## One cycle -/

/-- What a cycle reads, three ticks after the last one at most. -/
theorem OnCourse.reads {last next : Nat} {sent : List Nat}
    (h : OnCourse cfg i base (PlannedCall.OnTime last sent) (last + 3) planned ops)
    (hpace : next ≤ last + 3) {results : Nat → Option Delivery}
    (hok : ∀ target ∈ sent, results target = some .ok) (observation : Option StatusObservation)
    (epoch : Nat)
    (hfree : ∀ tail restarting, Effect.froze tail restarting ∉ (slotMachine cfg).trace
      ((slotMachine cfg).state (slot₀ cfg i) (base ++ ops))
        ([.harvestBroadcasts results] ++ statusOps observation epoch)) :
    OnCourse cfg i base (PlannedCall.Primed next) next planned
      (ops ++ ([.harvestBroadcasts results] ++ statusOps observation epoch)) := by
  have hharvested := (h.harvest hpace hok).mono (fun _ hcall => hcall) hpace
  rw [← List.append_assoc]
  unfold statusOps at hfree ⊢
  split
  · split
    · rename_i observation _
      refine hharvested.applyStatus observation ?_ fun call hprimed => hprimed.unfailed
      intro tail restarting hmem
      apply hfree tail restarting
      dsimp only
      rw [if_pos ‹_›, Machine.trace_append, ← Machine.state_append, List.append_assoc]
      exact List.mem_append_right _ (List.mem_append_left _ hmem)
    · rw [List.append_nil]
      exact hharvested
  · rw [List.append_nil]
    exact hharvested

/-- What a cycle plans. A drain ends the planning. -/
theorem OnCourse.plans {tick : TickInfo}
    (h : OnCourse cfg i base (PlannedCall.Primed tick.tick) tick.tick planned ops)
    (hrange : InRange tick.tick) {plan : Plan} (hplan : plan ≠ .none) {env : SigningEnv}
    (hok : failsOn cfg ((slotMachine cfg).state (slot₀ cfg i) (base ++ ops))
      (planOps plan tick env) = false) :
    OnCourse cfg i base (PlannedCall.Primed tick.tick) (tick.tick + 3)
      (planned && decide (plan = .normal)) (ops ++ planOps plan tick env) := by
  unfold InRange at hrange
  cases plan with
  | none => exact absurd rfl hplan
  | drain reason =>
    simp only [planOps, failsOn, Bool.or_false] at hok
    have herror := Option.isNone_iff_eq_none.1 (Option.isSome_eq_false_iff.1 hok)
    rw [show (planned && decide (Plan.drain reason = .normal)) = false by simp]
    apply h.enterDrain env reason herror
    intro call hstate htask hahead
    refine .waiting hstate htask ?_
    simp only [streamCount] at hahead
    omega
  | normal =>
    simp only [planOps, failsOn, Bool.or_false, Bool.or_eq_false_iff] at hok
    have hstarted := h.startIfReady env tick.tick
    have herror := Option.isNone_iff_eq_none.1 (Option.isSome_eq_false_iff.1 hok.2)
    have hextended := hstarted.extendChain env (by simp only [sendLeadTicks]; omega) (by
      rw [← List.append_assoc, slotMachine_state_snoc]
      exact herror)
    rw [List.append_assoc] at hextended
    rw [show (planned && decide (Plan.normal = .normal)) = planned by simp]
    exact hextended

end OnCourse

end RandomClient
