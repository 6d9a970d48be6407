import RandomClient.Run
import RandomClient.Shape
import RandomClient.Windows

/-!
# The drain of a stream

What becomes of a slot from the moment the shutdown drain is entered. A slot
that was managed then goes through stages (`DrainStage`): it waits for its own
entry, then drains, and ends accepted or failed; a slot that failed stays so.
Only a reset takes a slot back, and only a freeze keeps it from its entry
(`DrainSafe`).

A stream that drains for the epoch already keeps that reason. What it loses
stays on record (`LossStage`) unless a reset erases it, or its terminal reveal
is repeated after a failed attempt and accepted then (`LossSafe`).
-/

namespace RandomClient

variable {cfg : Config}

/-! ## Terminal reveals in a trace -/

/-- The first broadcast of a terminal reveal finished with the result. -/
def Effect.endsTerminal (result : Delivery) : Effect → Bool
  | .harvested _ .terminalReveal false joined => joined = result
  | _ => false

theorem any_endsTerminal {t : List Effect} {result : Delivery} :
    t.any (Effect.endsTerminal result) = true ↔
      ∃ target, Effect.harvested target .terminalReveal false result ∈ t := by
  rw [List.any_eq_true]
  constructor
  · rintro ⟨effect, hmem, heffect⟩
    unfold Effect.endsTerminal at heffect
    split at heffect
    · rw [← of_decide_eq_true heffect]
      exact ⟨_, hmem⟩
    · cases heffect
  · rintro ⟨target, hmem⟩
    exact ⟨_, hmem, decide_eq_true rfl⟩

/-- The backend accepted a terminal reveal. -/
def TerminalAccepted (t : List Effect) : Prop :=
  ∃ target, Effect.harvested target .terminalReveal false .ok ∈ t

instance (t : List Effect) : Decidable (TerminalAccepted t) :=
  decidable_of_iff _ any_endsTerminal

/-- An attempt to send a terminal reveal failed. -/
def TerminalFailed (t : List Effect) : Prop :=
  ∃ target, Effect.harvested target .terminalReveal false .err ∈ t

instance (t : List Effect) : Decidable (TerminalFailed t) :=
  decidable_of_iff _ any_endsTerminal

theorem TerminalFailed.append {t : List Effect} (h : TerminalFailed t) (u : List Effect) :
    TerminalFailed (t ++ u) := by
  rcases h with ⟨target, hmem⟩
  exact ⟨target, List.mem_append_left u hmem⟩

/-- No first attempt of a terminal reveal finished. -/
def NoTerminal (u : List Effect) : Prop :=
  ∀ target result, Effect.harvested target .terminalReveal false result ∉ u

/-- Such effects add no finished attempt to a trace. -/
theorem NoTerminal.joined {u : List Effect} (h : NoTerminal u) (t : List Effect)
    (result : Delivery) :
    (∃ target, Effect.harvested target .terminalReveal false result ∈ t ++ u) ↔
      ∃ target, Effect.harvested target .terminalReveal false result ∈ t := by
  constructor
  · rintro ⟨target, hmem⟩
    rcases List.mem_append.1 hmem with hmem | hmem
    · exact ⟨target, hmem⟩
    · exact absurd hmem (h target result)
  · rintro ⟨target, hmem⟩
    exact ⟨target, List.mem_append_left u hmem⟩

theorem NoTerminal.accepted {u : List Effect} (h : NoTerminal u) (t : List Effect) :
    TerminalAccepted (t ++ u) ↔ TerminalAccepted t :=
  h.joined t .ok

theorem NoTerminal.failed {u : List Effect} (h : NoTerminal u) (t : List Effect) :
    TerminalFailed (t ++ u) ↔ TerminalFailed t :=
  h.joined t .err

/-- Only a harvest joins tasks. -/
theorem SlotOp.noTerminal {op : SlotOp} (h : ∀ results, op ≠ .harvestBroadcasts results)
    (slot : ManagedSlot) : NoTerminal (op.run cfg slot).effects := by
  intro target result hmem
  rcases SlotOp.emits hmem with hnote | hemits
  · cases hnote
  · cases hemits
    exact h _ rfl

/-! ## The drain of a slot -/

/-- A slot that drains for the shutdown, with its terminal reveal at the end of
the queue. -/
structure DrainProgress (slot : ManagedSlot) (t : List Effect) (chain : Chain)
    (normal : List PlannedCall) (terminal : PlannedCall) : Prop where
  state : slot.state = .draining .shutdown terminal.targetTick
  present : slot.chain = some chain
  queue : chain.calls = normal ++ [terminal]
  kind : terminal.kind = .terminalReveal
  first : chain.firstTarget ≤ terminal.targetTick
  others : ∀ call ∈ normal, call.kind ≠ .terminalReveal ∧ call.targetTick < terminal.targetTick
  task : terminal.TaskOk
  accepted : terminal.state = .accepted ↔ TerminalAccepted t
  failed : TerminalFailed t → terminal.state = .failed
  /-- The terminal reveal goes out after the other calls of the chain were accepted. -/
  cleared : terminal.state = .broadcasting ∨ terminal.state = .accepted →
    ∀ call ∈ normal, chain.firstTarget ≤ call.targetTick → call.state = .accepted

/-- How far a stream is that was managed when the shutdown drain was entered. -/
inductive DrainStage (slot : ManagedSlot) (t : List Effect) : Prop where
  | managed (hstate : slot.state.isPlanning = true) (haccepted : ¬ TerminalAccepted t)
      (hfailed : ¬ TerminalFailed t) : DrainStage slot t
  | draining {chain : Chain} {normal : List PlannedCall} {terminal : PlannedCall}
      (h : DrainProgress slot t chain normal terminal) : DrainStage slot t
  | accepted (hstate : slot.state ≠ .drained .failed) (hchain : slot.chain = none)
      (haccepted : TerminalAccepted t) (hfailed : ¬ TerminalFailed t) : DrainStage slot t
  | failed (hstate : slot.state = .drained .failed) (hchain : slot.chain = none)
      (haccepted : ¬ TerminalAccepted t) : DrainStage slot t

section Draining

variable {slot : ManagedSlot} {t : List Effect} {chain : Chain} {normal : List PlannedCall}
  {terminal : PlannedCall}

/-- A sweep that keeps what was signed and does not accept or revive calls. -/
theorem DrainProgress.sweep (h : DrainProgress slot t chain normal terminal) {u : List Effect}
    {f : PlannedCall → PlannedCall} (hkeeps : ∀ call : PlannedCall, call.Keeps (f call))
    (hquiet : NoTerminal u) (htask : (f terminal).TaskOk)
    (haccepted : ∀ call ∈ chain.calls, (f call).state = .accepted ↔ call.state = .accepted)
    (hfailed : terminal.state = .failed → (f terminal).state = .failed)
    (hcleared : (f terminal).state = .broadcasting → terminal.state = .broadcasting ∨
      ∀ call ∈ normal, chain.firstTarget ≤ call.targetTick → call.state = .accepted) :
    DrainProgress { slot with chain := some { chain with calls := chain.calls.map f } } (t ++ u)
      { chain with calls := chain.calls.map f } (normal.map f) (f terminal) where
  state := by rw [(hkeeps terminal).target]; exact h.state
  present := rfl
  queue := by simp [h.queue]
  kind := (hkeeps terminal).kind.trans h.kind
  first := by rw [(hkeeps terminal).target]; exact h.first
  others := by
    intro call hmem
    rcases List.mem_map.1 hmem with ⟨old, hold, rfl⟩
    rw [(hkeeps old).kind, (hkeeps old).target, (hkeeps terminal).target]
    exact h.others old hold
  task := htask
  accepted := by
    rw [hquiet.accepted, haccepted terminal (by simp [h.queue])]
    exact h.accepted
  failed hfail := hfailed (h.failed ((hquiet.failed t).1 hfail))
  cleared := by
    intro hstate call hmem hfirst
    rcases List.mem_map.1 hmem with ⟨old, hold, rfl⟩
    rw [(hkeeps old).target] at hfirst
    rw [haccepted old (by simp [h.queue, hold])]
    rcases hstate with hstate | hstate
    · rcases hcleared hstate with hbefore | hall
      · exact h.cleared (.inl hbefore) old hold hfirst
      · exact hall old hold hfirst
    · rw [haccepted terminal (by simp [h.queue])] at hstate
      exact h.cleared (.inr hstate) old hold hfirst

/-- What a harvest joins of the terminal reveal. -/
theorem DrainProgress.harvested (h : DrainProgress slot t chain normal terminal)
    (results : Nat → Option Delivery) (result : Delivery) :
    (∃ target, Effect.harvested target .terminalReveal false result ∈
      (harvestBroadcasts results slot).effects) ↔
      Effect.harvested terminal.targetTick .terminalReveal false result ∈
        harvestEffects true results terminal := by
  have hshutdown : slot.state.isShutdownDrain = true := by rw [h.state]; rfl
  unfold harvestBroadcasts
  rw [h.present]
  simp only [hshutdown, List.mem_append, List.mem_map, reduceCtorEq, and_false, exists_false,
    or_false]
  rw [h.queue]
  constructor
  · rintro ⟨target, hmem⟩
    rcases List.mem_flatMap.1 hmem with ⟨call, hcall, he⟩
    have hshape : ∃ redundant result', Effect.harvested target .terminalReveal false result =
        .harvested call.targetTick call.kind redundant result' := by
      unfold harvestEffects at he
      split at he
      · cases he
      all_goals exact ⟨_, _, List.mem_singleton.1 he⟩
    rcases hshape with ⟨_, _, heq⟩
    rcases List.mem_append.1 hcall with hnormal | hlast
    · -- the other calls are not terminal
      injection heq with _ hkind
      exact absurd hkind.symm (h.others call hnormal).1
    · rw [List.mem_singleton.1 hlast] at he heq
      injection heq with htarget
      rw [← htarget]
      exact he
  · intro hmem
    exact ⟨terminal.targetTick, List.mem_flatMap.2 ⟨terminal, by simp, hmem⟩⟩

/-- The harvest of the terminal reveal of a shutdown: accepted or given up for good. -/
theorem harvestCall_terminal {call : PlannedCall} (hkind : call.kind = .terminalReveal)
    (htask : call.TaskOk) (results : Nat → Option Delivery) :
    ((harvestCall true results call).state = .accepted ↔ call.state = .accepted ∨
      Effect.harvested call.targetTick .terminalReveal false .ok ∈
        harvestEffects true results call) ∧
    (Effect.harvested call.targetTick .terminalReveal false .err ∈
        harvestEffects true results call → (harvestCall true results call).state = .failed) ∧
    (call.state = .failed → (harvestCall true results call).state = .failed) ∧
    ((harvestCall true results call).state = .broadcasting ∨
      (harvestCall true results call).state = .accepted →
        call.state = .broadcasting ∨ call.state = .accepted) := by
  have hbroadcasting := @harvestOf_broadcasting true results call htask
  have hretry : harvestOf true results call ≠ .retry := by
    intro hretry
    unfold harvestOf at hretry
    repeat' split at hretry
    all_goals first | exact absurd ⟨rfl, hkind⟩ ‹¬ (true = true ∧ call.kind = .terminalReveal)› | cases hretry
  unfold harvestCall harvestEffects
  cases hharvest : harvestOf true results call with
  | pending => simp
  | redundant result => simp
  | accepted =>
    rw [hharvest] at hbroadcasting
    simp [hbroadcasting nofun nofun, hkind]
  | failedTerminal =>
    rw [hharvest] at hbroadcasting
    simp [hbroadcasting nofun nofun]
  | retry => exact absurd hharvest hretry

theorem DrainProgress.harvest (h : DrainProgress slot t chain normal terminal)
    (results : Nat → Option Delivery) :
    DrainStage (harvestBroadcasts results slot).slot
      (t ++ (harvestBroadcasts results slot).effects) := by
  have hshutdown : slot.state.isShutdownDrain = true := by rw [h.state]; rfl
  have hkeeps := harvestCall_keeps true results
  have hslot : (harvestBroadcasts results slot).slot = { slot with chain := some { chain with
      calls := chain.calls.map (harvestCall true results) } } := by
    unfold harvestBroadcasts
    rw [h.present, hshutdown]
  have hsplit : ∀ result, (∃ target, Effect.harvested target .terminalReveal false result ∈
      t ++ (harvestBroadcasts results slot).effects) ↔
        (∃ target, Effect.harvested target .terminalReveal false result ∈ t) ∨
          Effect.harvested terminal.targetTick .terminalReveal false result ∈
            harvestEffects true results terminal := by
    intro result
    rw [← h.harvested results result]
    simp only [List.mem_append, exists_or]
  have ⟨haccepted, hfailed, hstays, hbefore⟩ := harvestCall_terminal h.kind h.task results
  have hprogress : DrainProgress { slot with chain := some { chain with
        calls := chain.calls.map (harvestCall true results) } }
      (t ++ (harvestBroadcasts results slot).effects)
      { chain with calls := chain.calls.map (harvestCall true results) }
      (normal.map (harvestCall true results)) (harvestCall true results terminal) := by
    refine ⟨?_, rfl, ?_, (hkeeps terminal).kind.trans h.kind, ?_, ?_, ?_, ?_, ?_, ?_⟩
    · rw [(hkeeps terminal).target]
      exact h.state
    · simp [h.queue]
    · rw [(hkeeps terminal).target]
      exact h.first
    · intro call hmem
      rcases List.mem_map.1 hmem with ⟨old, hold, rfl⟩
      rw [(hkeeps old).kind, (hkeeps old).target, (hkeeps terminal).target]
      exact h.others old hold
    · have hswept := @PlannedCall.Swept.harvest slot.state none terminal results
      rw [hshutdown] at hswept
      exact hswept.taskOk h.task
    · rw [haccepted, h.accepted]
      exact (hsplit .ok).symm
    · intro hfail
      rcases (hsplit .err).1 hfail with hold | hnew
      · exact hstays (h.failed hold)
      · exact hfailed hnew
    · intro hstate call hmem hfirst
      rcases List.mem_map.1 hmem with ⟨old, hold, rfl⟩
      rw [(hkeeps old).target] at hfirst
      exact harvestCall_accepted.2 (.inl (h.cleared (hbefore hstate) old hold hfirst))
  rw [hslot]
  exact .draining hprogress

theorem expiryOf_retained {currentTick firstTarget : Nat} {call : PlannedCall}
    (h : expiryOf currentTick firstTarget call = .retained) : call.targetTick < firstTarget := by
  unfold expiryOf at h
  repeat' split at h
  all_goals first | assumption | cases h

theorem expiryOf_expired {currentTick firstTarget : Nat} {call : PlannedCall}
    (h : expiryOf currentTick firstTarget call = .expired) : firstTarget ≤ call.targetTick := by
  unfold expiryOf at h
  repeat' split at h
  all_goals first | exact Nat.not_lt.1 ‹_› | cases h

theorem DrainProgress.expire (h : DrainProgress slot t chain normal terminal)
    {currentTick : Nat} (hquiet : NoTerminal (expireCalls currentTick slot).effects) :
    DrainStage (expireCalls currentTick slot).slot (t ++ (expireCalls currentTick slot).effects) ∧
      (expiredCalls currentTick chain.firstTarget chain.calls ≠ [] →
        (expireCalls currentTick slot).slot.state = .drained .failed) := by
  cases hexpired : (expiredCalls currentTick chain.firstTarget chain.calls).isEmpty with
  | true =>
    have hnone : expiredCalls currentTick chain.firstTarget chain.calls = [] := by
      simpa using hexpired
    have hslot : (expireCalls currentTick slot).slot = { slot with chain := some { chain with
        calls := chain.calls.map (expireCall currentTick chain.firstTarget) } } := by
      unfold expireCalls
      rw [h.present]
      dsimp only
      rw [if_pos hexpired]
    refine ⟨?_, fun hsome => absurd hnone hsome⟩
    rw [hslot]
    -- the terminal reveal did not expire, so it keeps its state
    have hsame : (expireCall currentTick chain.firstTarget terminal).state = terminal.state := by
      have hnot : terminal ∉ expiredCalls currentTick chain.firstTarget chain.calls := by
        rw [hnone]
        exact List.not_mem_nil
      have hmem : terminal ∈ chain.calls := by simp [h.queue]
      unfold expireCall
      cases hexpiry : expiryOf currentTick chain.firstTarget terminal with
      | future => rfl
      | settled => rfl
      | retained =>
        have hold := expiryOf_retained hexpiry
        have hfirst := h.first
        omega
      | expired => exact absurd (List.mem_filter.2 ⟨hmem, by simpa using hexpiry⟩) hnot
    refine .draining (h.sweep (expireCall_keeps currentTick chain.firstTarget) hquiet ?_ ?_ ?_ ?_)
    · exact (@PlannedCall.Swept.expire slot.state _ terminal currentTick chain.firstTarget
        rfl).taskOk h.task
    · intro call _
      exact expireCall_accepted
    · intro hfailed
      rw [hsame, hfailed]
    · intro hstate
      rw [hsame] at hstate
      exact .inl hstate
  | false =>
    have hsome : expiredCalls currentTick chain.firstTarget chain.calls ≠ [] := by
      simpa using hexpired
    have hend : (expireCalls currentTick slot).slot.state = .drained .failed ∧
        (expireCalls currentTick slot).slot.chain = none := by
      unfold expireCalls
      rw [h.present, h.state]
      dsimp only
      rw [if_neg (by rw [hexpired]; exact Bool.false_ne_true)]
      exact ⟨rfl, rfl⟩
    refine ⟨.failed hend.1 hend.2 ?_, fun _ => hend.1⟩
    rw [hquiet.accepted]
    intro haccepted
    -- an accepted terminal reveal left nothing undelivered
    have hterminal := h.accepted.2 haccepted
    rcases List.exists_mem_of_ne_nil _ hsome with ⟨call, hmem⟩
    rcases List.mem_filter.1 hmem with ⟨hcall, hexpiry⟩
    have hundelivered := expiryOf_undelivered (.inr (of_decide_eq_true hexpiry))
    rw [h.queue] at hcall
    rcases List.mem_append.1 hcall with hnormal | hlast
    · apply hundelivered.2.1
      exact h.cleared (.inr hterminal) call hnormal (expiryOf_expired (of_decide_eq_true hexpiry))
    · rw [List.mem_singleton.1 hlast] at hundelivered
      exact hundelivered.2.1 hterminal

theorem DrainProgress.dispatch (h : DrainProgress slot t chain normal terminal)
    {currentTick tickDurationMs : Nat}
    (hquiet : NoTerminal (dispatchCalls currentTick tickDurationMs slot).effects) :
    DrainStage (dispatchCalls currentTick tickDurationMs slot).slot
      (t ++ (dispatchCalls currentTick tickDurationMs slot).effects) := by
  have hslot : (dispatchCalls currentTick tickDurationMs slot).slot =
      { slot with chain := some { chain with
          calls := chain.calls.map
            (dispatchCall (dispatchContext currentTick slot.state chain) tickDurationMs) } } := by
    unfold dispatchCalls
    rw [h.present]
  rw [hslot]
  generalize hctx : dispatchContext currentTick slot.state chain = ctx
  refine .draining (h.sweep (dispatchCall_keeps ctx tickDurationMs) hquiet ?_ ?_ ?_ ?_)
  · rw [← hctx]
    exact (@PlannedCall.Swept.dispatch slot.state none terminal currentTick tickDurationMs
      chain).taskOk h.task
  · intro call _
    exact dispatchCall_accepted
  · intro hfailed
    unfold dispatchCall
    split
    · exact hfailed
    · rfl
    · exact hfailed
    · rename_i hsend
      have hready := (dispatchOf_send hsend).2.2.2.2.1 rfl
      simp [hfailed] at hready
  · intro hstate
    unfold dispatchCall at hstate
    split at hstate
    · exact .inl hstate
    · cases hstate
    · exact .inl hstate
    · -- it goes out now: the other calls of the chain were accepted
      rename_i hsend
      right
      have hready := (dispatchOf_send hsend).2.2.1 h.kind
      rw [← hctx] at hready
      simp only [dispatchContext, h.state, terminalReady, List.all_eq_true,
        decide_eq_true_eq] at hready
      intro call hmem hfirst
      have hnormal := h.others call hmem
      rcases hready call (by simp [h.queue, hmem]) with hlt | hkind | hlt | haccepted
      · omega
      · exact absurd hkind hnormal.1
      · omega
      · exact haccepted

/-- `finish_drain` goes by the state of the terminal reveal. -/
theorem finishDrain_terminal (hdraining : slot.state.isDraining = true)
    (hchain : slot.chain = some chain) (hqueue : chain.calls = normal ++ [terminal])
    (hkind : terminal.kind = .terminalReveal)
    (hothers : ∀ call ∈ normal, call.kind ≠ .terminalReveal) :
    finishDrain slot = match terminal.state with
      | .accepted => completeDrain .accepted slot
      | .failed => completeDrain .failed slot
      | _ => { slot := slot } := by
  have hfind : (chain.calls.find? fun call => call.kind = .terminalReveal) = some terminal := by
    rw [hqueue, List.find?_append, List.find?_eq_none.2]
    · simp [hkind]
    · intro call hmem
      simpa using hothers call hmem
  unfold finishDrain
  rw [if_pos hdraining, hchain]
  simp only [Option.bind_some, hfind, Option.map_some]
  cases terminal.state <;> rfl

theorem DrainProgress.finish (h : DrainProgress slot t chain normal terminal)
    (hquiet : NoTerminal (finishDrain slot).effects) :
    DrainStage (finishDrain slot).slot (t ++ (finishDrain slot).effects) := by
  have hdraining : slot.state.isDraining = true := by
    rw [h.state]
    rfl
  have hfinish := finishDrain_terminal hdraining h.present h.queue h.kind fun call hmem =>
    (h.others call hmem).1
  rw [hfinish] at hquiet ⊢
  cases hstate : terminal.state with
  | accepted =>
    rw [hstate] at hquiet
    refine .accepted nofun rfl ((hquiet.accepted t).2 (h.accepted.1 hstate)) ?_
    rw [hquiet.failed]
    intro hfailed
    rw [h.failed hfailed] at hstate
    cases hstate
  | failed =>
    rw [hstate] at hquiet
    refine .failed rfl rfl ?_
    rw [hquiet.accepted]
    intro haccepted
    rw [h.accepted.2 haccepted] at hstate
    cases hstate
  | _ =>
    dsimp only
    rw [List.append_nil]
    exact .draining h

end Draining

/-! ## One operation -/

/-- The operation leaves the drain its course. An operation that takes the slot
back comes after the acceptance, a slot that waits for its entry is not frozen
and nothing is delivered for it, and nothing new is planned. -/
def DrainSafe (slot : ManagedSlot) (t : List Effect) : SlotOp → Prop
  | .reset => TerminalAccepted t
  | .harvestBroadcasts _ => True
  | .applyStatus observation =>
    slot.state.isPlanning = true → (applyStatus observation slot).slot.state.isPlanning = true
  | .enterDrain _ reason => reason = .shutdown
  | .startIfReady _ _ | .extendChain _ _ => False
  | .expireCalls _ | .dispatchCalls _ _ | .finishDrain | .finishStatusRestart _ | .pruneCalls _ =>
    slot.state.isPlanning = false

section Step

variable {slot : ManagedSlot} {t : List Effect}

theorem DrainStage.of_quiet (h : DrainStage slot t) {u : List Effect} (hquiet : NoTerminal u) :
    DrainStage slot (t ++ u) := by
  cases h with
  | managed hstate haccepted hfailed =>
    refine .managed hstate ?_ ?_
    · rwa [hquiet.accepted]
    · rwa [hquiet.failed]
  | draining h =>
    refine .draining { h with accepted := ?_, failed := ?_ }
    · rw [hquiet.accepted]
      exact h.accepted
    · rw [hquiet.failed]
      exact h.failed
  | accepted hstate hchain haccepted hfailed =>
    refine .accepted hstate hchain ((hquiet.accepted t).2 haccepted) ?_
    rwa [hquiet.failed]
  | failed hstate hchain haccepted =>
    refine .failed hstate hchain ?_
    rwa [hquiet.accepted]

/-- Without a terminal reveal in the queue none is joined. -/
theorem harvest_noTerminal (h : ∀ call ∈ slot.queue, call.kind ≠ .terminalReveal)
    (results : Nat → Option Delivery) : NoTerminal (harvestBroadcasts results slot).effects := by
  intro target result hmem
  unfold harvestBroadcasts at hmem
  split at hmem
  · cases hmem
  · rename_i chain hchain
    simp only [List.mem_append, List.mem_map, reduceCtorEq, and_false, exists_false,
      or_false] at hmem
    rcases mem_harvestEffects hmem with ⟨call, hcall, _, _, heq⟩
    injection heq with _ hkind
    apply h call _ hkind.symm
    rw [queue_of_chain hchain]
    exact hcall

/-- A planning slot enters the drain with a signed terminal reveal, or an error
leaves it as it is. -/
theorem enterDrain_planning (env : SigningEnv) (reason : DrainReason) {chain : Chain}
    (hstate : slot.state.isPlanning = true) (hchain : slot.chain = some chain) :
    ((enterDrain cfg env reason slot).slot = slot ∧
      (enterDrain cfg env reason slot).effects = [] ∧
      (enterDrain cfg env reason slot).error ≠ none) ∨
    ∃ signed : SignedCall, signed.kind = .terminalReveal ∧
      signed.targetTick = chain.lastTarget + streamCount ∧
      (enterDrain cfg env reason slot).slot = { slot with
        chain := some { chain with calls := chain.calls ++ [signed.planned] }
        state := .draining reason signed.targetTick } ∧
      (enterDrain cfg env reason slot).effects = [.signed signed] ∧
      (enterDrain cfg env reason slot).error = none := by
  unfold enterDrain
  split
  · rename_i hslot
    rw [hslot] at hstate
    cases hstate
  · rename_i hslot
    rw [hslot] at hstate
    cases hstate
  · rename_i hslot
    rw [hslot] at hstate
    cases hstate
  · rename_i hslot
    rw [hslot] at hstate
    cases hstate
  all_goals
    rw [hchain]
    dsimp only
    split
    · exact .inl ⟨rfl, rfl, nofun⟩
    · rename_i terminalTarget hterminal
      rcases Bounded.checkedAdd_eq_some.1 hterminal with ⟨hsum, -⟩
      split
      · exact .inl ⟨rfl, rfl, nofun⟩
      · exact .inr ⟨_, rfl, hsum.symm, rfl, rfl, rfl⟩

theorem DrainStage.enter {stream : Nat} (hshape : SlotShape stream slot)
    (hregular : ∀ chain, slot.chain = some chain → chain.Regular) (env : SigningEnv)
    (hafter : SlotShape stream (enterDrain cfg env .shutdown slot).slot)
    (hstate : slot.state.isPlanning = true) (haccepted : ¬ TerminalAccepted t)
    (hfailed : ¬ TerminalFailed t) : DrainStage (enterDrain cfg env .shutdown slot).slot t := by
  rcases Option.isSome_iff_exists.1 (hshape.present.2 (.inl hstate)) with ⟨chain, hchain⟩
  rcases @enterDrain_planning cfg slot env .shutdown chain hstate hchain with
    ⟨hslot, -⟩ | ⟨signed, hkind, htarget, hslot, -⟩
  · rw [hslot]
    exact .managed hstate haccepted hfailed
  · rw [hslot] at hafter ⊢
    have hfirst := (hregular chain hchain).first_le
    have hincreasing := hafter.increasing
    have hqueue : ManagedSlot.queue { slot with
        chain := some { chain with calls := chain.calls ++ [signed.planned] }
        state := .draining .shutdown signed.targetTick } = chain.calls ++ [signed.planned] := rfl
    rw [hqueue, List.map_append, List.pairwise_append] at hincreasing
    have hnormal : ∀ call ∈ chain.calls, call.kind ≠ .terminalReveal := by
      intro call hmem
      apply hshape.normal (not_draining_of_planning hstate)
      rw [queue_of_chain hchain]
      exact hmem
    refine @DrainStage.draining _ _ { chain with calls := chain.calls ++ [signed.planned] }
      chain.calls signed.planned ⟨rfl, rfl, rfl, hkind, ?_, ?_, ?_, ?_, ?_, ?_⟩
    · show chain.firstTarget ≤ signed.targetTick
      omega
    · intro call hmem
      exact ⟨hnormal call hmem, hincreasing.2.2 _ (List.mem_map_of_mem hmem) _ (by simp)⟩
    · intro htask
      cases htask
    · constructor
      · intro h
        cases h
      · intro h
        exact absurd h haccepted
    · intro h
      exact absurd h hfailed
    · intro h
      rcases h with h | h <;> cases h

/-- Without a chain nothing but planning starts one, and the drain does not fail. -/
theorem SlotOp.idle {stream : Nat} (hshape : SlotShape stream slot) (hchain : slot.chain = none)
    {op : SlotOp} (hsafe : DrainSafe slot t op) :
    (op.run cfg slot).slot.chain = none ∧ NoTerminal (op.run cfg slot).effects ∧
      (slot.state ≠ .drained .failed → (op.run cfg slot).slot.state ≠ .drained .failed) := by
  have hstate : slot.state.isPlanning = false ∧ slot.state.isRestarting = false ∧
      slot.state.isDraining = false := by
    have hpresent := hshape.present
    rw [hchain] at hpresent
    simpa [not_or] using hpresent
  have hharvest : ∀ results, NoTerminal (RandomClient.harvestBroadcasts results slot).effects := by
    intro results target result hmem
    unfold RandomClient.harvestBroadcasts at hmem
    rw [hchain] at hmem
    cases hmem
  refine ⟨?_, ?_, ?_⟩
  · cases op with
    | reset => rfl
    | startIfReady env currentTick => cases hsafe
    | extendChain env currentTick => cases hsafe
    | harvestBroadcasts results =>
      simp only [SlotOp.run, RandomClient.harvestBroadcasts, hchain]
    | applyStatus observation =>
      simp only [SlotOp.run, RandomClient.applyStatus]
      cases hslot : slot.state <;> simp_all [SlotState.isPlanning, SlotState.isRestarting]
    | enterDrain env reason =>
      simp only [SlotOp.run, RandomClient.enterDrain]
      cases hslot : slot.state <;> simp_all [SlotState.isPlanning]
    | expireCalls currentTick => simp only [SlotOp.run, RandomClient.expireCalls, hchain]
    | dispatchCalls currentTick tickDurationMs =>
      simp only [SlotOp.run, RandomClient.dispatchCalls, hchain]
    | finishDrain =>
      simp only [SlotOp.run, RandomClient.finishDrain, hstate.2.2, Bool.false_eq_true, if_false,
        hchain]
    | finishStatusRestart currentTick =>
      simp only [SlotOp.run, RandomClient.finishStatusRestart]
      cases hslot : slot.state <;> simp_all [SlotState.isRestarting]
    | pruneCalls currentTick =>
      simp only [SlotOp.run, RandomClient.pruneCalls, hstate.2.2, Bool.false_eq_true, if_false,
        hchain]
  · by_cases hresults : ∃ results, op = .harvestBroadcasts results
    · rcases hresults with ⟨results, rfl⟩
      exact hharvest results
    · exact SlotOp.noTerminal (fun results h => hresults ⟨results, h⟩) slot
  · intro hnot
    cases op with
    | reset => simp [SlotOp.run, resetSlot]
    | startIfReady env currentTick => cases hsafe
    | extendChain env currentTick => cases hsafe
    | harvestBroadcasts results =>
      simpa only [SlotOp.run, RandomClient.harvestBroadcasts, hchain] using hnot
    | applyStatus observation =>
      simp only [SlotOp.run, RandomClient.applyStatus]
      cases hslot : slot.state <;> simp_all [SlotState.isPlanning, SlotState.isRestarting]
    | enterDrain env reason =>
      simp only [SlotOp.run, RandomClient.enterDrain]
      cases hslot : slot.state <;> simp_all [SlotState.isPlanning]
    | expireCalls currentTick =>
      simpa only [SlotOp.run, RandomClient.expireCalls, hchain] using hnot
    | dispatchCalls currentTick tickDurationMs =>
      simpa only [SlotOp.run, RandomClient.dispatchCalls, hchain] using hnot
    | finishDrain =>
      simpa only [SlotOp.run, RandomClient.finishDrain, hstate.2.2, Bool.false_eq_true, if_false]
        using hnot
    | finishStatusRestart currentTick =>
      simp only [SlotOp.run, RandomClient.finishStatusRestart]
      cases hslot : slot.state <;> simp_all [SlotState.isRestarting]
    | pruneCalls currentTick =>
      simpa only [SlotOp.run, RandomClient.pruneCalls, hstate.2.2, Bool.false_eq_true, if_false,
        hchain] using hnot

/-- A drained slot stays as it is until it is reset. -/
theorem SlotOp.drained {outcome : DrainOutcome} (hstate : slot.state = .drained outcome)
    (hchain : slot.chain = none) {op : SlotOp} (hop : op ≠ .reset) :
    (op.run cfg slot).slot = slot := by
  cases op with
  | reset => exact absurd rfl hop
  | harvestBroadcasts results =>
    simp only [SlotOp.run, RandomClient.harvestBroadcasts, hchain]
  | applyStatus observation => simp only [SlotOp.run, RandomClient.applyStatus, hstate]
  | enterDrain env reason => simp only [SlotOp.run, RandomClient.enterDrain, hstate]
  | startIfReady env currentTick =>
    simp [SlotOp.run, RandomClient.startIfReady, hstate, SlotState.readyToStart]
  | extendChain env currentTick =>
    simp [SlotOp.run, RandomClient.extendChain, hstate, SlotState.isPlanning]
  | expireCalls currentTick => simp only [SlotOp.run, RandomClient.expireCalls, hchain]
  | dispatchCalls currentTick tickDurationMs =>
    simp only [SlotOp.run, RandomClient.dispatchCalls, hchain]
  | finishDrain => simp [SlotOp.run, RandomClient.finishDrain, hstate, SlotState.isDraining]
  | finishStatusRestart currentTick =>
    simp only [SlotOp.run, RandomClient.finishStatusRestart, hstate]
  | pruneCalls currentTick =>
    simp [SlotOp.run, RandomClient.pruneCalls, hstate, SlotState.isDraining, hchain]

/-- A safe operation takes the slot from stage to stage. -/
theorem DrainStage.step (h : DrainStage slot t) {stream : Nat} {op : SlotOp}
    (hshape : SlotShape stream slot)
    (hregular : ∀ chain, slot.chain = some chain → chain.Regular)
    (hafter : SlotShape stream (op.run cfg slot).slot) (hsafe : DrainSafe slot t op) :
    DrainStage (op.run cfg slot).slot (t ++ (op.run cfg slot).effects) := by
  have hquiet : (∀ results, op ≠ .harvestBroadcasts results) →
      NoTerminal (op.run cfg slot).effects := fun hop => SlotOp.noTerminal hop slot
  cases h with
  | managed hstate haccepted hfailed =>
    -- the slot waits for its entry
    have hwaits : DrainStage slot t := .managed hstate haccepted hfailed
    cases op with
    | reset => exact absurd hsafe haccepted
    | harvestBroadcasts results =>
      have hquiet := harvest_noTerminal (hshape.normal (not_draining_of_planning hstate)) results
      refine DrainStage.of_quiet (.managed ?_ haccepted hfailed) hquiet
      show (RandomClient.harvestBroadcasts results slot).slot.state.isPlanning = true
      rw [harvestBroadcasts_state]
      exact hstate
    | applyStatus observation =>
      exact DrainStage.of_quiet (.managed (hsafe hstate) haccepted hfailed)
        (hquiet (by simp))
    | enterDrain env reason =>
      obtain rfl : reason = .shutdown := hsafe
      exact (DrainStage.enter hshape hregular env hafter hstate haccepted hfailed).of_quiet
        (hquiet (by simp))
    | startIfReady env currentTick => cases hsafe
    | extendChain env currentTick => cases hsafe
    | _ =>
      have hidle : slot.state.isPlanning = false := hsafe
      rw [hstate] at hidle
      cases hidle
  | draining h =>
    cases op with
    | reset =>
      refine DrainStage.of_quiet (.accepted ?_ rfl hsafe ?_) (hquiet (by simp))
      · intro hstate
        cases hstate
      intro hfailed
      have hterminal := h.failed hfailed
      rw [h.accepted.2 hsafe] at hterminal
      cases hterminal
    | harvestBroadcasts results => exact h.harvest results
    | applyStatus observation =>
      have hsame : applyStatus observation slot = { slot := slot } := by
        simp only [RandomClient.applyStatus, h.state]
      simp only [SlotOp.run, hsame, List.append_nil]
      exact .draining h
    | enterDrain env reason =>
      have hsame : RandomClient.enterDrain cfg env reason slot = { slot := slot } := by
        simp only [RandomClient.enterDrain, h.state]
      simp only [SlotOp.run, hsame, List.append_nil]
      exact .draining h
    | startIfReady env currentTick => cases hsafe
    | extendChain env currentTick => cases hsafe
    | expireCalls currentTick => exact (h.expire (hquiet (by simp))).1
    | dispatchCalls currentTick tickDurationMs => exact h.dispatch (hquiet (by simp))
    | finishDrain => exact h.finish (hquiet (by simp))
    | finishStatusRestart currentTick =>
      have hsame : RandomClient.finishStatusRestart currentTick slot = { slot := slot } := by
        simp only [RandomClient.finishStatusRestart, h.state]
      simp only [SlotOp.run, hsame, List.append_nil]
      exact .draining h
    | pruneCalls currentTick =>
      have hsame : RandomClient.pruneCalls currentTick slot = { slot := slot } := by
        unfold RandomClient.pruneCalls
        rw [if_pos (by rw [h.state]; rfl)]
      simp only [SlotOp.run, hsame, List.append_nil]
      exact .draining h
  | accepted hstate hchain haccepted hfailed =>
    obtain ⟨hnone, hquiet, hnot⟩ := @SlotOp.idle cfg slot t stream hshape hchain op hsafe
    exact DrainStage.of_quiet (.accepted (hnot hstate) hnone haccepted hfailed) hquiet
  | failed hstate hchain haccepted =>
    obtain ⟨_, hquiet, _⟩ := @SlotOp.idle cfg slot t stream hshape hchain op hsafe
    have hreset : op ≠ .reset := by
      rintro rfl
      exact haccepted hsafe
    rw [SlotOp.drained hstate hchain hreset]
    exact DrainStage.of_quiet (.failed hstate hchain haccepted) hquiet

end Step

/-! ## The operations from the entry on -/

/-- Every operation of the list leaves the drain its course. -/
def SafeFrom (cfg : Config) (slot : ManagedSlot) (ops : List SlotOp) : Prop :=
  ∀ front op back, ops = front ++ op :: back →
    DrainSafe ((slotMachine cfg).state slot front) ((slotMachine cfg).trace slot front) op

theorem SafeFrom.of_append {slot : ManagedSlot} {xs ys : List SlotOp}
    (h : SafeFrom cfg slot (xs ++ ys)) : SafeFrom cfg slot xs := by
  intro front op back hsplit
  apply h front op (back ++ ys)
  rw [hsplit, List.append_assoc]
  rfl

/-- The current chain has an undelivered call whose target has come. A frozen
tail has no terminal reveal, so its calls are prerequisites of none. -/
def Expires (slot : ManagedSlot) : SlotOp → Prop
  | .expireCalls currentTick => slot.state.isRestarting = false ∧ ∃ chain,
    slot.chain = some chain ∧ expiredCalls currentTick chain.firstTarget chain.calls ≠ []
  | _ => False

/-- An attempt of the terminal reveal failed, or a call expired before. -/
def DrainLost (cfg : Config) (slot : ManagedSlot) (ops : List SlotOp) : Prop :=
  TerminalFailed ((slotMachine cfg).trace slot ops) ∨
    ∃ front op back, ops = front ++ op :: back ∧ Expires ((slotMachine cfg).state slot front) op

section Entry

variable {i : Fin 3} {pre ops : List SlotOp}

/-- The stage of a stream that was managed at the entry. -/
theorem drainStage_of_safe
    (hmanaged : ((slotMachine cfg).state (slot₀ cfg i) pre).state.isPlanning = true)
    (hsafe : SafeFrom cfg ((slotMachine cfg).state (slot₀ cfg i) pre) ops) :
    DrainStage ((slotMachine cfg).state ((slotMachine cfg).state (slot₀ cfg i) pre) ops)
      ((slotMachine cfg).trace ((slotMachine cfg).state (slot₀ cfg i) pre) ops) := by
  induction ops using List.reverseRecOn with
  | nil =>
    refine .managed hmanaged ?_ ?_
    · rintro ⟨target, hmem⟩
      cases hmem
    · rintro ⟨target, hmem⟩
      cases hmem
  | append_singleton ops op ih =>
    have hshape : ∀ ops, SlotShape i ((slotMachine cfg).state
        ((slotMachine cfg).state (slot₀ cfg i) pre) ops) := by
      intro ops
      rw [← Machine.state_append]
      exact slotShape i _
    have hafter := hshape (ops ++ [op])
    rw [slotMachine_state_snoc] at hafter
    rw [slotMachine_state_snoc, slotMachine_trace_snoc]
    refine (ih hsafe.of_append).step (hshape ops) ?_ hafter (hsafe ops op [] rfl)
    intro chain hchain
    rw [← Machine.state_append] at hchain
    exact slotMachine_regular i _ hchain

/-- A drain that failed stays failed. -/
theorem drained_failed_of_safe {more : List SlotOp}
    (hmanaged : ((slotMachine cfg).state (slot₀ cfg i) pre).state.isPlanning = true)
    (hsafe : SafeFrom cfg ((slotMachine cfg).state (slot₀ cfg i) pre) (ops ++ more))
    (hfailed : ((slotMachine cfg).state ((slotMachine cfg).state (slot₀ cfg i) pre) ops).state =
      .drained .failed) :
    ((slotMachine cfg).state ((slotMachine cfg).state (slot₀ cfg i) pre) (ops ++ more)).state =
      .drained .failed := by
  induction more using List.reverseRecOn with
  | nil =>
    rw [List.append_nil]
    exact hfailed
  | append_singleton more op ih =>
    rw [← List.append_assoc] at hsafe ⊢
    have hbefore := ih hsafe.of_append
    have hstage := drainStage_of_safe hmanaged hsafe.of_append
    have hop := hsafe (ops ++ more) op [] rfl
    rw [slotMachine_state_snoc]
    cases hstage with
    | managed hstate => simp [hbefore, SlotState.isPlanning] at hstate
    | draining h =>
      have hstate := h.state
      rw [hbefore] at hstate
      cases hstate
    | accepted hstate => exact absurd hbefore hstate
    | failed _ hchain haccepted =>
      rw [SlotOp.drained hbefore hchain]
      · exact hbefore
      · rintro rfl
        exact haccepted hop

/-- At the end of a drain: a slot that is drained and did not fail had its
terminal reveal accepted, and lost nothing. -/
theorem drain_outcome
    (hmanaged : ((slotMachine cfg).state (slot₀ cfg i) pre).state.isPlanning = true)
    (hsafe : SafeFrom cfg ((slotMachine cfg).state (slot₀ cfg i) pre) ops)
    (hdrained : ((slotMachine cfg).state ((slotMachine cfg).state (slot₀ cfg i) pre)
      ops).state.isDrained = true)
    (hnot : ((slotMachine cfg).state ((slotMachine cfg).state (slot₀ cfg i) pre) ops).state ≠
      .drained .failed) :
    TerminalAccepted ((slotMachine cfg).trace ((slotMachine cfg).state (slot₀ cfg i) pre) ops) ∧
      ¬ DrainLost cfg ((slotMachine cfg).state (slot₀ cfg i) pre) ops := by
  have hstage := drainStage_of_safe hmanaged hsafe
  have hend : TerminalAccepted
      ((slotMachine cfg).trace ((slotMachine cfg).state (slot₀ cfg i) pre) ops) ∧
      ¬ TerminalFailed ((slotMachine cfg).trace ((slotMachine cfg).state (slot₀ cfg i) pre) ops) := by
    cases hstage with
    | managed hstate =>
      cases hslot : ((slotMachine cfg).state ((slotMachine cfg).state (slot₀ cfg i) pre)
        ops).state <;> simp [hslot, SlotState.isPlanning, SlotState.isDrained] at hstate hdrained
    | draining h =>
      rw [h.state] at hdrained
      cases hdrained
    | accepted _ _ haccepted hfailed => exact ⟨haccepted, hfailed⟩
    | failed hstate => exact absurd hstate hnot
  refine ⟨hend.1, ?_⟩
  rintro (hfailed | ⟨front, op, back, rfl, hexpires⟩)
  · exact hend.2 hfailed
  · -- an expiry would have failed the drain for good
    have hbefore := drainStage_of_safe hmanaged hsafe.of_append
    have hop := hsafe front op back rfl
    cases op with
    | expireCalls currentTick =>
      rcases hexpires with ⟨-, chain, hchain, hsome⟩
      have hfails : ((slotMachine cfg).state ((slotMachine cfg).state (slot₀ cfg i) pre)
          (front ++ [.expireCalls currentTick])).state = .drained .failed := by
        rw [slotMachine_state_snoc]
        cases hbefore with
        | managed hstate =>
          have hidle : _ = false := hop
          rw [hstate] at hidle
          cases hidle
        | draining h =>
          rw [h.present] at hchain
          obtain rfl := Option.some.inj hchain
          have hquiet := @SlotOp.noTerminal cfg (.expireCalls currentTick) (by rintro _ ⟨⟩)
            ((slotMachine cfg).state ((slotMachine cfg).state (slot₀ cfg i) pre) front)
          exact (h.expire hquiet).2 hsome
        | accepted _ hnone => simp [hnone] at hchain
        | failed _ hnone => simp [hnone] at hchain
      apply hnot
      have hsplit : front ++ SlotOp.expireCalls currentTick :: back =
          (front ++ [.expireCalls currentTick]) ++ back := by simp
      rw [hsplit] at hsafe ⊢
      exact drained_failed_of_safe hmanaged hsafe hfails
    | _ => exact hexpires

end Entry

/-! ## A loss on record -/

/-- The slot drains, and no terminal reveal of it is accepted. -/
structure ManagedSlot.Refused (slot : ManagedSlot) : Prop where
  draining : slot.state.isDraining = true
  terminal : ∀ call ∈ slot.queue, call.kind = .terminalReveal → call.state ≠ .accepted

/-- What a slot that is not planned keeps of a loss: a terminal reveal without
acceptance after a failed attempt, or a failed drain. -/
inductive LossStage (slot : ManagedSlot) (t : List Effect) (lost : Prop) : Prop where
  | unlost (h : ¬ lost) : LossStage slot t lost
  | refused (h : slot.Refused) (hfailed : TerminalFailed t) : LossStage slot t lost
  | failed (hstate : slot.state = .drained .failed) (hchain : slot.chain = none) :
      LossStage slot t lost

/-- The operation keeps a loss on record: it does not reset a slot with a loss,
it joins no acceptance of a terminal reveal of which an attempt failed, and it
plans nothing new. -/
def LossSafe (slot : ManagedSlot) (t : List Effect) (lost : Prop) : SlotOp → Prop
  | .reset => ¬ lost
  | .harvestBroadcasts results => TerminalFailed t → ∀ call ∈ slot.queue,
    call.kind = .terminalReveal → call.broadcast.isSome = true →
      results call.targetTick ≠ some .ok
  | .startIfReady _ _ | .extendChain _ _ => False
  | .applyStatus _ | .enterDrain _ _ | .expireCalls _ | .dispatchCalls _ _ | .finishDrain
  | .finishStatusRestart _ | .pruneCalls _ => True

/-- Only a start brings a slot to planning. -/
theorem SlotOp.leaves {op : SlotOp} (hop : ∀ env currentTick, op ≠ .startIfReady env currentTick)
    {slot : ManagedSlot} (hstate : slot.state.isPlanning = false) :
    (op.run cfg slot).slot.state.isPlanning = false := by
  cases op with
  | reset => rfl
  | startIfReady env currentTick => exact absurd rfl (hop env currentTick)
  | harvestBroadcasts results =>
    simp only [SlotOp.run, harvestBroadcasts_state]
    exact hstate
  | applyStatus observation =>
    simp only [SlotOp.run, RandomClient.applyStatus]
    cases hslot : slot.state <;> simp_all [SlotState.isPlanning]
  | enterDrain env reason =>
    simp only [SlotOp.run, RandomClient.enterDrain]
    cases hslot : slot.state <;> simp_all [SlotState.isPlanning]
  | extendChain env currentTick =>
    simp [SlotOp.run, RandomClient.extendChain, hstate]
  | expireCalls currentTick =>
    simp only [SlotOp.run, RandomClient.expireCalls, completeDrain, SlotResult.followedBy]
    split
    · exact hstate
    · split
      · exact hstate
      · cases hslot : slot.state <;> simp_all [SlotState.isPlanning]
  | dispatchCalls currentTick tickDurationMs =>
    simp only [SlotOp.run, dispatchCalls_state]
    exact hstate
  | finishDrain =>
    simp only [SlotOp.run, RandomClient.finishDrain, completeDrain]
    repeat' split
    all_goals first | exact hstate | rfl
  | finishStatusRestart currentTick =>
    simp only [SlotOp.run, RandomClient.finishStatusRestart]
    split
    · split
      · exact hstate
      · split <;> rfl
    · exact hstate
  | pruneCalls currentTick =>
    simp only [SlotOp.run, pruneCalls_state]
    exact hstate

section Loss

variable {slot : ManagedSlot} {t : List Effect} {lost : Prop} {stream : Nat}

/-- A failed attempt of the terminal reveal leaves it without acceptance. -/
theorem harvest_refused (hshape : SlotShape stream slot) (results : Nat → Option Delivery)
    {target : Nat} (hmem : Effect.harvested target .terminalReveal false .err ∈
      (harvestBroadcasts results slot).effects) :
    (harvestBroadcasts results slot).slot.Refused := by
  have hdraining : slot.state.isDraining = true := by
    cases hstate : slot.state.isDraining with
    | true => rfl
    | false => exact absurd hmem (harvest_noTerminal (hshape.normal hstate) results target .err)
  refine ⟨by rw [harvestBroadcasts_state]; exact hdraining, ?_⟩
  cases hslot : slot.state with
  | draining reason terminalTarget =>
    rcases hshape.draining reason terminalTarget hslot with
      ⟨chain, normal, terminal, hchain, -, hcalls, -, -, hnormal⟩
    unfold harvestBroadcasts at hmem ⊢
    simp only [hchain, List.mem_append, List.mem_map, reduceCtorEq, and_false, exists_false,
      or_false] at hmem ⊢
    generalize slot.state.isShutdownDrain = shutdownDrain at hmem ⊢
    -- the event is that of the one terminal reveal
    rcases List.mem_flatMap.1 hmem with ⟨failed, hfailed, hevent⟩
    have hjoined : failed.kind = .terminalReveal ∧
        (harvestOf shutdownDrain results failed = .failedTerminal ∨
          harvestOf shutdownDrain results failed = .retry) := by
      unfold harvestEffects at hevent
      cases hharvest : harvestOf shutdownDrain results failed <;> simp_all
    have hterminal : failed = terminal := by
      rw [hcalls] at hfailed
      rcases List.mem_append.1 hfailed with hold | hlast
      · exact absurd hjoined.1 (hnormal failed hold)
      · exact List.mem_singleton.1 hlast
    subst hterminal
    intro call hcall hkind
    rw [queue_of_chain rfl, hcalls] at hcall
    rcases List.mem_map.1 hcall with ⟨old, hold, rfl⟩
    rw [(harvestCall_keeps shutdownDrain results old).kind] at hkind
    rcases List.mem_append.1 hold with hold | hlast
    · exact absurd hkind (hnormal old hold)
    · rw [List.mem_singleton.1 hlast]
      unfold harvestCall
      rcases hjoined.2 with hharvest | hharvest <;> simp [hharvest]
  | _ => simp [hslot, SlotState.isDraining] at hdraining

/-- The expiry of a call that belongs to a drain fails the drain. -/
theorem expire_failed (hshape : SlotShape stream slot) (hplanning : slot.state.isPlanning = false)
    {op : SlotOp} (hexpires : Expires slot op) :
    (op.run cfg slot).slot.state = .drained .failed ∧ (op.run cfg slot).slot.chain = none := by
  cases op with
  | expireCalls currentTick =>
    rcases hexpires with ⟨hrestarting, chain, hchain, hsome⟩
    have hdraining : slot.state.isDraining = true := by
      have hpresent := hshape.present.1 (by rw [hchain]; rfl)
      simpa [hplanning, hrestarting] using hpresent
    have hexpired : (expiredCalls currentTick chain.firstTarget chain.calls).isEmpty = false := by
      simpa using hsome
    simp only [SlotOp.run, RandomClient.expireCalls, hchain, hexpired]
    cases hslot : slot.state <;> simp_all [SlotState.isDraining, completeDrain,
      SlotResult.followedBy]
  | _ => exact absurd hexpires id

/-- A call becomes accepted when its task finished with an acceptance. -/
theorem harvestOf_accepted {shutdownDrain : Bool} {results : Nat → Option Delivery}
    {call : PlannedCall} (h : harvestOf shutdownDrain results call = .accepted) :
    call.broadcast.isSome = true ∧ results call.targetTick = some .ok := by
  unfold harvestOf at h
  split at h
  · rename_i htask hresult
    refine ⟨by rw [htask]; rfl, ?_⟩
    split at h
    · cases h
    · split at h
      · exact hresult
      · split at h <;> cases h
  · cases h

/-- A change of the queue call by call that accepts no terminal reveal. -/
theorem ManagedSlot.Refused.map (h : slot.Refused) {chain : Chain} (hchain : slot.chain = some chain)
    {f : PlannedCall → PlannedCall} (hkeeps : ∀ call : PlannedCall, call.Keeps (f call))
    (haccepted : ∀ call ∈ chain.calls, call.kind = .terminalReveal →
      (f call).state = .accepted → call.state = .accepted) :
    ManagedSlot.Refused
      { slot with chain := some { chain with calls := chain.calls.map f } } where
  draining := h.draining
  terminal := by
    intro call hcall hkind haccept
    rw [queue_of_chain rfl] at hcall
    rcases List.mem_map.1 hcall with ⟨old, hold, rfl⟩
    rw [(hkeeps old).kind] at hkind
    exact h.terminal old (by rw [queue_of_chain hchain]; exact hold) hkind
      (haccepted old hold hkind haccept)

/-- A terminal reveal without acceptance stays so, or its drain fails. -/
theorem ManagedSlot.Refused.step (h : slot.Refused) (hfailed : TerminalFailed t) {op : SlotOp}
    (hop : op ≠ .reset) (hsafe : LossSafe slot t lost op) :
    (op.run cfg slot).slot.Refused ∨
      ((op.run cfg slot).slot.state = .drained .failed ∧ (op.run cfg slot).slot.chain = none) := by
  have hdraining := h.draining
  cases op with
  | reset => exact absurd rfl hop
  | startIfReady env currentTick => cases hsafe
  | extendChain env currentTick => cases hsafe
  | harvestBroadcasts results =>
    left
    simp only [SlotOp.run, RandomClient.harvestBroadcasts]
    split
    · exact h
    · rename_i chain hchain
      apply h.map hchain (harvestCall_keeps slot.state.isShutdownDrain results)
      intro call hcall hkind haccepted
      rcases harvestCall_accepted.1 haccepted with hbefore | hjoined
      · exact hbefore
      · -- the backend did not accept an attempt of it
        rcases harvestOf_accepted hjoined with ⟨hsome, hok⟩
        exact absurd hok (hsafe hfailed call (by rw [queue_of_chain hchain]; exact hcall) hkind hsome)
  | applyStatus observation =>
    left
    simp only [SlotOp.run, RandomClient.applyStatus]
    cases hslot : slot.state <;> simp_all [SlotState.isDraining]
  | enterDrain env reason =>
    left
    simp only [SlotOp.run, RandomClient.enterDrain]
    cases hslot : slot.state <;> simp_all [SlotState.isDraining]
  | expireCalls currentTick =>
    simp only [SlotOp.run, RandomClient.expireCalls]
    split
    · exact .inl h
    · rename_i chain hchain
      -- a call that expires fails the drain
      split
      · left
        apply h.map hchain (expireCall_keeps currentTick chain.firstTarget)
        intro call _ _ haccepted
        exact expireCall_accepted.1 haccepted
      · right
        cases hslot : slot.state <;> simp_all [SlotState.isDraining, completeDrain,
          SlotResult.followedBy]
  | dispatchCalls currentTick tickDurationMs =>
    left
    simp only [SlotOp.run, RandomClient.dispatchCalls]
    split
    · exact h
    · rename_i chain hchain
      apply h.map hchain (dispatchCall_keeps (dispatchContext currentTick slot.state chain)
        tickDurationMs)
      intro call _ _ haccepted
      exact dispatchCall_accepted.1 haccepted
  | finishDrain =>
    simp only [SlotOp.run, RandomClient.finishDrain, hdraining, if_true]
    split
    · rename_i hterminal
      -- the drain cannot complete: its terminal reveal is not accepted
      exfalso
      rcases Option.bind_eq_some_iff.1 hterminal with ⟨chain, hchain, hfind⟩
      rcases Option.map_eq_some_iff.1 hfind with ⟨call, hcall, hstate⟩
      have hmem := List.mem_of_find?_eq_some hcall
      refine h.terminal call (by rw [queue_of_chain hchain]; exact hmem) ?_ hstate
      simpa using List.find?_some hcall
    · exact .inr ⟨rfl, rfl⟩
    · exact .inl h
  | finishStatusRestart currentTick =>
    left
    simp only [SlotOp.run, RandomClient.finishStatusRestart]
    cases hslot : slot.state <;> simp_all [SlotState.isDraining]
  | pruneCalls currentTick =>
    left
    simp only [SlotOp.run, RandomClient.pruneCalls, hdraining, if_true]
    exact h

/-- An operation that keeps a loss on record takes the slot from stage to stage. -/
theorem LossStage.step (h : LossStage slot t lost) (hshape : SlotShape stream slot)
    (hplanning : slot.state.isPlanning = false) {op : SlotOp} (hsafe : LossSafe slot t lost op)
    {lost' : Prop} (hlost : lost' → lost ∨ (∃ target, Effect.harvested target .terminalReveal
      false .err ∈ (op.run cfg slot).effects) ∨ Expires slot op) :
    LossStage (op.run cfg slot).slot (t ++ (op.run cfg slot).effects) lost' := by
  by_cases hnow : lost'
  · have hreset : lost → op ≠ .reset := by
      rintro hbefore rfl
      exact hsafe hbefore
    rcases hlost hnow with hbefore | hnew | hexpires
    · cases h with
      | unlost hunlost => exact absurd hbefore hunlost
      | refused h hfailed =>
        rcases h.step hfailed (hreset hbefore) hsafe with hrefused | ⟨hstate, hchain⟩
        · exact .refused hrefused (hfailed.append _)
        · exact .failed hstate hchain
      | failed hstate hchain =>
        rw [SlotOp.drained hstate hchain (hreset hbefore)]
        exact .failed hstate hchain
    · -- the attempt failed just now
      rcases hnew with ⟨target, hmem⟩
      by_cases hresults : ∃ results, op = .harvestBroadcasts results
      · rcases hresults with ⟨results, rfl⟩
        exact .refused (harvest_refused hshape results hmem) ⟨target, List.mem_append_right t hmem⟩
      · exact absurd hmem
          (SlotOp.noTerminal (fun results h => hresults ⟨results, h⟩) slot target .err)
    · -- a prerequisite expired just now
      rcases expire_failed hshape hplanning hexpires with ⟨hstate, hchain⟩
      exact .failed hstate hchain
  · exact .unlost hnow

end Loss

theorem drainLost_nil (slot : ManagedSlot) : ¬ DrainLost cfg slot [] := by
  rintro (⟨target, hmem⟩ | ⟨front, op, back, hsplit, -⟩)
  · cases hmem
  · simp at hsplit

/-- What is lost after one more operation. -/
theorem drainLost_snoc {slot : ManagedSlot} {ops : List SlotOp} {op : SlotOp}
    (h : DrainLost cfg slot (ops ++ [op])) :
    DrainLost cfg slot ops ∨
      (∃ target, Effect.harvested target .terminalReveal false .err ∈
        (op.run cfg ((slotMachine cfg).state slot ops)).effects) ∨
      Expires ((slotMachine cfg).state slot ops) op := by
  rcases h with ⟨target, hmem⟩ | ⟨front, o, back, hsplit, hexpires⟩
  · rw [slotMachine_trace_snoc] at hmem
    rcases List.mem_append.1 hmem with hold | hnew
    · exact .inl (.inl ⟨target, hold⟩)
    · exact .inr (.inl ⟨target, hnew⟩)
  · rcases List.eq_nil_or_concat back with rfl | ⟨back, last, rfl⟩
    · obtain rfl := List.append_inj_left' hsplit rfl
      obtain ⟨rfl, -⟩ := List.cons.inj (List.append_inj_right' hsplit rfl)
      exact .inr (.inr hexpires)
    · rw [List.concat_eq_append, ← List.cons_append, ← List.append_assoc] at hsplit
      exact .inl (.inr ⟨front, o, back, List.append_inj_left' hsplit rfl, hexpires⟩)

/-- Every operation of the list keeps a loss on record. -/
def LossSafeFrom (cfg : Config) (slot : ManagedSlot) (ops : List SlotOp) : Prop :=
  ∀ front op back, ops = front ++ op :: back →
    LossSafe ((slotMachine cfg).state slot front) ((slotMachine cfg).trace slot front)
      (DrainLost cfg slot front) op

/-- The stage of a stream that was not planned at the entry. -/
theorem lossStage_of_safe {i : Fin 3} {pre ops : List SlotOp}
    (hplanning : ((slotMachine cfg).state (slot₀ cfg i) pre).state.isPlanning = false)
    (hsafe : LossSafeFrom cfg ((slotMachine cfg).state (slot₀ cfg i) pre) ops) :
    let slot := (slotMachine cfg).state (slot₀ cfg i) pre
    ((slotMachine cfg).state slot ops).state.isPlanning = false ∧
      LossStage ((slotMachine cfg).state slot ops) ((slotMachine cfg).trace slot ops)
        (DrainLost cfg slot ops) := by
  intro slot
  induction ops using List.reverseRecOn with
  | nil => exact ⟨hplanning, .unlost (drainLost_nil slot)⟩
  | append_singleton ops op ih =>
    obtain ⟨hbefore, hstage⟩ := ih fun front o back hsplit =>
      hsafe front o (back ++ [op]) (by rw [hsplit]; simp)
    have hop := hsafe ops op [] rfl
    have hshape : SlotShape i ((slotMachine cfg).state slot ops) := by
      rw [← Machine.state_append]
      exact slotShape i _
    rw [slotMachine_state_snoc, slotMachine_trace_snoc]
    refine ⟨SlotOp.leaves ?_ hbefore, hstage.step hshape hbefore hop drainLost_snoc⟩
    rintro env currentTick rfl
    exact hop

/-- At the end of a drain: a stream that lost something did not end well. -/
theorem loss_outcome {i : Fin 3} {pre ops : List SlotOp}
    (hplanning : ((slotMachine cfg).state (slot₀ cfg i) pre).state.isPlanning = false)
    (hsafe : LossSafeFrom cfg ((slotMachine cfg).state (slot₀ cfg i) pre) ops)
    (hdrained : ((slotMachine cfg).state ((slotMachine cfg).state (slot₀ cfg i) pre)
      ops).state.isDrained = true)
    (hnot : ((slotMachine cfg).state ((slotMachine cfg).state (slot₀ cfg i) pre) ops).state ≠
      .drained .failed) : ¬ DrainLost cfg ((slotMachine cfg).state (slot₀ cfg i) pre) ops := by
  cases (lossStage_of_safe hplanning hsafe).2 with
  | unlost h => exact h
  | refused h =>
    have hdraining := h.draining
    cases hslot : ((slotMachine cfg).state ((slotMachine cfg).state (slot₀ cfg i) pre)
      ops).state <;> simp [hslot, SlotState.isDraining, SlotState.isDrained] at hdraining hdrained
  | failed hstate => exact absurd hstate hnot

end RandomClient
